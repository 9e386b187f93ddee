import MiniZincModels.Model.Operation
import MiniZincModels.Proofs.Outcome
import MiniZincModels.Solver.Run

/-!
# Reachable models

A program takes a model through a sequence of steps, each of which may succeed
or be refused.  What a step can do to a model is said once, in the relation
`Effect`; an invariant of all reachable models is then proved by going through
the few effects instead of the many operations.
-/

namespace MiniZincModels

/-- One step of a program that works on a model. -/
inductive Step
  | operation (operation : Operation)
  /-- A call of a solver, together with what came of starting it. -/
  | solve (settings : SolverSettings) (modelFile : String) (launch : Launch)

/-- The operations which ask for text and declare, post or set nothing. -/
def Operation.IsReading : Operation → Prop
  | render | generate | generatedText | currentText | write _ _ => True
  | _ => False

/-- What an operation asks the solver for, if it sets the criteria. -/
def Operation.criteria? : Operation → Option (Criteria × Option Expr)
  | setCriteria criteria objective => some (criteria, objective)
  | satisfy => some (.satisfy, none)
  | minimize objective => some (.minimize, some objective)
  | maximize objective => some (.maximize, some objective)
  | _ => none

namespace Model

/-- The model after a step, whether the step succeeded or was refused. -/
def advance (model : Model) : Step → Model
  | .operation operation => (model.perform operation).1
  | .solve settings modelFile launch => (settings.solve model modelFile launch).model

/-- The models which a program can have, if it starts from the empty one and takes
only steps that are allowed for the model at hand. -/
inductive ReachableBy (Allowed : Model → Step → Prop) : Model → Prop
  | empty : ReachableBy Allowed empty
  | step {model : Model} (reached : ReachableBy Allowed model) (step : Step)
      (allowed : Allowed model step) : ReachableBy Allowed (model.advance step)

/-- The models which any program can have. -/
abbrev Reachable : Model → Prop :=
  ReachableBy fun _ _ => True

theorem ReachableBy.reachable {Allowed : Model → Step → Prop} {model : Model}
    (reached : ReachableBy Allowed model) : Reachable model := by
  induction reached with
  | empty => exact .empty
  | step _ step _ ih => exact ih.step step trivial

/-- The operations of a program are carried out one after the other. -/
theorem ReachableBy.run {Allowed : Model → Step → Prop} {model : Model}
    (reached : ReachableBy Allowed model) {operations : List Operation}
    (hallowed : ∀ operation ∈ operations, ∀ current, Allowed current (.operation operation)) :
    ReachableBy Allowed (model.run operations) := by
  induction operations generalizing model with
  | nil => exact reached
  | cons operation operations ih =>
    rw [List.forall_mem_cons] at hallowed
    exact ih (reached.step (.operation operation) (hallowed.1 model)) hallowed.2

/-- What a step can make of a model.  A refused step and a step that only reads leave
it `unchanged`, or keep the text that was generated on the way. -/
inductive Effect (before : Model) : Step → Model → Prop
  | unchanged (step : Step) : Effect before step before
  | textKept (step : Step) {text : String} (rendered : before.render = .ok text) :
      Effect before step { before with generated := some text }
  | addConstant {name : String} {value : ConstantValue} {constant : Constant}
      (free : before.checkIdentifier name = .ok ())
      (defined : Constant.define name value = .ok constant) :
      Effect before (.operation (.addConstant name value))
        { before with
          constants := before.constants ++ [constant]
          identifiers := before.identifiers ++ [name]
          generated := none }
  | addVariable {name : String} {definition : Definition} {declared : Variable}
      (free : before.checkIdentifier name = .ok ())
      (defined : Variable.define name definition = .ok declared) :
      Effect before (.operation (.addVariable name definition))
        { before with
          vars := before.vars ++ [declared]
          identifiers := before.identifiers ++ [name]
          generated := none }
  | addVariables {base : String} {definitions : List (IndexKey × Definition)}
      {collection : Collection} (valid : Identifier.isValid base = true)
      (defined : before.defineAll base definitions Collection.empty = .ok collection) :
      Effect before (.operation (.addVariables base definitions))
        { before with
          vars := before.vars ++ collection.vars
          identifiers := before.identifiers ++ collection.vars.map Variable.name
          generated := none }
  | post {given : List Postable} {redundant : Bool} {items : List Constraint}
      (accepted : given.mapM Postable.toConstraint = .ok items) :
      Effect before (.operation (.post given redundant))
        (before.register (if redundant then items.map Constraint.markRedundant else items))
  | setCriteria {operation : Operation} {criteria : Criteria} {expr : Option Expr}
      (asked : operation.criteria? = some (criteria, expr))
      (fitting : checkObjective criteria expr = .ok ()) :
      Effect before (.operation operation)
        { before with objective := some ⟨criteria, expr⟩, generated := none }
  | setSearch (search : Search) :
      Effect before (.operation (.setSearch search))
        { before with search := some search, generated := none }
  | setRestart {strategy : RestartStrategy} (searching : before.search.isSome = true)
      (accepted : strategy.validate = .ok strategy) :
      Effect before (.operation (.setRestart strategy))
        { before with restart := some strategy, generated := none }

/-! ## Every step has one of these effects -/

section Effects

variable {model : Model}

theorem addConstant_eq_ok {name : String} {value : ConstantValue} {constant : Constant}
    {after : Model} (h : model.addConstant name value = .ok (constant, after)) :
    Effect model (.operation (.addConstant name value)) after := by
  obtain ⟨_, hfree, h⟩ := Outcome.bind_eq_ok.mp h
  obtain ⟨_, hdefined, h⟩ := Outcome.bind_eq_ok.mp h
  cases h
  exact .addConstant hfree hdefined

theorem addVariable_eq_ok {name : String} {definition : Definition} {declared : Variable}
    {after : Model} (h : model.addVariable name definition = .ok (declared, after)) :
    Effect model (.operation (.addVariable name definition)) after := by
  obtain ⟨_, hfree, h⟩ := Outcome.bind_eq_ok.mp h
  obtain ⟨_, hdefined, h⟩ := Outcome.bind_eq_ok.mp h
  cases h
  exact .addVariable hfree hdefined

theorem addVariablesWith_eq_ok {base : String} {definitions : List (IndexKey × Definition)}
    {collection : Collection} {after : Model}
    (h : model.addVariablesWith base definitions = .ok (collection, after)) :
    Effect model (.operation (.addVariables base definitions)) after := by
  rw [addVariablesWith] at h
  split at h
  · rename_i hvalid
    obtain ⟨_, hdefined, h⟩ := Outcome.bind_eq_ok.mp h
    cases h
    exact .addVariables hvalid hdefined
  · cases h

theorem post_eq_ok {given : List Postable} {redundant : Bool} {after : Model}
    (h : model.post given redundant = .ok after) :
    Effect model (.operation (.post given redundant)) after := by
  obtain ⟨_, haccepted, h⟩ := Outcome.bind_eq_ok.mp h
  cases h
  exact .post haccepted

theorem setCriteria_eq_ok {operation : Operation} {criteria : Criteria} {expr : Option Expr}
    {after : Model} (hasked : operation.criteria? = some (criteria, expr))
    (h : model.setCriteria criteria expr = .ok after) :
    Effect model (.operation operation) after := by
  obtain ⟨_, hfitting, h⟩ := Outcome.bind_eq_ok.mp h
  cases h
  exact .setCriteria hasked hfitting

/-- A strategy which is accepted is taken as it is. -/
theorem eq_of_validate_eq_ok {strategy accepted : RestartStrategy}
    (h : strategy.validate = .ok accepted) : accepted = strategy := by
  by_cases hscale : strategy.scale = 0
  · rw [RestartStrategy.validate.eq_def, if_pos hscale] at h
    cases h
  · rw [RestartStrategy.validate.eq_def, if_neg hscale] at h
    cases strategy with
    | geometric base scale =>
      by_cases hbase : RestartStrategy.one.less base = true
      · exact (Except.ok.inj ((if_pos hbase).symm.trans h)).symm
      · cases (if_neg hbase).symm.trans h
    | constant | linear | luby => exact (Except.ok.inj h).symm

theorem setRestart_eq_ok {strategy : RestartStrategy} {after : Model}
    (h : model.setRestart strategy = .ok after) :
    Effect model (.operation (.setRestart strategy)) after := by
  rw [setRestart] at h
  split at h
  · cases h
  · rename_i hsearching
    obtain ⟨accepted, haccepted, h⟩ := Outcome.bind_eq_ok.mp h
    cases h
    cases eq_of_validate_eq_ok haccepted
    exact .setRestart (by simpa [Option.isSome_iff_ne_none] using hsearching) haccepted

theorem generate_eq_ok {text : String} {after : Model} (step : Step)
    (h : model.generate = .ok (text, after)) : Effect model step after := by
  obtain ⟨_, hrendered, h⟩ := Outcome.bind_eq_ok.mp h
  cases h
  exact .textKept step hrendered

theorem currentText_eq_ok {text : String} {after : Model} (step : Step)
    (h : model.currentText = .ok (text, after)) : Effect model step after := by
  rw [currentText] at h
  split at h
  · cases h
    exact .unchanged step
  · exact generate_eq_ok step h

/-- An operation which settles an outcome has the effect that the outcome has if it
is a success. -/
theorem settle_effect {α : Type} {operation : Operation} {outcome : Except ModelError α}
    {finish : α → Answer × Model}
    (h : ∀ result, outcome = .ok result →
      Effect model (.operation operation) (finish result).2) :
    Effect model (.operation operation) (model.settle (outcome.map finish)).1 := by
  cases houtcome : outcome with
  | error error => exact .unchanged _
  | ok result => exact h result houtcome

theorem write_effect (model : Model) (path : String) (writable : Bool) :
    Effect model (.operation (.write path writable)) (model.write path writable).1 := by
  rw [write]
  split
  · exact .unchanged _
  · rename_i h
    exact currentText_eq_ok _ h

theorem perform_effect (model : Model) (operation : Operation) :
    Effect model (.operation operation) (model.perform operation).1 := by
  cases operation with
  | addConstant name value => exact settle_effect fun _ h => addConstant_eq_ok h
  | addVariable name definition => exact settle_effect fun _ h => addVariable_eq_ok h
  | addVariables base definitions => exact settle_effect fun _ h => addVariablesWith_eq_ok h
  | post given redundant => exact settle_effect fun _ h => post_eq_ok h
  | abandon given => exact .unchanged _
  | setCriteria criteria objective => exact settle_effect fun _ h => setCriteria_eq_ok rfl h
  | satisfy => exact .setCriteria rfl rfl
  | minimize objective => exact settle_effect fun _ h => setCriteria_eq_ok rfl h
  | maximize objective => exact settle_effect fun _ h => setCriteria_eq_ok rfl h
  | setSearch search => exact .setSearch search
  | setRestart strategy => exact settle_effect fun _ h => setRestart_eq_ok h
  | render => exact .unchanged _
  | generate => exact settle_effect fun _ h => generate_eq_ok _ h
  | generatedText => exact .unchanged _
  | currentText => exact settle_effect fun _ h => currentText_eq_ok _ h
  | write path writable => exact write_effect model path writable

theorem solve_effect (model : Model) (settings : SolverSettings) (modelFile : String)
    (launch : Launch) :
    Effect model (.solve settings modelFile launch)
      (settings.solve model modelFile launch).model := by
  rw [SolverSettings.solve]
  split
  · exact .unchanged _
  · rename_i text kept h
    have heffect : Effect model (.solve settings modelFile launch) kept := currentText_eq_ok _ h
    split
    · cases launch with
      | notFound => exact heffect
      | ended process => exact heffect
    · exact heffect

/-- Whatever a step is, it has one of the effects. -/
theorem advance_effect (model : Model) (step : Step) : Effect model step (model.advance step) := by
  cases step with
  | operation operation => exact perform_effect model operation
  | solve settings modelFile launch => exact solve_effect model settings modelFile launch

end Effects

/-- What holds of the empty model and is kept by every effect of an allowed step holds
of all models that are reachable by such steps. -/
theorem ReachableBy.invariant {Allowed : Model → Step → Prop} {Invariant : Model → Prop}
    (hempty : Invariant Model.empty)
    (hstep : ∀ before step after, Invariant before → Allowed before step →
      Effect before step after → Invariant after)
    {model : Model} (reached : ReachableBy Allowed model) : Invariant model := by
  induction reached with
  | empty => exact hempty
  | step reached step allowed ih => exact hstep _ _ _ ih allowed (advance_effect _ step)

end Model

end MiniZincModels
