import MiniZincModels.Proofs.Model.Atomicity
import MiniZincModels.Proofs.Model.Cache
import MiniZincModels.Proofs.Model.Checked
import MiniZincModels.Proofs.Model.Names

/-!
# What a program leaves in a model

A program is a sequence of steps, some of which are refused.  What the model holds in the
end is told by the operations that succeeded: its declarations and constraints are those
which they made, in their order, and each part of the solve item is the one that was set
last.
-/

namespace MiniZincModels

/-- The sorts of things that operations put into a model. -/
inductive Category
  | constants
  | vars
  | constraints
  | criteria
  | search
  | restart
deriving DecidableEq

/-- The variables for the keys of a collection, each under its own name. -/
def Variable.defineEach (base : String) (definitions : List (IndexKey × Definition)) :
    Except ModelError (List Variable) :=
  definitions.mapM fun entry => define (entry.1.variableName base) entry.2

namespace Operation

/-- What an operation declares, posts or sets, if it does any of these. -/
def category? : Operation → Option Category
  | addConstant _ _ => some .constants
  | addVariable _ _ | addVariables _ _ => some .vars
  | post _ _ => some .constraints
  | setCriteria _ _ | satisfy | minimize _ | maximize _ => some .criteria
  | setSearch _ => some .search
  | setRestart _ => some .restart
  | abandon _ | render | generate | generatedText | currentText | write _ _ => none

/-! What an operation puts into a model, if it succeeds, does not depend on the model. -/

@[simp]
def constants : Operation → List Constant
  | addConstant name value => (Constant.define name value).toOption.toList
  | _ => []

@[simp]
def vars : Operation → List Variable
  | addVariable name definition => (Variable.define name definition).toOption.toList
  | addVariables base definitions => (Variable.defineEach base definitions).toOption.getD []
  | _ => []

@[simp]
def constraints : Operation → List Constraint
  | post given redundant =>
    let items := (given.mapM Postable.toConstraint).toOption.getD []
    if redundant then items.map Constraint.markRedundant else items
  | _ => []

@[simp]
def objective? : Operation → Option Objective
  | setCriteria criteria objective => some ⟨criteria, objective⟩
  | satisfy => some ⟨.satisfy, none⟩
  | minimize objective => some ⟨.minimize, some objective⟩
  | maximize objective => some ⟨.maximize, some objective⟩
  | _ => none

@[simp]
def search? : Operation → Option Search
  | setSearch search => some search
  | _ => none

@[simp]
def restart? : Operation → Option RestartStrategy
  | setRestart strategy => some strategy
  | _ => none

end Operation

namespace Model

/-! ## One operation -/

/-- What an operation makes of a model: it adds to the declarations and constraints, and
replaces parts of the solve item. -/
structure Puts (operation : Operation) (before after : Model) : Prop where
  constants : after.constants = before.constants ++ operation.constants
  vars : after.vars = before.vars ++ operation.vars
  constraints : after.constraints = before.constraints ++ operation.constraints
  objective : after.objective = operation.objective?.or before.objective
  search : after.search = operation.search?.or before.search
  restart : after.restart = operation.restart?.or before.restart

section Operations

variable {model after : Model} {operation : Operation} {answer : Answer}

/-- What is settled with success was a success, whose answer and model are taken. -/
theorem settle_eq_ok {α : Type} {outcome : Except ModelError α} {finish : α → Answer × Model}
    (hok : (model.settle (outcome.map finish)).2 = .ok answer) :
    ∃ result, outcome = .ok result ∧ (finish result).1 = answer ∧
      (finish result).2 = (model.settle (outcome.map finish)).1 := by
  cases outcome with
  | error _ => cases hok
  | ok result => exact ⟨result, rfl, Except.ok.inj hok, rfl⟩

theorem settle_puts {α : Type} {outcome : Except ModelError α} {finish : α → Answer × Model}
    (hok : (model.settle (outcome.map finish)).2 = .ok answer)
    (h : ∀ result, outcome = .ok result → Puts operation model (finish result).2) :
    Puts operation model (model.settle (outcome.map finish)).1 := by
  obtain ⟨result, houtcome, -, hafter⟩ := settle_eq_ok hok
  rw [← hafter]
  exact h result houtcome

theorem puts_addConstant {name : String} {value : ConstantValue} {constant : Constant}
    (h : model.addConstant name value = .ok (constant, after)) :
    Puts (.addConstant name value) model after := by
  obtain ⟨_, -, h⟩ := Outcome.bind_eq_ok.mp h
  obtain ⟨_, hdefined, h⟩ := Outcome.bind_eq_ok.mp h
  cases h
  constructor <;> simp [hdefined, Except.toOption]

theorem puts_addVariable {name : String} {definition : Definition} {declared : Variable}
    (h : model.addVariable name definition = .ok (declared, after)) :
    Puts (.addVariable name definition) model after := by
  obtain ⟨_, -, h⟩ := Outcome.bind_eq_ok.mp h
  obtain ⟨_, hdefined, h⟩ := Outcome.bind_eq_ok.mp h
  cases h
  constructor <;> simp [hdefined, Except.toOption]

/-- The variables of a collection are added to it in the order of their keys. -/
theorem exists_defineEach_of_defineAll {base : String} {definitions : List (IndexKey × Definition)}
    {collection result : Collection} (hfresh : FreshNames model base collection)
    (h : model.defineAll base definitions collection = .ok result) :
    ∃ added, Variable.defineEach base definitions = .ok added ∧
      result.vars = collection.vars ++ added := by
  induction definitions generalizing collection with
  | nil =>
    cases h
    exact ⟨[], rfl, (List.append_nil _).symm⟩
  | cons first rest ih =>
    obtain ⟨key, definition⟩ := first
    obtain ⟨declared, hfirst, hrest⟩ := Outcome.bind_eq_ok.mp h
    obtain ⟨added, hadded, hvars⟩ := ih (hfresh.insert hfirst) hrest
    refine ⟨declared :: added, ?_, ?_⟩
    · rw [Variable.defineEach, List.mapM_cons]
      exact Outcome.bind_eq_ok.mpr ⟨declared, define_of_defineIndexed hfirst,
        Outcome.bind_eq_ok.mpr ⟨added, hadded, rfl⟩⟩
    · rw [hvars, hfresh.sound.vars_insert declared (hfresh.not_mem_keys hfirst), List.append_assoc]
      rfl

theorem puts_addVariables {base : String} {definitions : List (IndexKey × Definition)}
    {collection : Collection}
    (h : model.addVariablesWith base definitions = .ok (collection, after)) :
    Puts (.addVariables base definitions) model after := by
  rw [addVariablesWith] at h
  split at h
  · obtain ⟨_, hdefined, h⟩ := Outcome.bind_eq_ok.mp h
    cases h
    obtain ⟨added, hadded, hvars⟩ :=
      exists_defineEach_of_defineAll (freshNames_empty model base) hdefined
    rw [show Collection.empty.vars = [] from rfl, List.nil_append] at hvars
    constructor <;> simp [hadded, hvars, Except.toOption]
  · cases h

theorem puts_post {given : List Postable} {redundant : Bool}
    (h : model.post given redundant = .ok after) : Puts (.post given redundant) model after := by
  obtain ⟨_, haccepted, h⟩ := Outcome.bind_eq_ok.mp h
  cases h
  constructor <;> simp [haccepted, register, Except.toOption]

theorem puts_setCriteria {criteria : Criteria} {expr : Option Expr}
    (hasked : operation.criteria? = some (criteria, expr))
    (h : model.setCriteria criteria expr = .ok after) : Puts operation model after := by
  obtain ⟨_, -, h⟩ := Outcome.bind_eq_ok.mp h
  cases h
  cases operation <;> cases hasked
  all_goals constructor <;> simp

theorem puts_setRestart {strategy : RestartStrategy} (h : model.setRestart strategy = .ok after) :
    Puts (.setRestart strategy) model after := by
  rw [setRestart] at h
  split at h
  · cases h
  · obtain ⟨accepted, haccepted, h⟩ := Outcome.bind_eq_ok.mp h
    cases h
    cases eq_of_validate_eq_ok haccepted
    constructor <;> simp

/-- An operation that puts nothing into a model leaves all but the kept text. -/
theorem puts_of_keptText (hreading : operation.category? = none)
    (h : { after with generated := model.generated } = model) : Puts operation model after := by
  obtain ⟨_, _, _, _, _, _, _, _, _⟩ := model
  obtain ⟨_, _, _, _, _, _, _, _, _⟩ := after
  cases h
  cases operation <;> cases hreading
  all_goals constructor <;> simp

theorem puts_of_isReading (hreading : operation.IsReading) :
    Puts operation model (model.perform operation).1 := by
  apply puts_of_keptText
  · cases operation <;> first | rfl | cases hreading
  · apply withGenerated_of_effect (perform_effect model operation)
    rintro _ ⟨⟩
    exact hreading

theorem perform_puts (hok : (model.perform operation).2 = .ok answer) :
    Puts operation model (model.perform operation).1 := by
  cases operation with
  | addConstant name value => exact settle_puts hok fun _ h => puts_addConstant h
  | addVariable name definition => exact settle_puts hok fun _ h => puts_addVariable h
  | addVariables base definitions => exact settle_puts hok fun _ h => puts_addVariables h
  | post given redundant => exact settle_puts hok fun _ h => puts_post h
  | abandon given => exact puts_of_keptText rfl rfl
  | setCriteria criteria objective => exact settle_puts hok fun _ h => puts_setCriteria rfl h
  | satisfy =>
    have hset : model.setCriteria .satisfy none = .ok model.satisfy := rfl
    exact puts_setCriteria rfl hset
  | minimize objective => exact settle_puts hok fun _ h => puts_setCriteria rfl h
  | maximize objective => exact settle_puts hok fun _ h => puts_setCriteria rfl h
  | setSearch search => constructor <;> simp [perform, setSearch]
  | setRestart strategy => exact settle_puts hok fun _ h => puts_setRestart h
  | render | generate | generatedText | currentText | write => exact puts_of_isReading trivial

end Operations

/-! ## All operations -/

/-- The model after a program, whatever became of each step. -/
def after (model : Model) (steps : List Step) : Model :=
  steps.foldl advance model

/-- The operations of a program that succeed, in their order. -/
def succeeding (model : Model) : List Step → List Operation
  | [] => []
  | .operation operation :: rest =>
    let later := (model.perform operation).1.succeeding rest
    if (model.perform operation).2.isOk then operation :: later else later
  | .solve settings modelFile launch :: rest =>
    (settings.solve model modelFile launch).model.succeeding rest

/-- The model holds what the operations put into it, and nothing else. -/
structure Records (model : Model) (operations : List Operation) : Prop where
  constants : model.constants = operations.flatMap Operation.constants
  vars : model.vars = operations.flatMap Operation.vars
  constraints : model.constraints = operations.flatMap Operation.constraints
  objective : model.objective = (operations.filterMap Operation.objective?).getLast?
  search : model.search = (operations.filterMap Operation.search?).getLast?
  restart : model.restart = (operations.filterMap Operation.restart?).getLast?

section Programs

variable {model changed : Model} {operations : List Operation}

theorem records_empty : Records empty [] := by
  constructor <;> rfl

theorem getLast?_filterMap_concat {α β : Type} (part? : α → Option β) (values : List α)
    (last : α) :
    ((values ++ [last]).filterMap part?).getLast? =
      (part? last).or (values.filterMap part?).getLast? := by
  cases hlast : part? last with
  | none => simp [hlast]
  | some part => simp [hlast]

theorem Records.extend (h : model.Records operations) {operation : Operation}
    (hputs : Puts operation model changed) : changed.Records (operations ++ [operation]) where
  constants := by simp [hputs.constants, h.constants]
  vars := by simp [hputs.vars, h.vars]
  constraints := by simp [hputs.constraints, h.constraints]
  objective := by rw [hputs.objective, h.objective, getLast?_filterMap_concat]
  search := by rw [hputs.search, h.search, getLast?_filterMap_concat]
  restart := by rw [hputs.restart, h.restart, getLast?_filterMap_concat]

/-- Whether there is a kept text or not is not recorded. -/
theorem Records.of_withGenerated (h : model.Records operations)
    (hkept : { changed with generated := model.generated } = model) :
    changed.Records operations := by
  rw [← hkept] at h
  exact ⟨h.constants, h.vars, h.constraints, h.objective, h.search, h.restart⟩

theorem Records.perform_error (h : model.Records operations) {operation : Operation}
    {error : ModelError} (hrefused : (model.perform operation).2 = .error error) :
    (model.perform operation).1.Records operations := by
  apply h.of_withGenerated
  rcases Model.perform_error hrefused with hsame | ⟨_, _, -, -, -, -, hkept⟩
  · rw [hsame]
  · rw [hkept]

/-- A program adds what its successful operations put into the model. -/
theorem Records.after (h : model.Records operations) (steps : List Step) :
    (model.after steps).Records (operations ++ model.succeeding steps) := by
  induction steps generalizing model operations with
  | nil =>
    rw [succeeding, List.append_nil]
    exact h
  | cons step rest ih =>
    cases step with
    | operation operation =>
      change ((model.perform operation).1.after rest).Records _
      rw [succeeding]
      cases hanswer : (model.perform operation).2 with
      | ok answer =>
        have hlater := ih (h.extend (perform_puts hanswer))
        rwa [List.append_assoc] at hlater
      | error error => exact ih (h.perform_error hanswer)
    | solve settings modelFile launch =>
      apply ih (h.of_withGenerated _)
      apply withGenerated_of_effect (solve_effect model settings modelFile launch)
      rintro _ ⟨⟩

theorem records_after (steps : List Step) :
    (empty.after steps).Records (empty.succeeding steps) :=
  records_empty.after steps

theorem Reachable.after (reached : Reachable model) (steps : List Step) :
    Reachable (model.after steps) := by
  induction steps generalizing model with
  | nil => exact reached
  | cons step rest ih => exact ih (reached.step step trivial)

end Programs

end Model

end MiniZincModels
