import MiniZincModels.Proofs.Model.History
import MiniZincModels.Proofs.Model.Items

/-!
# The solve item

The parts of the solve item are set one by one and in any order.  A restart strategy is only
written behind a search, and an objective whatever the criteria are, so the text is right only
because no reachable model has a strategy without a search, or an objective that does not go
with its criteria.
-/

namespace MiniZincModels

/-- The parts of which a solve item is made. -/
inductive SolvePart
  | search (directive : Search)
  | restart (strategy : RestartStrategy)
  | criteria (asked : Criteria)
  | objective (expr : Expr)

namespace SolvePart

/-- The search and the restart strategy are annotations. -/
def text : SolvePart → String
  | .search directive => ":: " ++ directive.text
  | .restart strategy => ":: " ++ strategy.text
  | .criteria asked => asked.text
  | .objective expr => expr.text

/-- Parts behind a word, from which and from one another they are set apart by blanks. -/
def textBehind (word : String) (parts : List SolvePart) : String :=
  word ++ String.join (parts.map fun part => " " ++ part.text)

end SolvePart

theorem RestartStrategy.scale_pos_of_validate {strategy accepted : RestartStrategy}
    (h : strategy.validate = .ok accepted) : 0 < strategy.scale := by
  apply Nat.pos_of_ne_zero
  intro hscale
  rw [validate.eq_def, if_pos hscale] at h
  cases h

namespace Model

variable {model after : Model} {step : Step}

/-! ## What goes together -/

/-- An objective that goes with its criteria is there just for minimizing and maximizing. -/
theorem isSome_iff_of_checkObjective {criteria : Criteria} {expr : Option Expr}
    (h : checkObjective criteria expr = .ok ()) :
    expr.isSome = true ↔ criteria = .minimize ∨ criteria = .maximize := by
  cases expr with
  | none => simp [checkObjective_none.mp h]
  | some objective =>
    have hcriteria := (checkObjective_some.mp h).1
    cases criteria <;> simp_all

/-- A restart strategy stands behind a search. -/
def RestartsSearch (model : Model) : Prop :=
  model.restart.isSome = true → model.search.isSome = true

theorem RestartsSearch.effect (h : model.RestartsSearch) (heffect : Effect model step after) :
    after.RestartsSearch := by
  cases heffect with
  | setSearch => exact fun _ => rfl
  | setRestart searching => exact fun _ => searching
  | unchanged | textKept | addConstant | addVariable | addVariables | post | setCriteria => exact h

theorem Reachable.restartsSearch (reached : Reachable model) : model.RestartsSearch :=
  reached.invariant nofun fun _ _ _ h _ heffect => h.effect heffect

/-! ## The text -/

/-- All parts that are set, in the order of the text. -/
def solveParts (model : Model) (objective : Objective) : List SolvePart :=
  model.search.toList.map .search ++ model.restart.toList.map .restart
    ++ .criteria objective.criteria :: objective.expr.toList.map .objective

/-- The solve item is made of all parts, if a strategy stands behind a search. -/
theorem RestartsSearch.solveItem_eq (h : model.RestartsSearch) (objective : Objective) :
    model.solveItem objective =
      SolvePart.textBehind "solve" (model.solveParts objective) ++ ";" := by
  have hannotation : ∀ text, " :: " ++ text = " " ++ (":: " ++ text) := by
    intro text
    rw [← String.append_assoc]
    rfl
  rw [RestartsSearch] at h
  rw [solveItem, directivesText, objectiveText, solveParts, SolvePart.textBehind]
  cases hsearch : model.search with
  | none =>
    cases hrestart : model.restart with
    | none => cases objective.expr <;> simp [SolvePart.text, ← String.append_assoc]
    | some strategy =>
      rw [hrestart, hsearch] at h
      cases h rfl
  | some search =>
    cases model.restart <;> cases objective.expr <;>
      simp [SolvePart.text, hannotation, String.append_assoc]

/-- The solve item is the last line, and no other line is one. -/
theorem render_eq_solveItem_last {objective : Objective}
    (hobjective : model.objective = some objective) :
    ∃ front, model.render = .ok (joinLines (front ++ [model.solveItem objective])) ∧
      ∀ line ∈ front, ¬ "solve".toList <+: line.toList := by
  refine ⟨model.requiredIncludes.map includeItem ++ model.innerItems, ?_,
    fun line hline => not_solve_prefix hline⟩
  rw [render, hobjective]
  simp only
  rw [items_eq]

/-- A strategy that was set is there for good, or another one in its place. -/
theorem Records.exists_restart {operations : List Operation} (h : model.Records operations)
    {strategy : RestartStrategy} (hmem : .setRestart strategy ∈ operations) :
    ∃ latest, model.restart = some latest := by
  have hset : strategy ∈ operations.filterMap Operation.restart? :=
    List.mem_filterMap.mpr ⟨_, hmem, rfl⟩
  rw [h.restart]
  exact ⟨_, List.getLast?_eq_some_getLast (List.ne_nil_of_mem hset)⟩

end Model

end MiniZincModels
