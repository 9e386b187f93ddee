import MiniZincModels.Proofs.Binary64.Finite
import MiniZincModels.Proofs.Expr.Checked
import MiniZincModels.Proofs.Model.Reachable

/-!
# What a model has checked

A model takes up constants and variables that were defined, an objective that goes with
its criteria, and a restart strategy that was accepted.  So the checks of all of these
have been passed in every reachable model, and the floats they look at are finite.
-/

namespace MiniZincModels

/-! ## Definitions -/

namespace Constant

theorem isFinite_widen {element : Scalar} (h : element.isFinite = true) :
    element.widen.isFinite = true := by
  cases element with
  | int value => exact Binary64.isFinite_ofInt64 value
  | float value | bool value => exact h

/-- Making scalars one kind keeps them finite. -/
theorem isFinite_of_unify? {elements results : List Scalar} {kind : Kind}
    (hunified : unify? elements = some (kind, results))
    (hfinite : ∀ element ∈ elements, element.isFinite = true) :
    ∀ element ∈ results, element.isFinite = true := by
  rw [unify?] at hunified
  split at hunified
  · cases hunified
    exact hfinite
  · split at hunified
    · cases hunified
      exact hfinite
    · split at hunified
      · cases hunified
        rw [List.forall_mem_map]
        exact fun element hmem => isFinite_widen (hfinite element hmem)
      · cases hunified

theorem isFinite_of_define {name : String} {value : ConstantValue} {constant : Constant}
    (h : define name value = .ok constant) :
    ∀ element ∈ constant.elements, element.isFinite = true := by
  rw [define] at h
  split at h
  · cases h
  · split at h
    · cases h
    · split at h
      · rename_i hfinite
        split at h
        · cases h
        · rename_i hunified
          cases h
          exact isFinite_of_unify? hunified (List.all_eq_true.mp hfinite)
      · cases h

end Constant

namespace Definition

variable {definition : Definition} {lower upper : Binary64}

theorem isFinite_of_resolveFloat (h : definition.resolveFloat = .ok (.float lower upper)) :
    lower.isFinite = true ∧ upper.isFinite = true := by
  rw [resolveFloat] at h
  split at h
  · cases h
  · cases h
  · dsimp only at h
    split at h
    · cases h
    · rename_i hfinite
      split at h
      · cases h
      · cases h
        simpa using hfinite

theorem isFinite_of_resolve (h : definition.resolve = .ok (.float lower upper)) :
    lower.isFinite = true ∧ upper.isFinite = true := by
  rw [resolve] at h
  split at h
  · cases hint : definition.resolveInt <;> rw [hint] at h <;> cases h
  · cases hint : definition.resolveInt <;> rw [hint] at h <;> cases h
  · exact isFinite_of_resolveFloat h
  · rw [resolveBool] at h
    split at h
    · cases h
    · split at h <;> cases h

end Definition

theorem Variable.isFinite_of_define {name : String} {definition : Definition} {declared : Variable}
    (h : define name definition = .ok declared) {lower upper : Binary64}
    (hdomain : declared.domain = .float lower upper) :
    lower.isFinite = true ∧ upper.isFinite = true := by
  rw [define] at h
  split at h
  · rename_i domain hresolved
    cases h
    exact Definition.isFinite_of_resolve (hresolved.trans (congrArg Except.ok hdomain))
  · cases h

namespace Collection

theorem mem_vars_insert {collection : Collection} {key : IndexKey} {added declared : Variable}
    (hmem : declared ∈ (collection.insert key added).vars) :
    declared = added ∨ declared ∈ collection.vars := by
  obtain ⟨entry, hentry, rfl⟩ := List.mem_map.mp hmem
  rw [insert] at hentry
  split at hentry
  · rename_i place _
    obtain ⟨index, hindex⟩ := List.mem_iff_getElem?.mp hentry
    rw [List.getElem?_modify] at hindex
    obtain ⟨stored, hstored, hchanged⟩ := Option.map_eq_some_iff.mp hindex
    split at hchanged
    · exact .inl (hchanged ▸ rfl)
    · exact .inr (hchanged ▸ List.mem_map_of_mem (List.mem_of_getElem? hstored))
  · rcases List.mem_append.mp hentry with hentry | hentry
    · exact .inr (List.mem_map_of_mem hentry)
    · exact .inl (List.mem_singleton.mp hentry ▸ rfl)

end Collection

namespace Model

variable {model after : Model} {step : Step}

/-! ## The objective -/

theorem checkObjective_none {criteria : Criteria} :
    checkObjective criteria none = .ok () ↔ criteria = .satisfy := by
  cases criteria <;> simp [checkObjective]

/-- An objective is accepted if there is something to optimise, and it is a number. -/
theorem checkObjective_some {criteria : Criteria} {objective : Expr} :
    checkObjective criteria (some objective) = .ok () ↔
      criteria ≠ .satisfy ∧ objective.IsScalar := by
  rw [Expr.IsScalar]
  cases criteria with
  | satisfy => simp [checkObjective]
  | minimize | maximize =>
    cases hscalar : objective.kind.isScalar <;> cases hfinite : objective.isFiniteLiteral <;>
      simp [checkObjective, hscalar, hfinite]

/-! ## The model -/

/-- What a model declares was defined, and what it is asked for was accepted. -/
structure PassesChecks (model : Model) : Prop where
  constants : ∀ constant ∈ model.constants,
    ∃ name value, Constant.define name value = .ok constant
  vars : ∀ declared ∈ model.vars, ∃ name definition, Variable.define name definition = .ok declared
  objective : ∀ objective ∈ model.objective,
    checkObjective objective.criteria objective.expr = .ok ()
  restart : ∀ strategy ∈ model.restart, strategy.validate = .ok strategy

theorem define_of_defineIndexed {base : String} {taken : List String} {key : IndexKey}
    {definition : Definition} {declared : Variable}
    (h : model.defineIndexed base taken key definition = .ok declared) :
    Variable.define (key.variableName base) definition = .ok declared := by
  obtain ⟨_, -, h⟩ := Outcome.bind_eq_ok.mp h
  rw [← ite_not] at h
  split at h
  · exact h
  · cases h

theorem exists_define_of_defineAll {base : String} {definitions : List (IndexKey × Definition)}
    {collection result : Collection}
    (hcollection : ∀ declared ∈ collection.vars,
      ∃ name definition, Variable.define name definition = .ok declared)
    (h : model.defineAll base definitions collection = .ok result) :
    ∀ declared ∈ result.vars,
      ∃ name definition, Variable.define name definition = .ok declared := by
  induction definitions generalizing collection with
  | nil =>
    cases h
    exact hcollection
  | cons first rest ih =>
    obtain ⟨added, hadded, h⟩ := Outcome.bind_eq_ok.mp h
    refine ih ?_ h
    intro declared hmem
    rcases Collection.mem_vars_insert hmem with rfl | hmem
    · exact ⟨_, _, define_of_defineIndexed hadded⟩
    · exact hcollection declared hmem

theorem passesChecks_empty : PassesChecks empty := by
  constructor <;> simp [empty]

theorem PassesChecks.effect (h : model.PassesChecks) (heffect : Effect model step after) :
    after.PassesChecks := by
  cases heffect with
  | unchanged | textKept | post | setSearch =>
    exact ⟨h.constants, h.vars, h.objective, h.restart⟩
  | addConstant free defined =>
    refine ⟨?_, h.vars, h.objective, h.restart⟩
    rw [List.forall_mem_append, List.forall_mem_singleton]
    exact ⟨h.constants, _, _, defined⟩
  | addVariable free defined =>
    refine ⟨h.constants, ?_, h.objective, h.restart⟩
    rw [List.forall_mem_append, List.forall_mem_singleton]
    exact ⟨h.vars, _, _, defined⟩
  | addVariables valid defined =>
    refine ⟨h.constants, ?_, h.objective, h.restart⟩
    rw [List.forall_mem_append]
    exact ⟨h.vars, exists_define_of_defineAll (List.forall_mem_nil _) defined⟩
  | setCriteria asked fitting =>
    refine ⟨h.constants, h.vars, ?_, h.restart⟩
    rintro objective ⟨⟩
    exact fitting
  | setRestart searching accepted =>
    refine ⟨h.constants, h.vars, h.objective, ?_⟩
    rintro strategy ⟨⟩
    exact accepted

theorem Reachable.passesChecks (reached : Reachable model) : model.PassesChecks :=
  reached.invariant passesChecks_empty fun _ _ _ h _ heffect => h.effect heffect

end Model

end MiniZincModels
