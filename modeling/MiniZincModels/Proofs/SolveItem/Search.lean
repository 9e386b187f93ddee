import MiniZincModels.Proofs.Outcome
import MiniZincModels.SolveItem.Search

/-!
# Searches that are accepted

A branching is taken as it is, if its variables are there and of its kind, its choice
of values suits them, and a precision is positive.
-/

namespace MiniZincModels

theorem Search.texts_eq_map (searches : List Search) : texts searches = searches.map text := by
  induction searches with
  | nil => rfl
  | cons first rest ih => rw [texts, ih, List.map_cons]

namespace Branching

variable {sort : SearchKind} {vars : List Variable} {variableChoice : VariableChoice}
  {valueChoice : ValueChoice} {single : Branching}

theorem create_eq_ok :
    create sort vars variableChoice valueChoice = .ok single ↔
      (checkPrecision sort = .ok () ∧ vars ≠ [] ∧ (∀ declared ∈ vars, declared.kind = sort.kind) ∧
          valueChoice.suits sort.kind = true) ∧
        single = ⟨sort, vars, variableChoice, valueChoice⟩ := by
  have hprecision : ∀ passed, checkPrecision sort = .ok passed ↔
      checkPrecision sort = .ok () ∧ passed = () := by simp
  rw [create, Outcome.check_bind_eq_ok hprecision, and_assoc]
  by_cases hempty : vars = []
  · simp [hempty]
  · cases hfind : vars.find? fun declared => declared.kind ≠ sort.kind with
    | some declared =>
      have hwrong : declared.kind ≠ sort.kind := by simpa using List.find?_some hfind
      have hmem := List.mem_of_find?_eq_some hfind
      have hkinds : ¬ ∀ declared ∈ vars, declared.kind = sort.kind :=
        fun hkinds => hwrong (hkinds declared hmem)
      simp [hempty, hkinds]
    | none =>
      have hkinds : ∀ declared ∈ vars, declared.kind = sort.kind := by
        simpa using List.find?_eq_none.mp hfind
      simp only [List.isEmpty_iff, hempty, if_false, Outcome.guard_eq_ok]
      tauto

end Branching

end MiniZincModels
