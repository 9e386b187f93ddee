import MiniZincModels.Declaration.Constant
import MiniZincModels.Proofs.Expr.Checked

/-!
# Constants in expressions

A scalar constant stands for itself, and an element of an array constant needs one
index for each dimension.
-/

namespace MiniZincModels.Constant

variable {constant : Constant} {result : Expr}

theorem toExpr_eq_ok :
    constant.toExpr = .ok result ↔
      constant.dimensions = [] ∧ result = .identifier constant.name constant.kind := by
  rw [toExpr, Outcome.guard_eq_ok, List.isEmpty_iff]

theorem checkArity_eq_ok {count : Nat} {passed : Unit} :
    constant.checkArity count = .ok passed ↔ count = constant.dimensions.length ∧ passed = () := by
  rw [checkArity, Outcome.guard_eq_ok]

theorem checkIndexable_eq_ok {passed : Unit} :
    constant.checkIndexable = .ok passed ↔ constant.dimensions ≠ [] ∧ passed = () := by
  rw [checkIndexable, ← ite_not, Outcome.guard_eq_ok, List.isEmpty_iff]

/-- As many indices as extents have a rank, if none of them is out of bounds, and the first
that is out of bounds is reported. -/
theorem rank_eq {indices extents : List Nat} (hlength : indices.length = extents.length)
    (position : Nat) :
    match (indices.zip extents).find? fun pair => pair.2 ≤ pair.1 with
    | some (index, extent) => rank indices extents position = .error (.outOfBounds index extent)
    | none => ∃ reached, rank indices extents position = .ok reached := by
  induction indices generalizing extents position with
  | nil => exact ⟨position, rfl⟩
  | cons index indices ih =>
    cases extents with
    | nil => cases hlength
    | cons extent extents =>
      rw [List.zip_cons_cons, rank]
      by_cases hbound : index < extent
      · rw [List.find?_cons_of_neg (by simpa using hbound), if_pos hbound]
        exact ih (Nat.succ.inj hlength) _
      · rw [List.find?_cons_of_pos (by simpa using hbound), if_neg hbound]

/-- Indices that lead to an element are as many as the constant has dimensions. -/
theorem length_of_flatPosition {indices : List Nat} {position : Nat}
    (h : constant.flatPosition indices = .ok position) :
    indices.length = constant.dimensions.length := by
  rw [flatPosition, Outcome.check_bind_eq_ok fun _ => checkArity_eq_ok] at h
  exact h.1

theorem elementAt_eq_ok {indices : List Nat} :
    constant.elementAt indices = .ok result ↔
      (constant.dimensions ≠ [] ∧ ∃ position, constant.flatPosition indices = .ok position) ∧
        result = constant.access (indices.map fun index => .int (Int64.ofNat (index + 1))) := by
  rw [elementAt, Outcome.check_bind_eq_ok fun _ => checkIndexable_eq_ok, Outcome.bind_eq_ok,
    and_assoc]
  simp [Outcome.pure_eq_ok]

theorem symbolicIndex_eq_ok {index : Expr} :
    symbolicIndex index = .ok result ↔
      (index.kind = .int ∨ index.kind = .bool) ∧ result = .arithmetic .add index (.int 1) := by
  rw [symbolicIndex]
  by_cases hkind : index.kind = .int ∨ index.kind = .bool
  · have hone : Expr.FitsArithmetic .add (.int 1) := ⟨⟨rfl, rfl⟩, by decide⟩
    have hindex : Expr.FitsArithmetic .add index := by
      refine ⟨⟨?_, ?_⟩, by simp⟩
      · rcases hkind with hkind | hkind <;> rw [hkind] <;> rfl
      · apply Expr.isFiniteLiteral_of_kind
        rcases hkind with hkind | hkind <;> simp [hkind]
    rw [if_pos hkind, Expr.add, Expr.combine_eq_ok]
    simp [hkind, hone, hindex]
  · simp [hkind]

theorem indexBy_eq_ok {indices : List Expr} :
    constant.indexBy indices = .ok result ↔
      (constant.dimensions ≠ [] ∧ (∀ index ∈ indices, index.kind = .int ∨ index.kind = .bool) ∧
          indices.length = constant.dimensions.length) ∧
        result = constant.access (indices.map fun index => .arithmetic .add index (.int 1)) := by
  rw [indexBy, Outcome.check_bind_eq_ok fun _ => checkIndexable_eq_ok,
    Outcome.check_bind_eq_ok fun _ => Outcome.mapM_check_eq_ok fun _ _ => symbolicIndex_eq_ok,
    Outcome.check_bind_eq_ok fun _ => checkArity_eq_ok, Outcome.pure_eq_ok, List.length_map]
  tauto

end MiniZincModels.Constant
