import Mathlib.Algebra.BigOperators.Group.List.Lemmas
import Mathlib.Algebra.BigOperators.Ring.List
import Mathlib.Data.List.Forall2
import Mathlib.Tactic.Ring
import MiniZincModels.Declaration.Constant

/-!
# Shapes of nested arrays

A nested array has a shape if all its rows have, and then its scalars stand in
row-major order, as many as the product of the extents.  The place of a scalar in
this order is the rank of the indices that lead to it.
-/

namespace MiniZincModels

namespace ConstantValue

/-- The value is a full rectangular array with these extents, the outermost one first; a
scalar has none. -/
inductive HasShape : ConstantValue → List Nat → Prop
  | scalar (leaf : Scalar) : HasShape (.scalar leaf) []
  | array {values : List ConstantValue} {extents : List Nat}
      (hvalues : ∀ value ∈ values, HasShape value extents) :
      HasShape (.array values) (values.length :: extents)

mutual

/-- The scalars of a value in the order in which they are written. -/
def leaves : ConstantValue → List Scalar
  | scalar leaf => [leaf]
  | array values => allLeaves values

def allLeaves : List ConstantValue → List Scalar
  | [] => []
  | first :: rest => first.leaves ++ allLeaves rest

end

theorem allLeaves_eq_flatMap (values : List ConstantValue) :
    allLeaves values = values.flatMap leaves := by
  induction values with
  | nil => rfl
  | cons first rest ih => rw [allLeaves, ih, List.flatMap_cons]

/-- The scalar to which the indices lead, if they lead to one. -/
def leafAt? (value : ConstantValue) (indices : List Nat) : Option Scalar :=
  match value.follow? indices with
  | some (scalar leaf) => some leaf
  | _ => none

section Steps

variable (values : List ConstantValue) (index : Nat) (indices : List Nat)

@[simp]
theorem leafAt?_array_cons :
    (array values).leafAt? (index :: indices) =
      values[index]?.bind fun inner => inner.leafAt? indices := by
  rw [leafAt?, follow?]
  cases values[index]? with
  | none => rfl
  | some inner => rfl

@[simp]
theorem leafAt?_array_nil : (array values).leafAt? [] = none := rfl

@[simp]
theorem leafAt?_scalar_nil (leaf : Scalar) : (scalar leaf).leafAt? [] = some leaf := rfl

@[simp]
theorem leafAt?_scalar_cons (leaf : Scalar) :
    (scalar leaf).leafAt? (index :: indices) = none := rfl

end Steps

/-! ## Values with a shape -/

section Shape

variable {value : ConstantValue} {values : List ConstantValue} {extents : List Nat}

theorem hasShape_scalar {leaf : Scalar} : (scalar leaf).HasShape extents ↔ extents = [] := by
  constructor
  · rintro ⟨⟩
    rfl
  · rintro rfl
    exact .scalar leaf

theorem hasShape_array :
    (array values).HasShape extents ↔
      ∃ inner, extents = values.length :: inner ∧ ∀ value ∈ values, value.HasShape inner := by
  constructor
  · rintro ⟨⟩
    exact ⟨_, rfl, ‹_›⟩
  · rintro ⟨inner, rfl, hvalues⟩
    exact .array hvalues

/-- Where no extent is zero, the first elements show the shape. -/
theorem HasShape.dimensions_eq (hshape : value.HasShape extents) (hextents : 0 ∉ extents) :
    value.dimensions = extents := by
  induction hshape with
  | scalar leaf => rfl
  | @array values extents _ ih =>
    rw [List.mem_cons, not_or] at hextents
    rw [dimensions]
    cases values with
    | nil => exact absurd rfl hextents.1
    | cons first rest => rw [firstDimensions, ih first List.mem_cons_self hextents.2]

theorem HasShape.length_leaves (hshape : value.HasShape extents) :
    value.leaves.length = extents.prod := by
  induction hshape with
  | scalar leaf => rfl
  | @array values extents _ ih =>
    have hlengths : values.map (fun value => value.leaves.length) =
        List.replicate values.length extents.prod := by
      rw [List.map_congr_left ih, List.map_const']
    rw [leaves, allLeaves_eq_flatMap, List.length_flatMap, hlengths,
      List.sum_replicate_nat, List.prod_cons]

end Shape

mutual

/-- The scalars are listed just for values of the given shape, and in the order of writing. -/
theorem flatten?_eq_some : (value : ConstantValue) → ∀ {extents : List Nat} {scalars : List Scalar},
    value.flatten? extents = some scalars ↔ value.HasShape extents ∧ scalars = value.leaves
  | scalar leaf, [], scalars => by
    rw [flatten?, hasShape_scalar, leaves, Option.some.injEq, eq_comm]
    simp
  | scalar leaf, extent :: extents, scalars => by
    rw [flatten?, hasShape_scalar]
    simp
  | array values, [], scalars => by
    rw [flatten?, hasShape_array]
    simp
  | array values, extent :: extents, scalars => by
    rw [flatten?, hasShape_array, leaves]
    by_cases hextent : values.length = extent
    · subst hextent
      rw [if_pos rfl, flattenAll?_eq_some values]
      simp
    · rw [if_neg hextent]
      simp [Ne.symm hextent]

theorem flattenAll?_eq_some : (values : List ConstantValue) →
    ∀ {extents : List Nat} {scalars : List Scalar},
    flattenAll? values extents = some scalars ↔
      (∀ value ∈ values, value.HasShape extents) ∧ scalars = allLeaves values
  | [], extents, scalars => by
    simp [flattenAll?, allLeaves, eq_comm]
  | first :: rest, extents, scalars => by
    have hfirst := @flatten?_eq_some first extents
    have hrest := @flattenAll?_eq_some rest extents
    rw [flattenAll?, List.forall_mem_cons, allLeaves]
    split
    · rename_i found others hfound hothers
      obtain ⟨hshape, rfl⟩ := hfirst.mp hfound
      obtain ⟨hshapes, rfl⟩ := hrest.mp hothers
      rw [Option.some.injEq, eq_comm]
      exact ⟨fun heq => ⟨⟨hshape, hshapes⟩, heq⟩, And.right⟩
    · rename_i hnone
      constructor
      · rintro ⟨⟩
      · rintro ⟨⟨hshape, hshapes⟩, -⟩
        exact absurd (hrest.mpr ⟨hshapes, rfl⟩) (hnone _ _ (hfirst.mpr ⟨hshape, rfl⟩))

end

end ConstantValue

/-! ## Places in row-major order -/

/-- As many indices as extents, and each of them less than its extent. -/
def InBounds (indices extents : List Nat) : Prop :=
  List.Forall₂ (fun index extent => index < extent) indices extents

/-- How many elements of a full array stand in front of the one at these indices. -/
def rowMajorPlace : List Nat → List Nat → Nat
  | index :: indices, _ :: extents => index * extents.prod + rowMajorPlace indices extents
  | _, _ => 0

section Places

variable {indices extents : List Nat}

theorem inBounds_nil : InBounds [] [] :=
  .nil

theorem inBounds_cons {index extent : Nat} :
    InBounds (index :: indices) (extent :: extents) ↔ index < extent ∧ InBounds indices extents :=
  List.forall₂_cons

theorem InBounds.length_eq (h : InBounds indices extents) : indices.length = extents.length :=
  List.Forall₂.length_eq h

theorem InBounds.exists_extent (h : InBounds indices extents) {index : Nat}
    (hmem : index ∈ indices) : ∃ extent ∈ extents, index < extent := by
  induction h with
  | nil => cases hmem
  | cons hindex _ ih =>
    rcases List.mem_cons.mp hmem with rfl | hmem
    · exact ⟨_, List.mem_cons_self, hindex⟩
    · obtain ⟨extent, hextent, hlt⟩ := ih hmem
      exact ⟨extent, List.mem_cons_of_mem _ hextent, hlt⟩

theorem InBounds.place_lt (h : InBounds indices extents) :
    rowMajorPlace indices extents < extents.prod := by
  induction h with
  | nil => exact Nat.one_pos
  | @cons index extent indices extents hindex _ ih =>
    rw [rowMajorPlace, List.prod_cons]
    calc index * extents.prod + rowMajorPlace indices extents
        < index * extents.prod + extents.prod := Nat.add_lt_add_left ih _
      _ = (index + 1) * extents.prod := (Nat.succ_mul _ _).symm
      _ ≤ extent * extents.prod := Nat.mul_le_mul_right _ hindex

/-- In rows of one length, an element is found behind the rows in front of its own. -/
theorem getElem?_flatMap_of_length {α β : Type} {row : α → List β} {length : Nat}
    (values : List α) (hlength : ∀ value ∈ values, (row value).length = length)
    (index : Nat) {offset : Nat} (hoffset : offset < length) :
    (values.flatMap row)[index * length + offset]? =
      values[index]?.bind fun value => (row value)[offset]? := by
  induction values generalizing index with
  | nil => rfl
  | cons first rest ih =>
    rw [List.forall_mem_cons] at hlength
    rw [List.flatMap_cons]
    cases index with
    | zero =>
      rw [Nat.zero_mul, Nat.zero_add, List.getElem?_append_left (by omega)]
      rfl
    | succ index =>
      have hrest : (index + 1) * length + offset - (row first).length =
          index * length + offset := by
        rw [Nat.succ_mul, hlength.1]
        omega
      rw [List.getElem?_append_right (by rw [Nat.succ_mul]; omega), hrest, ih hlength.2 index]
      rfl

/-- A scalar of a full array stands at the place of the indices that lead to it. -/
theorem ConstantValue.HasShape.getElem?_leaves {value : ConstantValue}
    (hshape : value.HasShape extents) (hindices : InBounds indices extents) :
    value.leaves[rowMajorPlace indices extents]? = value.leafAt? indices := by
  induction hshape generalizing indices with
  | scalar leaf =>
    cases hindices
    rfl
  | @array values extents hvalues ih =>
    cases hindices with
    | @cons index _ indices _ hindex hrest =>
      have hlength : ∀ value ∈ values, value.leaves.length = extents.prod :=
        fun value hmem => (hvalues value hmem).length_leaves
      rw [leaves, allLeaves_eq_flatMap, rowMajorPlace,
        getElem?_flatMap_of_length values hlength index (InBounds.place_lt hrest),
        leafAt?_array_cons, List.getElem?_eq_getElem hindex]
      exact ih values[index] (List.getElem_mem hindex) hrest

/-- Indices lead to a scalar of a full array just if they are in bounds. -/
theorem ConstantValue.HasShape.isSome_leafAt? {value : ConstantValue}
    (hshape : value.HasShape extents) :
    (value.leafAt? indices).isSome = true ↔ InBounds indices extents := by
  induction hshape generalizing indices with
  | scalar leaf =>
    cases indices with
    | nil => simp [inBounds_nil]
    | cons index indices => simp [InBounds]
  | @array values extents hvalues ih =>
    cases indices with
    | nil => simp [InBounds]
    | cons index indices =>
      rw [leafAt?_array_cons, inBounds_cons]
      by_cases hindex : index < values.length
      · rw [List.getElem?_eq_getElem hindex, Option.bind_some,
          ih values[index] (List.getElem_mem hindex)]
        simp [hindex]
      · rw [List.getElem?_eq_none (Nat.le_of_not_lt hindex)]
        simp [hindex]

/-- Counting inwards from the outermost index gives the place of the element. -/
theorem Constant.rank_of_inBounds (h : InBounds indices extents) (position : Nat) :
    rank indices extents position =
      .ok (position * extents.prod + rowMajorPlace indices extents) := by
  induction h generalizing position with
  | nil => simp [rank, rowMajorPlace]
  | @cons index extent indices extents hindex _ ih =>
    rw [rank, if_pos hindex, ih, rowMajorPlace, List.prod_cons]
    congr 1
    ring

/-- Indices of the right number which have a rank are in bounds. -/
theorem Constant.inBounds_of_rank {position reached : Nat}
    (hlength : indices.length = extents.length) (h : rank indices extents position = .ok reached) :
    InBounds indices extents := by
  induction indices generalizing extents position with
  | nil =>
    cases extents with
    | nil => exact inBounds_nil
    | cons extent extents => cases hlength
  | cons index indices ih =>
    cases extents with
    | nil => cases hlength
    | cons extent extents =>
      rw [rank] at h
      split at h
      · rename_i hindex
        exact inBounds_cons.mpr ⟨hindex, ih (Nat.succ.inj hlength) h⟩
      · cases h

/-- No extent is larger than the number of elements. -/
theorem extent_le_prod (hextents : 0 ∉ extents) {extent : Nat} (hmem : extent ∈ extents) :
    extent ≤ extents.prod :=
  Nat.le_of_dvd (Nat.pos_of_ne_zero (List.prod_ne_zero hextents)) (List.dvd_prod hmem)

/-- Whatever is counted on the way stays below the number of elements. -/
theorem Constant.rank_lt {position reached : Nat} (hextents : 0 ∉ extents)
    (h : rank indices extents position = .ok reached) :
    reached < (position + 1) * extents.prod := by
  induction extents generalizing indices position with
  | nil =>
    obtain rfl : position = reached := by cases indices <;> simpa [rank] using h
    simp
  | cons extent extents ih =>
    have hpositive : 0 < (extent :: extents).prod :=
      Nat.pos_of_ne_zero (List.prod_ne_zero hextents)
    cases indices with
    | nil =>
      obtain rfl : position = reached := by simpa [rank] using h
      calc position < position + 1 := Nat.lt_succ_self position
        _ ≤ (position + 1) * (extent :: extents).prod := Nat.le_mul_of_pos_right _ hpositive
    | cons index indices =>
      rw [List.mem_cons, not_or] at hextents
      rw [rank] at h
      split at h
      · rename_i hindex
        calc reached < (position * extent + index + 1) * extents.prod := ih hextents.2 h
          _ ≤ (position * extent + extent) * extents.prod :=
              Nat.mul_le_mul_right _ (Nat.add_le_add_left hindex _)
          _ = (position + 1) * (extent :: extents).prod := by rw [List.prod_cons]; ring
      · cases h

end Places

end MiniZincModels
