import MiniZincModels.Proofs.Declaration.Constant
import MiniZincModels.Proofs.Declaration.Shape
import MiniZincModels.Proofs.Text.Numeral

/-!
# Constants store what they were given

A value is accepted if it is a full array of finite scalars of one kind, where integers
and floats count as one.  The constant then has the scalars of the value at the same
indices, from zero in the host and from one in the text, and its lookup leaves the
stored elements at no time.  Here stands what is stored, what a lookup gives, and in which
order the elements are declared.
-/

namespace MiniZincModels

/-! ## Kinds of scalars -/

namespace Scalar

/-- Whether integers stand next to floats. -/
def AreMixed (leaves : List Scalar) : Prop :=
  (∃ leaf ∈ leaves, leaf.kind = .int) ∧ ∃ leaf ∈ leaves, leaf.kind = .float

instance (leaves : List Scalar) : Decidable (AreMixed leaves) :=
  inferInstanceAs (Decidable (_ ∧ _))

/-- Scalars that can stand in one array. -/
def AreCompatible (leaves : List Scalar) : Prop :=
  (∃ kind, ∀ leaf ∈ leaves, leaf.kind = kind) ∨
    ∀ leaf ∈ leaves, leaf.kind = .int ∨ leaf.kind = .float

variable {leaves : List Scalar}

theorem kind_ne_bool_iff {leaf : Scalar} :
    leaf.kind ≠ .bool ↔ leaf.kind = .int ∨ leaf.kind = .float := by
  cases leaf <;> simp [kind]

theorem widen_of_kind {leaf : Scalar} (hkind : leaf.kind ≠ .int) : leaf.widen = leaf := by
  cases leaf with
  | int value => exact absurd rfl hkind
  | float value | bool value => rfl

theorem kind_widen {leaf : Scalar} (hkind : leaf.kind ≠ .bool) : leaf.widen.kind = .float := by
  cases leaf with
  | int value | float value => rfl
  | bool value => exact absurd rfl hkind

theorem not_areMixed {kind : Kind} (hkinds : ∀ leaf ∈ leaves, leaf.kind = kind) :
    ¬ AreMixed leaves := by
  rintro ⟨⟨first, hfirst, hint⟩, second, hsecond, hfloat⟩
  rw [hkinds first hfirst] at hint
  rw [hkinds second hsecond, hint] at hfloat
  cases hfloat

end Scalar

/-- A scalar of a value as it is stored: an integer next to floats becomes a float. -/
def ConstantValue.stored (value : ConstantValue) (leaf : Scalar) : Scalar :=
  if Scalar.AreMixed value.leaves then leaf.widen else leaf

/-- A full array, or a scalar, without an extent of zero, whose scalars are finite and of
kinds that go together. -/
structure ConstantValue.IsAcceptable (value : ConstantValue) : Prop where
  shape : ∃ extents, value.HasShape extents ∧ ∀ extent ∈ extents, 1 ≤ extent
  finite : ∀ leaf ∈ value.leaves, leaf.isFinite = true
  kinds : Scalar.AreCompatible value.leaves

namespace Constant

variable {name : String} {value : ConstantValue} {constant : Constant} {indices : List Nat}

section Kinds

variable {leaves elements : List Scalar} {kind : Kind}

/-- Scalars are widened just where integers stand next to floats. -/
theorem elements_of_unify? (hunified : unify? leaves = some (kind, elements)) :
    elements = leaves.map fun leaf => if Scalar.AreMixed leaves then leaf.widen else leaf := by
  simp only [unify?, List.all_eq_true, decide_eq_true_eq] at hunified
  split at hunified
  · rename_i hint
    cases hunified
    simp [Scalar.not_areMixed hint]
  · rename_i hint
    split at hunified
    · rename_i hbool
      cases hunified
      simp [Scalar.not_areMixed hbool]
    · split at hunified
      · rename_i hnumbers
        cases hunified
        apply List.map_congr_left
        intro leaf hmem
        by_cases hmixed : Scalar.AreMixed leaves
        · rw [if_pos hmixed]
        · -- Not all are integers, so there is a float, and no integer stands next to it.
          rw [if_neg hmixed]
          apply Scalar.widen_of_kind
          intro hleaf
          apply hint
          intro other hother
          refine (Scalar.kind_ne_bool_iff.mp (hnumbers other hother)).resolve_right ?_
          exact fun hfloat => hmixed ⟨⟨leaf, hmem, hleaf⟩, other, hother, hfloat⟩
      · cases hunified

theorem exists_unify?_iff :
    (∃ kind elements, unify? leaves = some (kind, elements)) ↔ Scalar.AreCompatible leaves := by
  simp only [unify?, List.all_eq_true, decide_eq_true_eq]
  constructor
  · rintro ⟨kind, elements, hunified⟩
    split at hunified
    · exact .inl ⟨.int, ‹_›⟩
    · split at hunified
      · exact .inl ⟨.bool, ‹_›⟩
      · split at hunified
        · rename_i hnumbers
          exact .inr fun leaf hmem => Scalar.kind_ne_bool_iff.mp (hnumbers leaf hmem)
        · cases hunified
  · intro hcompatible
    split
    · exact ⟨_, _, rfl⟩
    · rename_i hint
      split
      · exact ⟨_, _, rfl⟩
      · rename_i hbool
        rw [if_pos]
        · exact ⟨_, _, rfl⟩
        · intro leaf hmem
          rcases hcompatible with ⟨kind, hkinds⟩ | hnumbers
          · rw [hkinds leaf hmem]
            rintro rfl
            exact hbool hkinds
          · exact Scalar.kind_ne_bool_iff.mpr (hnumbers leaf hmem)

/-- All elements are of the common kind. -/
theorem kind_of_unify? (hunified : unify? leaves = some (kind, elements)) :
    ∀ leaf ∈ elements, leaf.kind = kind := by
  simp only [unify?, List.all_eq_true, decide_eq_true_eq] at hunified
  split at hunified
  · rename_i hint
    cases hunified
    exact hint
  · split at hunified
    · rename_i hbool
      cases hunified
      exact hbool
    · split at hunified
      · rename_i hnumbers
        cases hunified
        rw [List.forall_mem_map]
        intro leaf hmem
        exact Scalar.kind_widen (hnumbers leaf hmem)
      · cases hunified

end Kinds

/-- A constant is defined if all checks are passed, one after the other. -/
theorem define_eq_ok :
    define name value = .ok constant ↔
      (0 ∉ value.dimensions ∧ value.HasShape value.dimensions ∧
          ∀ leaf ∈ value.leaves, leaf.isFinite = true) ∧
        ∃ kind elements, unify? value.leaves = some (kind, elements) ∧
          constant = ⟨name, kind, value.dimensions, elements⟩ := by
  simp only [define, List.contains_iff_mem, List.all_eq_true]
  constructor
  · intro h
    split at h
    · cases h
    · rename_i hzero
      split at h
      · cases h
      · rename_i leaves hflatten
        obtain ⟨hshape, rfl⟩ := value.flatten?_eq_some.mp hflatten
        split at h
        · rename_i hfinite
          split at h
          · cases h
          · rename_i kind elements hunified
            cases h
            exact ⟨⟨hzero, hshape, hfinite⟩, kind, elements, hunified, rfl⟩
        · cases h
  · rintro ⟨⟨hzero, hshape, hfinite⟩, kind, elements, hunified, rfl⟩
    have hflatten := value.flatten?_eq_some.mpr ⟨hshape, rfl⟩
    rw [if_neg hzero]
    simp only [hflatten, if_pos hfinite, hunified]

/-- A constant is defined for just the values that can be stored. -/
theorem exists_define_iff :
    (∃ constant, define name value = .ok constant) ↔ value.IsAcceptable := by
  simp only [define_eq_ok]
  constructor
  · rintro ⟨constant, ⟨hzero, hshape, hfinite⟩, kind, elements, hunified, rfl⟩
    refine ⟨⟨_, hshape, ?_⟩, hfinite, exists_unify?_iff.mp ⟨kind, elements, hunified⟩⟩
    intro extent hmem
    exact Nat.pos_of_ne_zero fun h => hzero (h ▸ hmem)
  · rintro ⟨⟨extents, hshape, hextents⟩, hfinite, hkinds⟩
    have hzero : 0 ∉ extents := fun hmem => absurd (hextents 0 hmem) (by decide)
    obtain ⟨kind, elements, hunified⟩ := exists_unify?_iff.mpr hkinds
    obtain rfl := hshape.dimensions_eq hzero
    exact ⟨_, ⟨hzero, hshape, hfinite⟩, kind, elements, hunified, rfl⟩

end Constant

/-! ## Places within index ranges -/

/-- The indices of one dimension of a declared array. -/
structure IndexRange where
  first : Nat
  last : Nat

namespace IndexRange

def text (range : IndexRange) : String :=
  toString range.first ++ ".." ++ toString range.last

def size (range : IndexRange) : Nat :=
  range.last + 1 - range.first

/-- The place of the element with the given indices among the elements of an array over
these ranges, the last index being the fastest; there is none outside the ranges. -/
def place? : List IndexRange → List Nat → Option Nat
  | [], [] => some 0
  | range :: ranges, index :: indices =>
    if range.first ≤ index ∧ index ≤ range.last then
      (place? ranges indices).map fun place =>
        (index - range.first) * (ranges.map size).prod + place
    else none
  | _, _ => none

/-- Elements over the given ranges: a list for a single range, or else a list folded into
the ranges. -/
def arrayText (ranges : List IndexRange) (elements : List String) : String :=
  match ranges with
  | [_] => Expr.listText elements
  | ranges =>
    "array" ++ toString ranges.length ++ "d(" ++ ", ".intercalate (ranges.map text) ++ ", "
      ++ Expr.listText elements ++ ")"

end IndexRange

namespace Constant

variable {name : String} {value : ConstantValue} {constant : Constant} {indices : List Nat}

/-- The ranges over which a constant is declared. -/
def indexRanges (constant : Constant) : List IndexRange :=
  constant.dimensions.map fun extent => ⟨1, extent⟩

theorem map_size_ranges (extents : List Nat) :
    (extents.map fun extent => (⟨1, extent⟩ : IndexRange)).map IndexRange.size = extents := by
  rw [List.map_map]
  exact List.map_id'' (fun extent => Nat.add_sub_cancel extent 1) extents

/-- Over ranges from one, the indices that are one more lead to the same place. -/
theorem place?_ranges {extents : List Nat} (h : InBounds indices extents) :
    IndexRange.place? (extents.map fun extent => ⟨1, extent⟩) (indices.map (· + 1)) =
      some (rowMajorPlace indices extents) := by
  induction h with
  | nil => rfl
  | @cons index extent indices extents hindex _ ih =>
    have hrange : 1 ≤ index + 1 ∧ index + 1 ≤ extent := ⟨Nat.le_add_left 1 index, hindex⟩
    rw [List.map_cons, List.map_cons, IndexRange.place?, if_pos hrange, ih, map_size_ranges]
    rfl

theorem place?_ranges_eq_none {extents : List Nat} (h : ¬ InBounds indices extents) :
    IndexRange.place? (extents.map fun extent => ⟨1, extent⟩) (indices.map (· + 1)) = none := by
  induction extents generalizing indices with
  | nil =>
    cases indices with
    | nil => exact absurd inBounds_nil h
    | cons index indices => rfl
  | cons extent extents ih =>
    cases indices with
    | nil => rfl
    | cons index indices =>
      rw [inBounds_cons, not_and_or] at h
      rw [List.map_cons, List.map_cons, IndexRange.place?]
      rcases h with hindex | hrest
      · rw [if_neg fun hrange => hindex hrange.2]
      · rw [ih hrest]
        simp

theorem rangesText_eq (constant : Constant) :
    constant.rangesText = ", ".intercalate (constant.indexRanges.map IndexRange.text) := by
  have hone : toString 1 ++ ".." = "1.." := by decide
  rw [rangesText, indexRanges, List.map_map, ← hone]
  rfl

theorem valueText_eq (hdimensions : constant.dimensions ≠ []) :
    constant.valueText =
      IndexRange.arrayText constant.indexRanges (constant.elements.map Scalar.text) := by
  rw [valueText, rangesText_eq]
  cases hextents : constant.dimensions with
  | nil => exact absurd hextents hdimensions
  | cons extent extents =>
    cases extents with
    | nil => simp [indexRanges, hextents, IndexRange.arrayText]
    | cons second rest => simp [indexRanges, hextents, IndexRange.arrayText]

theorem declaration_eq (hdimensions : constant.dimensions ≠ []) :
    constant.declaration =
      "array[" ++ ", ".intercalate (constant.indexRanges.map IndexRange.text) ++ "] of "
        ++ constant.kind.text ++ ": " ++ constant.name ++ " = "
        ++ IndexRange.arrayText constant.indexRanges (constant.elements.map Scalar.text)
        ++ ";" := by
  rw [declaration, typeText, if_neg (by simpa using hdimensions), rangesText_eq,
    valueText_eq hdimensions]

/-! ## Lookup -/

theorem flatPosition_eq_ok {position : Nat} :
    constant.flatPosition indices = .ok position ↔
      InBounds indices constant.dimensions ∧
        position = rowMajorPlace indices constant.dimensions := by
  rw [flatPosition, Outcome.check_bind_eq_ok fun _ => checkArity_eq_ok]
  constructor
  · rintro ⟨hlength, hrank⟩
    split at hrank
    · rename_i reached hreached
      have hbounds := inBounds_of_rank hlength hreached
      rw [rank_of_inBounds hbounds, Nat.zero_mul, Nat.zero_add, Except.ok.injEq] at hreached
      rw [Outcome.pure_eq_ok] at hrank
      exact ⟨hbounds, hrank.trans hreached.symm⟩
    · cases hrank
  · rintro ⟨hbounds, rfl⟩
    rw [rank_of_inBounds hbounds, Nat.zero_mul, Nat.zero_add]
    exact ⟨hbounds.length_eq, rfl⟩

theorem valueAt?_of_inBounds (h : InBounds indices constant.dimensions) :
    constant.valueAt? indices =
      constant.elements[rowMajorPlace indices constant.dimensions]? := by
  rw [valueAt?, flatPosition_eq_ok.mpr ⟨h, rfl⟩]

theorem valueAt?_eq_none (h : ¬ InBounds indices constant.dimensions) :
    constant.valueAt? indices = none := by
  rw [valueAt?]
  split
  · rename_i position hposition
    exact absurd (flatPosition_eq_ok.mp hposition).1 h
  · rfl

theorem mem_of_valueAt? {leaf : Scalar} (h : constant.valueAt? indices = some leaf) :
    leaf ∈ constant.elements := by
  rw [valueAt?] at h
  split at h
  · exact List.mem_of_getElem? h
  · cases h

/-- A whole number of the host that fits into a machine word is written in digits. -/
theorem operandOfInt_ofNat {count : Nat} (hcount : (count : Int) ≤ Text.maxInt64) :
    Number.operandOfInt (Int64.ofNat count) = toString count := by
  have hvalue : (Int64.ofNat count).toInt = count := by
    unfold Text.maxInt64 at hcount
    exact Int64.toInt_ofNat_of_lt (by omega)
  rw [Number.operandOfInt, hvalue, if_neg (by omega), Text.integerText, hvalue]
  rfl

/-- The texts of the elements stand at the places of their indices in the declared ranges. -/
theorem getElem?_texts (indices : List Nat) :
    (IndexRange.place? constant.indexRanges (indices.map (· + 1))).bind
        ((constant.elements.map Scalar.text)[·]?) =
      (constant.valueAt? indices).map Scalar.text := by
  rw [indexRanges]
  by_cases hbounds : InBounds indices constant.dimensions
  · rw [place?_ranges hbounds, valueAt?_of_inBounds hbounds, Option.bind_some, List.getElem?_map]
  · rw [place?_ranges_eq_none hbounds, valueAt?_eq_none hbounds]
    rfl

section Stored

variable (hshape : value.HasShape constant.dimensions)
  (helements : constant.elements = value.leaves.map value.stored)
include hshape helements

theorem length_elements : constant.elements.length = constant.dimensions.prod := by
  rw [helements, List.length_map, hshape.length_leaves]

/-- A lookup gives the scalar which the value has at these indices. -/
theorem valueAt?_eq_leafAt? (indices : List Nat) :
    constant.valueAt? indices = (value.leafAt? indices).map value.stored := by
  by_cases hbounds : InBounds indices constant.dimensions
  · rw [valueAt?_of_inBounds hbounds, helements, List.getElem?_map,
      hshape.getElem?_leaves hbounds]
  · have hleaf : value.leafAt? indices = none := by
      rwa [← Option.not_isSome_iff_eq_none, hshape.isSome_leafAt?]
    rw [valueAt?_eq_none hbounds, hleaf, Option.map_none]

theorem isSome_valueAt?_iff (indices : List Nat) :
    (constant.valueAt? indices).isSome = true ↔ InBounds indices constant.dimensions := by
  rw [valueAt?_eq_leafAt? hshape helements, Option.isSome_map, hshape.isSome_leafAt?]

theorem rank_lt_length (hzero : 0 ∉ constant.dimensions) (indices : List Nat) (position : Nat)
    (h : rank indices constant.dimensions 0 = .ok position) :
    position < constant.elements.length := by
  have hlt := rank_lt hzero h
  rwa [Nat.zero_add, Nat.one_mul, ← length_elements hshape helements] at hlt

/-- The indices of an access are digits, as the extents are no larger than the number of
elements. -/
theorem text_of_elementAt (hzero : 0 ∉ constant.dimensions)
    (hlength : (constant.elements.length : Int) ≤ Text.maxInt64) (indices : List Nat)
    (element : Expr) (h : constant.elementAt indices = .ok element) :
    element.text =
      constant.name ++ Expr.listText (indices.map fun index => toString (index + 1)) := by
  obtain ⟨⟨-, position, hposition⟩, rfl⟩ := elementAt_eq_ok.mp h
  obtain ⟨hbounds, -⟩ := flatPosition_eq_ok.mp hposition
  have hindex : ∀ index ∈ indices, index + 1 ≤ constant.elements.length := by
    intro index hmem
    obtain ⟨extent, hextent, hlt⟩ := InBounds.exists_extent hbounds hmem
    calc index + 1 ≤ extent := hlt
      _ ≤ constant.dimensions.prod := extent_le_prod hzero hextent
      _ = constant.elements.length := (length_elements hshape helements).symm
  rw [access, Expr.text, Expr.texts_eq_map, List.map_map]
  congr 2
  apply List.map_congr_left
  intro index hmem
  exact operandOfInt_ofNat (by have := hindex index hmem; omega)

end Stored

end Constant

end MiniZincModels
