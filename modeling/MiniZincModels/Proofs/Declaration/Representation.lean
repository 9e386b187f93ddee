import MiniZincModels.Proofs.Output.Declared

/-!
# Constants stand for the values they were given

A constant that is defined has the shape and the scalars of its value.  A lookup gives these
scalars, and an access is written with indices that are one more.  The declaration holds, at the
place of the indices of each scalar in the declared ranges, a text that is read as this scalar.
-/

namespace MiniZincModels.Constant

variable {name : String} {value : ConstantValue} {constant : Constant}

/-! ## Declared texts -/

/-- An array is declared with a list of texts, one for each place in its ranges.  At the place of
indices that are one more, and there only, stands a text that is read as what a lookup gives. -/
structure DeclaresArray (constant : Constant) (texts : List String) : Prop where
  declaration_eq : constant.declaration =
    "array[" ++ ", ".intercalate (constant.indexRanges.map IndexRange.text) ++ "] of "
      ++ constant.kind.text ++ ": " ++ constant.name ++ " = "
      ++ IndexRange.arrayText constant.indexRanges texts ++ ";"
  length_eq : texts.length = (constant.indexRanges.map IndexRange.size).prod
  isWrittenAs : ∀ indices, Option.Rel Scalar.IsWrittenAs (constant.valueAt? indices)
    ((IndexRange.place? constant.indexRanges (indices.map (· + 1))).bind (texts[·]?))

/-- A scalar is declared with a text that is read as what a lookup gives for no indices. -/
structure DeclaresScalar (constant : Constant) (text : String) : Prop where
  declaration_eq : constant.declaration =
    constant.kind.text ++ ": " ++ constant.name ++ " = " ++ text ++ ";"
  isWrittenAs : Option.Rel Scalar.IsWrittenAs (constant.valueAt? []) (some text)

section Declared

variable (hfinite : ∀ leaf ∈ constant.elements, leaf.isFinite = true)
  (hlength : constant.elements.length = constant.dimensions.prod)
include hfinite hlength

theorem declaresArray_texts (hdimensions : constant.dimensions ≠ []) :
    constant.DeclaresArray (constant.elements.map Scalar.text) where
  declaration_eq := declaration_eq hdimensions
  length_eq := by rw [List.length_map, hlength, indexRanges, map_size_ranges]
  isWrittenAs indices := by
    rw [getElem?_texts]
    cases hvalue : constant.valueAt? indices with
    | none => exact .none
    | some leaf => exact .some (Scalar.isWrittenAs_text (hfinite leaf (mem_of_valueAt? hvalue)))

theorem exists_declaresScalar (hdimensions : constant.dimensions = []) :
    ∃ text, constant.DeclaresScalar text := by
  obtain ⟨leaf, helements⟩ : ∃ leaf, constant.elements = [leaf] := by
    rw [← List.length_eq_one_iff, hlength, hdimensions, List.prod_nil]
  have hbounds : InBounds [] constant.dimensions := hdimensions ▸ inBounds_nil
  have hvalue : constant.valueAt? [] = some leaf := by
    rw [valueAt?_of_inBounds hbounds, helements]
    rfl
  refine ⟨leaf.text, ?_, ?_⟩
  · simp [declaration, typeText, valueText, hdimensions, helements]
  · rw [hvalue]
    exact .some (Scalar.isWrittenAs_text (hfinite leaf (mem_of_valueAt? hvalue)))

end Declared

/-! ## Constants and values -/

/-- The constant is the value: it has its shape, gives its scalars for the same indices, is
accessed by indices that are one more, and is declared with its scalars in row-major order. -/
structure Represents (constant : Constant) (value : ConstantValue) : Prop where
  shape : value.HasShape constant.dimensions
  valueAt?_eq : ∀ indices, constant.valueAt? indices = (value.leafAt? indices).map value.stored
  isSome_valueAt?_iff : ∀ indices,
    (constant.valueAt? indices).isSome = true ↔ InBounds indices constant.dimensions
  kind_valueAt? : ∀ indices leaf, constant.valueAt? indices = some leaf → leaf.kind = constant.kind
  /-- What is counted on the way to an element, for any indices, is the place of an element. -/
  rank_lt : ∀ indices position,
    rank indices constant.dimensions 0 = .ok position → position < constant.elements.length
  exists_elementAt_iff : ∀ indices,
    (∃ element, constant.elementAt indices = .ok element) ↔
      constant.dimensions ≠ [] ∧ InBounds indices constant.dimensions
  /-- The host has no list that is longer than the largest machine integer. -/
  text_elementAt : (constant.elements.length : Int) ≤ Text.maxInt64 → ∀ indices element,
    constant.elementAt indices = .ok element →
      element.text = constant.name ++ Expr.listText (indices.map fun index => toString (index + 1))
  array_declaration : constant.dimensions ≠ [] → ∃ texts, constant.DeclaresArray texts
  scalar_declaration : constant.dimensions = [] → ∃ text, constant.DeclaresScalar text

theorem represents_of_define (h : define name value = .ok constant) :
    constant.Represents value := by
  have hfinite := isFinite_of_define h
  obtain ⟨⟨hzero, hshape, -⟩, kind, elements, hunified, rfl⟩ := define_eq_ok.mp h
  have helements : elements = value.leaves.map value.stored := elements_of_unify? hunified
  exact {
    shape := hshape
    valueAt?_eq := valueAt?_eq_leafAt? hshape helements
    isSome_valueAt?_iff := isSome_valueAt?_iff hshape helements
    kind_valueAt? := fun _ leaf hvalue =>
      kind_of_unify? hunified leaf (mem_of_valueAt? hvalue)
    rank_lt := rank_lt_length hshape helements hzero
    exists_elementAt_iff := by
      intro indices
      simp [elementAt_eq_ok, flatPosition_eq_ok]
    text_elementAt := text_of_elementAt hshape helements hzero
    array_declaration := fun hdimensions =>
      ⟨_, declaresArray_texts hfinite (length_elements hshape helements) hdimensions⟩
    scalar_declaration := fun hdimensions =>
      exists_declaresScalar hfinite (length_elements hshape helements) hdimensions }

/-- A constant is defined just for full arrays of finite scalars that go together, and it then
stores, indexes and declares what it was given. -/
theorem define_represents (name : String) (value : ConstantValue) :
    ((∃ constant, define name value = .ok constant) ↔ value.IsAcceptable) ∧
      ∀ constant, define name value = .ok constant →
        constant.name = name ∧ constant.Represents value := by
  refine ⟨exists_define_iff, fun constant h => ⟨?_, represents_of_define h⟩⟩
  obtain ⟨-, kind, elements, -, rfl⟩ := define_eq_ok.mp h
  rfl

/-- A grid of integers with a float among them, which is the negative zero, and a negative
integer alone. -/
theorem mixed_grid_represents :
    let value : ConstantValue := .array [
      .array [.scalar (.int 1), .scalar (.float (.finite true .zero))],
      .array [.scalar (.int (-3)), .scalar (.int 4)]]
    ∃ constant least, define "grid" value = .ok constant ∧ constant.Represents value ∧
      constant.valueAt? [1, 0] = some (.float (Binary64.ofInt64 (-3))) ∧
      constant.valueAt? [0, 2] = none ∧
      constant.declaration =
        "array[1..2, 1..2] of float: grid = array2d(1..2, 1..2, [1.0, -0.0, -3.0, 4.0]);" ∧
      (∃ element, constant.elementAt [1, 0] = .ok element ∧ element.text = "grid[2, 1]") ∧
      define "least" (.scalar (.int (-5))) = .ok least ∧
      least.Represents (.scalar (.int (-5))) ∧ least.declaration = "int: least = -5;" := by
  intro value
  let constant : Constant := ⟨"grid", .float, [2, 2], [.float (Binary64.ofInt64 1),
    .float (.finite true .zero), .float (Binary64.ofInt64 (-3)), .float (Binary64.ofInt64 4)]⟩
  let least : Constant := ⟨"least", .int, [], [.int (-5)]⟩
  have hdefined : define "grid" value = .ok constant := rfl
  have hleast : define "least" (.scalar (.int (-5))) = .ok least := rfl
  have hrepresents := ((define_represents "grid" value).2 constant hdefined).2
  have hbounds : InBounds [1, 0] [2, 2] := by simp [InBounds]
  obtain ⟨element, helement⟩ :=
    (hrepresents.exists_elementAt_iff [1, 0]).mpr ⟨List.cons_ne_nil _ _, hbounds⟩
  refine ⟨constant, least, hdefined, hrepresents, hrepresents.valueAt?_eq [1, 0],
    hrepresents.valueAt?_eq [0, 2], by decide +kernel, ⟨element, helement, ?_⟩, hleast,
    ((define_represents "least" _).2 least hleast).2, by decide⟩
  rw [hrepresents.text_elementAt (by decide) [1, 0] element helement]
  decide

end MiniZincModels.Constant
