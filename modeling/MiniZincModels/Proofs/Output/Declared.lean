import MiniZincModels.Proofs.Declaration.Storage
import MiniZincModels.Proofs.Model.Checked
import MiniZincModels.Proofs.Model.Names
import MiniZincModels.Proofs.Output.Elements

/-!
# Declared values read back

A constant is declared in the syntax in which solvers report values.  Cut out of its
declaration, the value of a constant is read as the scalar, or as the array of all
scalars, that was given for it, also where the list is folded into index ranges.
-/

namespace MiniZincModels

/-! ## The value part of a declaration -/

namespace Text

/-- What stands behind the first place where the mark occurs. -/
def afterFirst? (mark : List Char) : List Char → Option (List Char)
  | [] => afterStart? mark []
  | c :: rest =>
    match afterStart? mark (c :: rest) with
    | some after => some after
    | none => afterFirst? mark rest

/-- What stands in front of the last place where the character occurs. -/
def beforeLast? (mark : Char) (text : List Char) : Option (List Char) :=
  (cutAt? mark text.reverse).map fun (_, before) => before.reverse

variable {before after : List Char}

/-- A first equals sign between two blanks is found. -/
theorem afterFirst?_equals (hbefore : '=' ∉ before) :
    afterFirst? [' ', '=', ' '] (before ++ ' ' :: '=' :: ' ' :: after) = some after := by
  induction before with
  | nil => rfl
  | cons c before ih =>
    rw [List.mem_cons, not_or] at hbefore
    have hstart : afterStart? [' ', '=', ' '] (c :: (before ++ ' ' :: '=' :: ' ' :: after)) =
        none := by
      rw [afterStart?]
      split
      · cases before with
        | nil => rfl
        | cons d before =>
          rw [List.mem_cons, not_or] at hbefore
          rw [List.cons_append, afterStart?, if_neg hbefore.2.1]
      · rfl
    rw [List.cons_append, afterFirst?, hstart]
    exact ih hbefore.2

theorem beforeLast?_concat (text : List Char) (mark : Char) :
    beforeLast? mark (text ++ [mark]) = some text := by
  have hcut : cutAt? mark ([] ++ mark :: text.reverse) = some ([], text.reverse) :=
    cutAt?_append List.not_mem_nil
  rw [beforeLast?, List.reverse_append, List.reverse_singleton]
  simp only [List.nil_append] at hcut
  simp [hcut]

end Text

/-- The text of the value that is declared: what stands between the first equals sign and the
last semicolon. -/
def declaredText? (declaration : String) : Option (List Char) :=
  (Text.afterFirst? [' ', '=', ' '] declaration.toList).bind (Text.beforeLast? ';')

/-! ## Scalars and arrays as values -/

namespace Scalar

def toValue : Scalar → Value
  | int value => .int value
  | float value => .float value
  | bool value => .bool value

@[simp]
theorem text_toValue (leaf : Scalar) : leaf.toValue.text = leaf.text := by
  cases leaf <;> rfl

theorem hasNumbers_toValue {leaf : Scalar} (hfinite : leaf.isFinite = true) :
    leaf.toValue.HasNumbers := by
  cases leaf with
  | float value =>
    rintro rfl
    cases hfinite
  | int value | bool value => exact trivial

/-- A text that can be an element of a list, and that is read as the scalar. -/
structure IsWrittenAs (leaf : Scalar) (text : String) : Prop where
  isElement : Value.IsElement text.toList
  read : Value.read text.toList = .ok leaf.toValue

theorem isWrittenAs_text {leaf : Scalar} (hfinite : leaf.isFinite = true) :
    leaf.IsWrittenAs leaf.text := by
  have hnumbers := hasNumbers_toValue hfinite
  have helement := Value.isElement_text leaf.toValue hnumbers
  have hread : Value.read leaf.toValue.text.toList = .ok leaf.toValue :=
    Value.isRead_text leaf.toValue hnumbers _ _ (Nat.le_refl _)
      (Text.trim_eq_self helement.isTight)
  rw [text_toValue] at helement hread
  exact ⟨helement, hread⟩

end Scalar

/-- The value as a solver would report it, an array flat and in row-major order. -/
def ConstantValue.toValue : ConstantValue → Value
  | scalar leaf => leaf.toValue
  | array values =>
    .array ((array values).leaves.map fun leaf => ((array values).stored leaf).toValue)

namespace Value

/-! ## Lists folded into ranges -/

section Folded

variable {digits ranges inner list : List Char} {depth : Nat} {padded : List Char}

/-- The list is found behind the digits of the word and the ranges. -/
theorem foldedList?_foldedText (hdigits : ∀ c ∈ digits, c.isDigit = true) (hne : digits ≠ [])
    (hranges : '[' ∉ ranges) (hline : '\n' ∉ '[' :: (inner ++ [']'])) :
    foldedList? (foldedText digits ranges ('[' :: (inner ++ [']']))) =
      some ('[' :: (inner ++ [']'])) := by
  have hdecimal : ∀ c ∈ digits, Text.isDecimalDigit c = true := fun c hc =>
    Text.forall_isDigit (p := fun d => Text.isDecimalDigit d = true) (by decide) (hdigits c hc)
  have hinner : '\n' ∉ inner := by
    simpa using hline
  have hlist :=
    FoldedArray.foldedList?_text ⟨digits, ranges, inner, [], hne, hdecimal, hranges, rfl⟩
  rw [if_neg hinner, FoldedArray.text, List.append_nil] at hlist
  exact hlist

/-- Such a text is no other form of a value, and so the list decides. -/
theorem readNested_foldedText
    (hlist : foldedList? (foldedText digits ranges list) = some list) :
    readNested (depth + 1) (foldedText digits ranges list) = readNested depth list := by
  obtain ⟨rest, hrest⟩ : ∃ rest, foldedText digits ranges list = 'a' :: rest := ⟨_, rfl⟩
  have htrim : Text.trim ('a' :: rest) = 'a' :: rest := hrest ▸ Text.trim_eq_self isTight_foldedText
  have hword : 'a' :: rest ≠ ['t', 'r', 'u', 'e'] ∧ 'a' :: rest ≠ ['f', 'a', 'l', 's', 'e'] := by
    constructor
    · rintro ⟨⟩
    · rintro ⟨⟩
  have hinteger : Text.readInteger? ('a' :: rest) = none := rfl
  have hfloat : Binary64.read? ('a' :: rest) = none := by
    have hlower : Char.toLower 'a' = 'a' := by decide
    have hdecimal : Binary64.readDecimal? false ('a' :: rest) = none := rfl
    have hsign : Text.splitSign ('a' :: rest) = (false, 'a' :: rest) := rfl
    simp [Binary64.read?, hsign, hlower, hdecimal]
  have hrange : rangeBounds? ('a' :: rest) = none := rfl
  have hset : enclosed? '\x7b' '\x7d' ('a' :: rest) = none := by simp [enclosed?]
  have harray : enclosed? '[' ']' ('a' :: rest) = none := by simp [enclosed?]
  rw [hrest] at hlist
  rw [hrest, readNested, htrim, if_neg hword.1, if_neg hword.2, hinteger]
  simp only [hfloat, hrange, hset, harray, hlist]

/-- A list that is folded into ranges is read as the list alone. -/
theorem read_foldedText (hdigits : ∀ c ∈ digits, c.isDigit = true) (hne : digits ≠ [])
    (hranges : '[' ∉ ranges) (hline : '\n' ∉ '[' :: (inner ++ [']'])) :
    read (foldedText digits ranges ('[' :: (inner ++ [']']))) = read ('[' :: (inner ++ [']'])) := by
  have hlist := foldedList?_foldedText hdigits hne hranges hline
  rw [read, readNested_foldedText hlist]
  exact readNested_eq_read (length_lt_of_foldedList? hlist)

end Folded

theorem allHaveNumbers_iff {values : List Value} :
    AllHaveNumbers values ↔ ∀ value ∈ values, value.HasNumbers := by
  induction values with
  | nil => simp [AllHaveNumbers]
  | cons first rest ih => simp [AllHaveNumbers, ih]

theorem isDigit_of_mem_toString (count : Nat) :
    ∀ c ∈ (toString count).toList, c.isDigit = true := by
  intro c hc
  have hdigits : c ∈ Nat.toDigits 10 count := by simpa [Nat.toList_repr] using hc
  exact Text.isDigit_of_mem_toDigits c hdigits

/-- The ranges are written with digits, points, commas and blanks. -/
theorem not_mem_rangesText (ranges : List IndexRange) {c : Char} (hdigit : c.isDigit = false)
    (hmark : c ∉ ['.', ',', ' ']) :
    c ∉ (", ".intercalate (ranges.map IndexRange.text)).toList := by
  simp only [List.mem_cons, List.not_mem_nil, or_false, not_or] at hmark
  apply not_mem_joined hmark.2.1 hmark.2.2
  rw [List.forall_mem_map]
  intro range _ hmem
  have hdigits : ∀ count : Nat, c ∉ (toString count).toList := by
    intro count hcount
    rw [isDigit_of_mem_toString count c hcount] at hdigit
    cases hdigit
  have hdots : c ∉ "..".toList := by simpa using hmark.1
  simp only [IndexRange.text, String.toList_append, List.mem_append] at hmem
  exact hmem.elim (fun hfirst => hfirst.elim (hdigits _) hdots) (hdigits _)

/-- Around a list that is folded into ranges, the text does not change what is read. -/
theorem read_folded (count : Nat) (ranges : List IndexRange) {values : List Value}
    (hvalues : AllHaveNumbers values) :
    read ("array" ++ toString count ++ "d(" ++ ", ".intercalate (ranges.map IndexRange.text) ++ ", "
        ++ (array values).text ++ ")").toList = read (array values).text.toList := by
  let rangesText := (", ".intercalate (ranges.map IndexRange.text)).toList ++ [',', ' ']
  have htext : ("array" ++ toString count ++ "d("
      ++ ", ".intercalate (ranges.map IndexRange.text) ++ ", " ++ (array values).text
      ++ ")").toList =
        foldedText (toString count).toList rangesText (array values).text.toList := by
    simp [foldedText, rangesText]
  have hranges : '[' ∉ rangesText := by
    simpa [rangesText] using not_mem_rangesText ranges (by decide) (by decide)
  have hdigits : (toString count).toList ≠ [] := by
    simp [Nat.toList_repr]
  have hline := (isElement_text (array values) hvalues).oneLine
  rw [toList_arrayText] at hline
  rw [htext, toList_arrayText]
  exact read_foldedText (isDigit_of_mem_toString count) hdigits hranges hline

/-- An array is read from its text over any ranges. -/
theorem read_arrayText (ranges : List IndexRange) {values : List Value}
    (hvalues : AllHaveNumbers values) :
    read (IndexRange.arrayText ranges (values.map Value.text)).toList = .ok (array values) := by
  have hlist : Expr.listText (values.map Value.text) = (array values).text := by
    rw [Value.text, texts_eq_map]
  have hread : read (array values).text.toList = .ok (array values) :=
    isRead_text (array values) hvalues _ _ (Nat.le_refl _)
      (Text.trim_eq_self (isElement_text (array values) hvalues).isTight)
  rw [IndexRange.arrayText.eq_def, hlist]
  split
  · exact hread
  · exact (read_folded _ ranges hvalues).trans hread

end Value

/-! ## Declarations -/

namespace Constant

variable {name : String} {value : ConstantValue} {constant : Constant}

theorem not_mem_typeText (constant : Constant) : '=' ∉ constant.typeText.toList := by
  have hkind : '=' ∉ constant.kind.text.toList := by
    cases constant.kind <;> decide
  have hranges : '=' ∉ constant.rangesText.toList := by
    rw [rangesText_eq]
    exact Value.not_mem_rangesText _ (by decide) (by decide)
  rw [typeText]
  split
  · exact hkind
  · simp [hkind, hranges]

/-- A declaration is cut into its value part by the first equals sign and the semicolon. -/
theorem declaredText?_declaration (hname : '=' ∉ constant.name.toList) :
    declaredText? constant.declaration = some constant.valueText.toList := by
  have hbefore : '=' ∉ (constant.typeText ++ ": " ++ constant.name).toList := by
    simp [constant.not_mem_typeText, hname]
  have hdeclaration : constant.declaration.toList =
      (constant.typeText ++ ": " ++ constant.name).toList ++
        ' ' :: '=' :: ' ' :: (constant.valueText.toList ++ [';']) := by
    simp [declaration]
  rw [declaredText?, hdeclaration, Text.afterFirst?_equals hbefore, Option.bind_some,
    Text.beforeLast?_concat]

/-- The value part of a declaration is read as what the constant was defined by. -/
theorem read_valueText (h : define name value = .ok constant) :
    Value.read constant.valueText.toList = .ok value.toValue := by
  have hfinite := isFinite_of_define h
  obtain ⟨-, kind, elements, hunified, rfl⟩ := define_eq_ok.mp h
  obtain rfl : elements = value.leaves.map value.stored := elements_of_unify? hunified
  cases value with
  | scalar leaf =>
    have hstored : (ConstantValue.scalar leaf).stored leaf = leaf :=
      if_neg (Scalar.not_areMixed (List.forall_mem_singleton.mpr rfl))
    simp only [ConstantValue.leaves, List.map_cons, List.map_nil, List.forall_mem_singleton,
      hstored] at hfinite ⊢
    exact (Scalar.isWrittenAs_text hfinite).read
  | array values =>
    let array := ConstantValue.array values
    have hnumbers :
        Value.AllHaveNumbers (array.leaves.map fun leaf => (array.stored leaf).toValue) := by
      rw [Value.allHaveNumbers_iff, List.forall_mem_map]
      intro leaf hmem
      exact Scalar.hasNumbers_toValue (hfinite _ (List.mem_map_of_mem hmem))
    have htexts : (array.leaves.map array.stored).map Scalar.text =
        (array.leaves.map fun leaf => (array.stored leaf).toValue).map Value.text := by
      simp [Function.comp_def]
    rw [valueText_eq (List.cons_ne_nil _ _)]
    exact htexts ▸ Value.read_arrayText _ hnumbers

/-- The declared value of a constant is read as the scalar it was defined by, or as the array
of its scalars in row-major order. -/
theorem read_declaredText (hname : '=' ∉ name.toList) (h : define name value = .ok constant) :
    ∃ text, declaredText? constant.declaration = some text ∧
      Value.read text = .ok value.toValue := by
  rw [← name_of_define h] at hname
  exact ⟨_, declaredText?_declaration hname, read_valueText h⟩

/-- Three dimensions, folded into ranges, with integers and a negative zero. -/
theorem read_declaredText_of_cube :
    let value : ConstantValue := .array [
      .array [.array [.scalar (.int 1), .scalar (.float (.finite true .zero))]],
      .array [.array [.scalar (.int (-20)), .scalar (.int 4)]]]
    ∃ constant text, define "cube" value = .ok constant ∧
      declaredText? constant.declaration = some text ∧
      Value.read text = .ok (.array [.float (Binary64.ofInt64 1), .float (.finite true .zero),
        .float (Binary64.ofInt64 (-20)), .float (Binary64.ofInt64 4)]) := by
  intro value
  let constant : Constant := ⟨"cube", .float, [2, 1, 2], [.float (Binary64.ofInt64 1),
    .float (.finite true .zero), .float (Binary64.ofInt64 (-20)), .float (Binary64.ofInt64 4)]⟩
  have hdefined : define "cube" value = .ok constant := rfl
  obtain ⟨text, htext, hread⟩ := read_declaredText (by decide : '=' ∉ "cube".toList) hdefined
  exact ⟨constant, text, hdefined, htext, hread⟩

end Constant

end MiniZincModels
