import MiniZincModels.Proofs.Expr.Operand
import MiniZincModels.Proofs.Expr.Plain

/-!
# Nesting of expressions

The text of every expression without raw text is an operand: its operators, choices and
lists stand in brackets, at every depth.  A number with a sign stands in brackets as
well, except for the negative zero.
-/

namespace MiniZincModels

namespace Number

theorem isOperand_operandOfInt (value : Int64) : Text.IsOperand (operandOfInt value) := by
  have hvalue := Text.isOperand_integerText value
  rw [operandOfInt]
  split
  · exact Text.isOperand_round hvalue.nested
  · exact hvalue

theorem isOperand_operandOfFloat (value : Binary64) : Text.IsOperand (operandOfFloat value) := by
  have hvalue := Text.isOperand_floatText value
  rw [operandOfFloat]
  split
  · exact Text.isOperand_round hvalue.nested
  · exact hvalue

theorem not_isSigned_operandOfInt (value : Int64) : ¬ Text.IsSigned (operandOfInt value) := by
  rw [operandOfInt]
  split
  · exact Text.not_isSigned_round _
  · rename_i hvalue
    exact Text.not_isSigned_integerText hvalue

/-- Of all doubles the negative zero alone is written with a bare sign: it has one, and does
not lie below zero. -/
theorem isSigned_operandOfFloat_iff {value : Binary64} :
    Text.IsSigned (operandOfFloat value) ↔ value = .finite true .zero := by
  constructor
  · intro hsigned
    by_contra hvalue
    rw [operandOfFloat] at hsigned
    split at hsigned
    · exact Text.not_isSigned_round _ hsigned
    · rename_i hless
      cases value with
      | nan => exact absurd hsigned (by decide)
      | infinity negative =>
        cases negative with
        | true => exact hless Binary64.infinity_less_zero
        | false => exact absurd hsigned (by decide)
      | finite negative magnitude =>
        cases negative with
        | true =>
          have hmagnitude : magnitude ≠ .zero := fun heq => hvalue (by rw [heq])
          exact hless (Binary64.less_zero_of_negative hmagnitude)
        | false => exact Binary64.not_isSigned_text magnitude hsigned
  · rintro rfl
    decide

end Number

namespace Expr

open Text (IsNested IsOperand IsSigned)

section Parts

variable {left right token function : String} {parts : List String}

theorem forall_nested (hparts : ∀ part ∈ parts, IsOperand part) : ∀ part ∈ parts, IsNested part :=
  fun part hmem => (hparts part hmem).nested

theorem isOperand_binaryText (hleft : IsNested left) (htoken : IsNested token)
    (hright : IsNested right) : IsOperand (binaryText left token right) := by
  have hinner : IsNested (left ++ " " ++ token ++ " " ++ right) :=
    (((hleft.append (by decide)).append htoken).append (by decide)).append hright
  have htext : binaryText left token right =
      "(" ++ (left ++ " " ++ token ++ " " ++ right) ++ ")" := by
    simp only [binaryText, String.append_assoc]
  rw [htext]
  exact Text.isOperand_round hinner

theorem isOperand_listText (hparts : ∀ part ∈ parts, IsNested part) :
    IsOperand (listText parts) :=
  Text.isOperand_square (Text.isNested_intercalate (by decide) hparts)

theorem isOperand_callText (hfunction : IsOperand function)
    (hparts : ∀ part ∈ parts, IsNested part) : IsOperand (callText function parts) := by
  have hcomma : IsNested ", " := by decide
  have harguments := Text.isOperand_round (Text.isNested_intercalate hcomma hparts)
  have htext : callText function parts = function ++ ("(" ++ ", ".intercalate parts ++ ")") := by
    simp only [callText, String.append_assoc]
  rw [htext]
  exact hfunction.append harguments

theorem not_isSigned_binaryText : ¬ IsSigned (binaryText left token right) := by
  simp only [binaryText, String.append_assoc]
  rw [Text.isSigned_append (by decide)]
  decide

theorem not_isSigned_listText : ¬ IsSigned (listText parts) := by
  rw [listText, String.append_assoc, Text.isSigned_append (by decide)]
  decide

theorem not_isSigned_callText (hne : function ≠ "") (hfunction : ¬ IsSigned function) :
    ¬ IsSigned (callText function parts) := by
  simp only [callText, String.append_assoc]
  rwa [Text.isSigned_append hne]

theorem isOperand_choiceText {test thenText elseText : String} (htest : IsNested test)
    (hthen : IsNested thenText) (helse : IsNested elseText) :
    IsOperand ("(if " ++ test ++ " then " ++ thenText ++ " else " ++ elseText ++ " endif)") := by
  have hif : IsNested "if " := by decide
  have hinner : IsNested ("if " ++ test ++ " then " ++ thenText ++ " else " ++ elseText ++
      " endif") :=
    (((((hif.append htest).append (by decide)).append hthen).append (by decide)).append
      helse).append (by decide)
  have hopening : "(if " = "(" ++ "if " := by decide
  have hclosing : " endif)" = " endif" ++ ")" := by decide
  have htext : "(if " ++ test ++ " then " ++ thenText ++ " else " ++ elseText ++ " endif)" =
      "(" ++ ("if " ++ test ++ " then " ++ thenText ++ " else " ++ elseText ++ " endif") ++
        ")" := by
    simp only [hopening, hclosing, String.append_assoc]
  rw [htext]
  exact Text.isOperand_round hinner

end Parts

/-- Literals and names are operands, and every pattern of operands is in brackets. -/
theorem isTextual_isOperand :
    IsTextual (fun name => Identifier.isValid name = true) IsOperand where
  int := Number.isOperand_operandOfInt
  float := Number.isOperand_operandOfFloat
  bool value := Text.isOperand_of_forall (by cases value <;> decide)
  intSet := Text.isOperand_setText
  name _ hvalid := Text.isOperand_of_isValid hvalid
  binary token hmem left right hleft hright := by
    have htokens : ∀ token ∈ binaryTokens, IsNested token := by decide
    exact isOperand_binaryText hleft.nested (htokens token hmem) hright.nested
  joined token hmem operands hoperands := by
    have hseparators : ∀ token ∈ connectiveTokens, IsNested (" " ++ token ++ " ") := by decide
    have hinner := Text.isNested_intercalate (hseparators token hmem) (forall_nested hoperands)
    exact Text.isOperand_round hinner
  call function hmem arguments harguments := by
    have hnames : ∀ function ∈ functionNames, ∀ c ∈ function.toList, c ∉ Text.marks := by decide
    have hfunction : IsOperand function := Text.isOperand_of_forall (hnames function hmem)
    exact isOperand_callText hfunction (forall_nested harguments)
  list elements helements := isOperand_listText (forall_nested helements)
  choice test thenText elseText htest hthen helse :=
    isOperand_choiceText htest.nested hthen.nested helse.nested
  access name hvalid indices hindices :=
    (Text.isOperand_of_isValid hvalid).append (isOperand_listText (forall_nested hindices))

theorem isSigned_text_iff {expr : Expr} (hplain : expr.IsDeclarable) :
    IsSigned expr.text ↔ expr = .float (.finite true .zero) := by
  cases expr with
  | float value => simp only [text, Number.isSigned_operandOfFloat_iff, float.injEq]
  | int value => simp [text, Number.not_isSigned_operandOfInt]
  | bool value => cases value <;> simp <;> decide
  | intSet values =>
    simp only [reduceCtorEq, iff_false]
    exact Text.not_isSigned_setText values
  | identifier name kind =>
    simp only [reduceCtorEq, iff_false]
    exact Text.not_isSigned_of_isValid hplain
  | raw text => exact hplain.elim
  | arithmetic op left right | comparison op left right => simp [text, not_isSigned_binaryText]
  | membership left right | intersection left right => simp [text, not_isSigned_binaryText]
  | array elements => simp [text, not_isSigned_listText]
  | connective op operands => simp [text, Text.not_isSigned_round]
  | negation | power | absolute =>
    simp only [reduceCtorEq, iff_false]
    exact not_isSigned_callText (by decide) (by decide)
  | reduction function operands =>
    simp only [reduceCtorEq, iff_false]
    exact not_isSigned_callText (by cases function <;> decide) (by cases function <;> decide)
  | setMeasure function set =>
    simp only [reduceCtorEq, iff_false]
    exact not_isSigned_callText (by cases function <;> decide) (by cases function <;> decide)
  | predicate global arguments =>
    simp only [reduceCtorEq, iff_false]
    exact not_isSigned_callText (by cases global <;> decide) (by cases global <;> decide)
  | conditional test thenValue elseValue =>
    simp only [reduceCtorEq, iff_false, text, String.append_assoc]
    rw [Text.isSigned_append (by decide)]
    decide
  | access constant kind indices =>
    simp only [reduceCtorEq, iff_false]
    rw [text, Text.isSigned_append (Identifier.ne_empty hplain)]
    exact Text.not_isSigned_of_isValid hplain

/-- An expression without raw text, of whatever depth, has brackets that fit each other, and
spaces and commas stand inside them only.  It begins with a minus sign only if it is the
negative zero. -/
theorem text_nested_and_signed_iff {expr : Expr} (hplain : expr.Everywhere IsDeclarable) :
    IsOperand expr.text ∧ (IsSigned expr.text ↔ expr = .float (.finite true .zero)) := by
  refine ⟨isTextual_isOperand.text hplain, ?_⟩
  cases hplain with
  | node here _ => exact isSigned_text_iff here

/-- A choice with a set, an access and literals with signs, times a negative number. -/
theorem text_nested_of_signed_operands :
    let zero := Binary64.finite true .zero
    let limits : Constant := ⟨"limits", .float, [2], [.float zero, .float zero]⟩
    let level : Variable := ⟨"level", .int (.interval (-3) 3)⟩
    let test := membership level.toExpr (setOf [2, -1])
    let entry := limits.access [.arithmetic .add level.toExpr (.int 1)]
    let expr := arithmetic .mul (.conditional test entry (.float zero)) (.int (-2))
    Built Vocabulary.withoutRaw expr ∧ expr.Everywhere IsDeclarable ∧
      expr.text =
        "((if (level in \x7b-1, 2\x7d) then limits[(level + 1)] else -0.0 endif) * (-2))" ∧
      IsOperand expr.text ∧ (IsSigned expr.text ↔ expr = .float (.finite true .zero)) := by
  intro zero limits level test entry expr
  have hlevel : Built Vocabulary.withoutRaw level.toExpr :=
    .ofVariable (Vocabulary.hasVariable_withoutRaw.mpr (by decide))
  have hlimits : Vocabulary.withoutRaw.HasConstant limits :=
    (by decide : Identifier.isValid "limits" = true)
  have hcontains : contains ∈ binaryFunctions := by simp [binaryFunctions]
  have htest : Built Vocabulary.withoutRaw test :=
    .binary hcontains (.setOf [2, -1]) hlevel rfl
  have hentry : Built Vocabulary.withoutRaw entry :=
    .indexBy hlimits (List.forall_mem_singleton.mpr hlevel) rfl
  have hchoice : Built Vocabulary.withoutRaw (.conditional test entry (.float zero)) :=
    .ifThenElse htest hentry (.float trivial) rfl
  have htimes : mul ∈ binaryFunctions := by simp [binaryFunctions]
  have hbuilt : Built Vocabulary.withoutRaw expr := .binary htimes hchoice (.int (-2)) rfl
  exact ⟨hbuilt, hbuilt.isDeclarable, by decide, text_nested_and_signed_iff hbuilt.isDeclarable⟩

/-- The literal of the negative zero is not bracketed like other literals with a sign, so it
begins with a minus sign also where an operand is expected. -/
theorem negative_zero_begins_with_sign :
    let zero := float (.finite true .zero)
    let expr := arithmetic .sub (.int (-1)) zero
    Built Vocabulary.withoutRaw zero ∧ Built Vocabulary.withoutRaw expr ∧
      zero.text = "-0.0" ∧ expr.text = "((-1) - -0.0)" ∧
      ¬ ∀ expr, Built Vocabulary.withoutRaw expr → IsOperand expr.text ∧ ¬ IsSigned expr.text := by
  intro zero expr
  have hzero : Built Vocabulary.withoutRaw zero := .float trivial
  have hminus : sub ∈ binaryFunctions := by simp [binaryFunctions]
  have hresult : sub (.int (-1)) zero = .ok expr := rfl
  refine ⟨hzero, .binary hminus (.int (-1)) hzero hresult, by decide, by decide, ?_⟩
  intro h
  exact (h zero hzero).2 (by decide)

end Expr

end MiniZincModels
