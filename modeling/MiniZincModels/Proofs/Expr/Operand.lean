import MiniZincModels.Proofs.Binary64.Finite
import MiniZincModels.Proofs.Expr.Form
import MiniZincModels.Proofs.Text.Fragment

/-!
# Operands as text

A scan of a text keeps a stack of the brackets that are open.  An operand leaves the
stack as it was, and what separates operands from each other is found inside its
brackets only, so no context changes how it is divided.  Names and literals are
operands, and so is any nested text in brackets.
-/

namespace MiniZincModels

deriving instance DecidableEq for Bracket

namespace Bracket

def all : List Bracket := [round, square, curly]

/-- The bracket which a character opens. -/
def opened? (c : Char) : Option Bracket :=
  all.find? fun bracket => bracket.opening == c

/-- The bracket which a character closes. -/
def closed? (c : Char) : Option Bracket :=
  all.find? fun bracket => bracket.closing == c

/-- The open brackets behind a character, the innermost first.  A closing bracket has to
fit the innermost open one. -/
def step (stack : List Bracket) (c : Char) : Option (List Bracket) :=
  match opened? c, closed? c with
  | some bracket, _ => some (bracket :: stack)
  | none, some bracket => if stack.head? = some bracket then some stack.tail else none
  | none, none => some stack

/-- The open brackets behind a text. -/
def scan (stack : List Bracket) (text : List Char) : Option (List Bracket) :=
  text.foldlM step stack

section Scan

variable {stack after below : List Bracket} {left right text : List Char}

theorem step_opening (bracket : Bracket) (stack : List Bracket) :
    step stack bracket.opening = some (bracket :: stack) := by
  cases bracket <;> rfl

theorem step_closing (bracket : Bracket) (stack : List Bracket) :
    step (bracket :: stack) bracket.closing = some stack := by
  cases bracket <;> rfl

theorem scan_append :
    scan stack (left ++ right) = (scan stack left).bind fun after => scan after right :=
  List.foldlM_append

theorem scan_append_of_eq (hleft : scan stack left = some after) :
    scan stack (left ++ right) = scan after right := by
  rw [scan_append, hleft]
  rfl

theorem scan_cons_of_eq {c : Char} (hc : step stack c = some after) :
    scan stack (c :: text) = scan after text := by
  rw [scan, List.foldlM_cons, hc]
  rfl

/-- A character that can stand on a stack can stand on a higher one, and does not touch
the brackets below. -/
theorem step_append {c : Char} (h : step stack c = some after) (below : List Bracket) :
    step (stack ++ below) c = some (after ++ below) := by
  rw [step] at h ⊢
  split at h
  · cases h
    rfl
  · rename_i bracket _ _
    cases stack with
    | nil => simp at h
    | cons top rest =>
      simp only [List.head?_cons, List.tail_cons, List.cons_append, Option.some.injEq] at h ⊢
      by_cases htop : top = bracket
      · rw [if_pos htop] at h ⊢
        cases h
        rfl
      · rw [if_neg htop] at h
        cases h
  · cases h
    rfl

theorem scan_append_stack (h : scan stack text = some after) (below : List Bracket) :
    scan (stack ++ below) text = some (after ++ below) := by
  induction text generalizing stack with
  | nil =>
    cases h
    rfl
  | cons c rest ih =>
    rw [scan, List.foldlM_cons, Option.bind_eq_bind, Option.bind_eq_some_iff] at h
    obtain ⟨middle, hstep, hrest⟩ := h
    rw [scan_cons_of_eq (step_append hstep below)]
    exact ih hrest

end Scan

end Bracket

namespace Text

/-- The characters which a scan takes account of, and those which separate operands. -/
def marks : List Char := Form.openings ++ Form.separators

/-- Every closing bracket of the text closes the innermost open one, and at the end none is open. -/
def IsNested (text : String) : Prop :=
  Bracket.scan [] text.toList = some []

instance (text : String) : Decidable (IsNested text) :=
  inferInstanceAs (Decidable (Bracket.scan [] text.toList = some []))

/-- The character occurs outside all brackets: those opened before it are closed before it. -/
def OccursOutside (c : Char) (text : String) : Prop :=
  ∃ before after, text.toList = before ++ c :: after ∧ Bracket.scan [] before = some []

/-- A nested text in which nothing outside the brackets separates operands. -/
structure IsOperand (text : String) : Prop where
  nested : IsNested text
  noSpace : ¬ OccursOutside ' ' text
  noComma : ¬ OccursOutside ',' text

variable {left right separator text : String} {texts : List String}

theorem IsNested.append (hleft : IsNested left) (hright : IsNested right) :
    IsNested (left ++ right) := by
  rw [IsNested, String.toList_append, Bracket.scan_append_of_eq hleft]
  exact hright

theorem isNested_intercalate (hseparator : IsNested separator)
    (htexts : ∀ text ∈ texts, IsNested text) : IsNested (separator.intercalate texts) := by
  induction texts with
  | nil => rfl
  | cons first rest ih =>
    rw [List.forall_mem_cons] at htexts
    cases rest with
    | nil => simpa using htexts.1
    | cons second rest =>
      rw [String.intercalate_cons_cons]
      exact (htexts.1.append hseparator).append (ih htexts.2)

/-- What occurs outside two texts put together occurs outside one of them. -/
theorem OccursOutside.of_append {c : Char} (h : OccursOutside c (left ++ right))
    (hleft : IsNested left) : OccursOutside c left ∨ OccursOutside c right := by
  obtain ⟨before, after, htext, hbefore⟩ := h
  rw [String.toList_append, List.append_eq_append_iff] at htext
  rcases htext with ⟨inner, rfl, hright⟩ | ⟨inner, hinner, hafter⟩
  · rw [Bracket.scan_append_of_eq hleft] at hbefore
    exact .inr ⟨inner, after, hright, hbefore⟩
  · cases inner with
    | nil => exact .inr ⟨[], after, by simpa using hafter.symm, rfl⟩
    | cons first inner =>
      obtain ⟨rfl, -⟩ := List.cons.inj hafter
      exact .inl ⟨before, inner, hinner, hbefore⟩

theorem IsOperand.append (hleft : IsOperand left) (hright : IsOperand right) :
    IsOperand (left ++ right) where
  nested := hleft.nested.append hright.nested
  noSpace h := (h.of_append hleft.nested).elim hleft.noSpace hright.noSpace
  noComma h := (h.of_append hleft.nested).elim hleft.noComma hright.noComma

/-- A bracket around a nested text leaves nothing outside but itself. -/
theorem OccursOutside.eq_opening {c : Char} {bracket : Bracket} (htext : IsNested text)
    (h : OccursOutside c (bracket.opening.toString ++ text ++ bracket.closing.toString)) :
    c = bracket.opening := by
  obtain ⟨before, after, hwhole, hbefore⟩ := h
  have hlist : bracket.opening :: (text.toList ++ [bracket.closing]) = before ++ c :: after := by
    simpa using hwhole
  cases before with
  | nil => exact (List.cons.inj hlist).1.symm
  | cons first inner =>
    obtain ⟨rfl, hrest⟩ := List.cons.inj hlist
    have hprefix : inner <+: text.toList := by
      rcases List.prefix_concat_iff.mp ⟨c :: after, hrest.symm⟩ with rfl | hprefix
      · simp at hrest
      · exact hprefix
    obtain ⟨rest, hinner⟩ := hprefix
    -- the text never closes the bracket around it
    rw [IsNested, ← hinner, Bracket.scan_append, Option.bind_eq_some_iff] at htext
    obtain ⟨stack, hstack, -⟩ := htext
    have hscan : Bracket.scan [bracket] inner = some (stack ++ [bracket]) :=
      Bracket.scan_append_stack hstack [bracket]
    rw [Bracket.scan_cons_of_eq (Bracket.step_opening bracket []), hscan] at hbefore
    simp at hbefore

theorem isOperand_enclosed (bracket : Bracket) (htext : IsNested text) :
    IsOperand (bracket.opening.toString ++ text ++ bracket.closing.toString) where
  nested := by
    have hlist : (bracket.opening.toString ++ text ++ bracket.closing.toString).toList =
        bracket.opening :: (text.toList ++ [bracket.closing]) := by simp
    have hinner : Bracket.scan [bracket] text.toList = some [bracket] :=
      Bracket.scan_append_stack htext [bracket]
    rw [IsNested, hlist, Bracket.scan_cons_of_eq (Bracket.step_opening bracket []),
      Bracket.scan_append_of_eq hinner,
      Bracket.scan_cons_of_eq (Bracket.step_closing bracket [])]
    rfl
  noSpace h := absurd (h.eq_opening htext) (by cases bracket <;> decide)
  noComma h := absurd (h.eq_opening htext) (by cases bracket <;> decide)

theorem isOperand_round (htext : IsNested text) : IsOperand ("(" ++ text ++ ")") :=
  isOperand_enclosed .round htext

theorem isOperand_square (htext : IsNested text) : IsOperand ("[" ++ text ++ "]") :=
  isOperand_enclosed .square htext

theorem isOperand_curly (htext : IsNested text) : IsOperand ("\x7b" ++ text ++ "\x7d") :=
  isOperand_enclosed .curly htext

/-- A character other than a bracket leaves the stack as it is. -/
theorem step_of_not_mem_marks {c : Char} (hc : c ∉ marks) (stack : List Bracket) :
    Bracket.step stack c = some stack := by
  have hopened : Bracket.opened? c = none := by
    rw [Bracket.opened?, List.find?_eq_none]
    rintro bracket - heq
    rw [beq_iff_eq] at heq
    exact hc (heq ▸ List.mem_append_left _ (Form.opening_mem bracket))
  have hclosed : Bracket.closed? c = none := by
    rw [Bracket.closed?, List.find?_eq_none]
    rintro bracket - heq
    rw [beq_iff_eq] at heq
    exact hc (heq ▸ List.mem_append_right _ (Form.closing_mem bracket))
  rw [Bracket.step, hopened, hclosed]

theorem isOperand_of_forall (h : ∀ c ∈ text.toList, c ∉ marks) : IsOperand text where
  nested := by
    rw [IsNested]
    generalize text.toList = characters at h
    induction characters with
    | nil => rfl
    | cons c rest ih =>
      rw [List.forall_mem_cons] at h
      rw [Bracket.scan_cons_of_eq (step_of_not_mem_marks h.1 [])]
      exact ih h.2
  noSpace := by
    rintro ⟨before, after, htext, -⟩
    exact absurd (h ' ' (by simp [htext])) (by decide)
  noComma := by
    rintro ⟨before, after, htext, -⟩
    exact absurd (h ',' (by simp [htext])) (by decide)

/-! ## Literals and names -/

theorem not_mem_marks_of_isWordCharacter {c : Char} (h : Form.isWordCharacter c = true) :
    c ∉ marks := by
  intro hmem
  have hmark : Form.isWordCharacter c = false := by
    rcases List.mem_append.mp hmem with hopening | hseparator
    · exact Form.isWordCharacter_opening c hopening
    · exact Form.isWordCharacter_separator c hseparator
  rw [h] at hmark
  cases hmark

theorem not_mem_marks_of_isDigit {c : Char} (h : c.isDigit = true) : c ∉ marks := by
  have hdigits : ∀ d ∈ ['0', '1', '2', '3', '4', '5', '6', '7', '8', '9'], d ∉ marks := by decide
  exact forall_isDigit hdigits h

theorem isOperand_integerText (value : Int64) : IsOperand (integerText value) := by
  apply isOperand_of_forall
  intro c hc
  rcases isDigit_or_eq_of_mem_integerText hc with hdigit | rfl
  · exact not_mem_marks_of_isDigit hdigit
  · decide

theorem isOperand_floatText (value : Binary64) : IsOperand value.text := by
  apply isOperand_of_forall
  by_cases hvalue : value = .nan
  · subst hvalue
    decide
  · intro c hc
    have hcharacter := Binary64.isNumberCharacter_of_mem_text hvalue c hc
    rw [Binary64.isNumberCharacter, Bool.or_eq_true, List.contains_iff_mem] at hcharacter
    rcases hcharacter with hdigit | hletter
    · exact not_mem_marks_of_isDigit hdigit
    · have hletters : ∀ letter ∈ ['.', 'e', '-', 'i', 'n', 'f'], letter ∉ marks := by decide
      exact hletters c hletter

theorem isOperand_of_isValid {name : String} (hvalid : Identifier.isValid name = true) :
    IsOperand name := by
  apply isOperand_of_forall
  intro c hc
  apply not_mem_marks_of_isWordCharacter
  rw [Form.isWordCharacter, Identifier.isNameCharacter_of_mem hvalid c hc, Bool.true_or]

theorem isOperand_setText (values : IntSet) : IsOperand values.text := by
  have helements : ∀ part ∈ values.elements.map integerText, IsNested part :=
    List.forall_mem_map.mpr fun value _ => (isOperand_integerText value).nested
  exact isOperand_curly (isNested_intercalate (by decide) helements)

/-! ## Signs -/

/-- The text begins with a minus sign. -/
def IsSigned (text : String) : Prop :=
  text.toList.head? = some '-'

instance (text : String) : Decidable (IsSigned text) :=
  inferInstanceAs (Decidable (text.toList.head? = some '-'))

theorem isSigned_append (hne : left ≠ "") : IsSigned (left ++ right) ↔ IsSigned left := by
  have hhead : ∃ c rest, left.toList = c :: rest :=
    List.exists_cons_of_ne_nil fun hnil => hne (String.toList_eq_nil_iff.mp hnil)
  obtain ⟨c, rest, hleft⟩ := hhead
  simp [IsSigned, hleft]

theorem not_isSigned_round (text : String) : ¬ IsSigned ("(" ++ text ++ ")") := by
  rw [String.append_assoc, isSigned_append (by decide)]
  decide

theorem not_isSigned_setText (values : IntSet) : ¬ IsSigned values.text := by
  rw [IntSet.text, String.append_assoc, isSigned_append (by decide)]
  decide

theorem not_isSigned_of_isDigit {first : Char} {rest : List Char}
    (htext : text.toList = first :: rest) (hfirst : first.isDigit = true) : ¬ IsSigned text := by
  rw [IsSigned, htext, List.head?_cons, Option.some.injEq]
  rintro rfl
  exact absurd hfirst (by decide)

/-- A machine integer shows its sign exactly if it lies below zero. -/
theorem not_isSigned_integerText {value : Int64} (hvalue : ¬ value.toInt < 0) :
    ¬ IsSigned (integerText value) := by
  have htext := toList_integerText value
  rw [if_neg hvalue, List.nil_append] at htext
  obtain ⟨first, rest, hdigits⟩ :=
    List.exists_cons_of_ne_nil (Nat.toDigits_ne_nil : Nat.toDigits 10 value.toInt.natAbs ≠ [])
  rw [hdigits] at htext
  have hfirst : first.isDigit = true :=
    isDigit_of_mem_toDigits first (hdigits ▸ List.mem_cons_self)
  exact not_isSigned_of_isDigit htext hfirst

theorem not_isSigned_of_isValid {name : String} (hvalid : Identifier.isValid name = true) :
    ¬ IsSigned name := by
  obtain ⟨first, rest, hname, hfirst⟩ := Identifier.exists_head hvalid
  rw [IsSigned, hname, List.head?_cons, Option.some.injEq]
  rintro rfl
  exact absurd hfirst (by decide)

end Text

namespace Binary64

variable {magnitude : Magnitude}

theorem less_zero_of_negative (hmagnitude : magnitude ≠ .zero) :
    (finite true magnitude).less (finite false .zero) = true := by
  have hsignificand : 0 < magnitude.significand :=
    Nat.pos_of_ne_zero fun hzero => hmagnitude (eq_zero_of_significand hzero)
  have hunits : 0 < magnitude.units :=
    Nat.mul_pos hsignificand (Nat.pow_pos (by decide))
  have hzero : Magnitude.zero.units = 0 := by decide
  simp only [less, position?, hzero, if_true, Bool.false_eq_true, if_false, decide_eq_true_eq]
  omega

theorem infinity_less_zero : (infinity true).less (finite false .zero) = true := by
  have hunit : (finite true ⟨1, 0, by decide⟩).position? = some (-1) := rfl
  have hplace : -beyondFinite ≤ -1 := neg_beyondFinite_le hunit
  have hzero : Magnitude.zero.units = 0 := by decide
  simp only [less, position?, hzero, if_true, Bool.false_eq_true, if_false, decide_eq_true_eq]
  omega

theorem not_isSigned_text (magnitude : Magnitude) :
    ¬ Text.IsSigned (finite false magnitude).text := by
  obtain ⟨first, rest, hmagnitude, hfirst⟩ := (isLiteral_magnitudeText magnitude).head
  have htext : (finite false magnitude).text.toList = first :: rest := by
    rw [toList_text, hmagnitude]
    rfl
  exact Text.not_isSigned_of_isDigit htext hfirst

end Binary64

end MiniZincModels
