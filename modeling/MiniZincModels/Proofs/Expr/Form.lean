import MiniZincModels.Proofs.Text.Characters

/-!
# Forms of concrete syntax

The text of an expression has one of four forms: a word, a bracket around a list
of elements behind a name that may be empty, operands joined by an operator, or
a choice.  A form in front of a separator can be read back from the text in one
way only.
-/

namespace MiniZincModels

inductive Bracket
  | round
  | square
  | curly

namespace Bracket

def opening : Bracket → Char
  | round => '('
  | square => '['
  | curly => '\x7b'

def closing : Bracket → Char
  | round => ')'
  | square => ']'
  | curly => '\x7d'

theorem opening_injective : Function.Injective opening := by
  intro left right heq
  cases left <;> cases right <;> first | rfl | exact absurd heq (by decide)

end Bracket

inductive Form
  | word (name : String)
  | enclosed (name : String) (bracket : Bracket) (elements : List Form)
  /-- At least two operands with the same operator between any two neighbours. -/
  | joined (token : String) (first : Form) (rest : List Form)
  | choice (test thenForm elseForm : Form)

namespace Form

mutual

def text : Form → List Char
  | word name => name.toList
  | enclosed name bracket elements =>
    name.toList ++ bracket.opening :: (listed elements ++ [bracket.closing])
  | joined token first rest =>
    '(' :: (first.text ++ (following (' ' :: (token.toList ++ [' '])) rest ++ [')']))
  | choice test thenForm elseForm =>
    '(' :: ("if ".toList ++ (test.text ++ (" then ".toList ++ (thenForm.text ++
      (" else ".toList ++ (elseForm.text ++ " endif)".toList))))))

/-- Elements with a comma between any two of them. -/
def listed : List Form → List Char
  | [] => []
  | first :: rest => first.text ++ following ", ".toList rest

/-- Further elements, each behind a separator. -/
def following (separator : List Char) : List Form → List Char
  | [] => []
  | first :: rest => separator ++ (first.text ++ following separator rest)

end

/-- The characters of names and numerals. -/
def isWordCharacter (c : Char) : Bool :=
  Identifier.isNameCharacter c || c == '-'

def IsWord (name : String) : Prop :=
  ∀ c ∈ name.toList, isWordCharacter c = true

instance (name : String) : Decidable (IsWord name) :=
  inferInstanceAs (Decidable (∀ c ∈ name.toList, isWordCharacter c = true))

mutual

/-- No word may be empty or open a choice, and an operator holds no blank. -/
def Proper : Form → Prop
  | word name => IsWord name ∧ name ≠ "" ∧ name ≠ "if"
  | enclosed name _ elements => IsWord name ∧ AllProper elements
  | joined token first rest =>
    ' ' ∉ token.toList ∧ rest ≠ [] ∧ first.Proper ∧ AllProper rest
  | choice test thenForm elseForm => test.Proper ∧ thenForm.Proper ∧ elseForm.Proper

def AllProper : List Form → Prop
  | [] => True
  | first :: rest => first.Proper ∧ AllProper rest

end

theorem allProper_iff {forms : List Form} :
    AllProper forms ↔ ∀ form ∈ forms, form.Proper := by
  induction forms with
  | nil => simp [AllProper]
  | cons first rest ih => simp [AllProper, ih]

/-- The name in front of the first bracket. -/
def lead : Form → List Char
  | word name => name.toList
  | enclosed name _ _ => name.toList
  | joined _ _ _ => []
  | choice _ _ _ => []

/-- The text from the first bracket on. -/
def body : Form → List Char
  | word _ => []
  | enclosed _ bracket elements => bracket.opening :: (listed elements ++ [bracket.closing])
  | joined token first rest => (joined token first rest).text
  | choice test thenForm elseForm => (choice test thenForm elseForm).text

theorem text_eq (form : Form) : form.text = form.lead ++ form.body := by
  cases form <;> simp [lead, body, text]

theorem isWordCharacter_of_mem_lead {form : Form} (hproper : form.Proper) :
    ∀ c ∈ form.lead, isWordCharacter c = true := by
  cases form with
  | word name => exact hproper.1
  | enclosed name bracket elements => exact hproper.1
  | joined token first rest => simp [lead]
  | choice test thenForm elseForm => simp [lead]

def openings : List Char := ['(', '[', '\x7b']

/-- The characters which can stand behind a form. -/
def separators : List Char := [',', ' ', ')', ']', '\x7d']

theorem isWordCharacter_opening : ∀ c ∈ openings, isWordCharacter c = false := by
  decide

theorem isWordCharacter_separator : ∀ c ∈ separators, isWordCharacter c = false := by
  decide

theorem opening_not_separator : ∀ c ∈ openings, c ∉ separators := by
  decide

theorem opening_mem (bracket : Bracket) : bracket.opening ∈ openings := by
  cases bracket <;> decide

theorem closing_mem (bracket : Bracket) : bracket.closing ∈ separators := by
  cases bracket <;> decide

/-- A text that is empty or starts with a separator. -/
def Ends (rest : List Char) : Prop :=
  ∀ c ∈ rest.head?, c ∈ separators

instance (rest : List Char) : Decidable (Ends rest) :=
  inferInstanceAs (Decidable (∀ c ∈ rest.head?, c ∈ separators))

theorem ends_nil : Ends [] := by
  decide

theorem ends_cons {c : Char} {rest : List Char} : Ends (c :: rest) ↔ c ∈ separators := by
  simp [Ends]

theorem ends_append {word rest : List Char} (hword : Ends word) (hne : word ≠ []) :
    Ends (word ++ rest) := by
  obtain ⟨first, others, rfl⟩ := List.exists_cons_of_ne_nil hne
  exact ends_cons.mpr (ends_cons.mp hword)

theorem head_body (form : Form) {c : Char} (hc : c ∈ form.body.head?) : c ∈ openings := by
  cases form with
  | word name => simp [body] at hc
  | enclosed name bracket elements =>
    obtain rfl : bracket.opening = c := by simpa [body] using hc
    exact opening_mem bracket
  | joined token first rest =>
    obtain rfl : '(' = c := by simpa [body, text] using hc
    decide
  | choice test thenForm elseForm =>
    obtain rfl : '(' = c := by simpa [body, text] using hc
    decide

theorem isWordCharacter_head {form : Form} {rest : List Char} (hrest : Ends rest) :
    ∀ c ∈ (form.body ++ rest).head?, isWordCharacter c = false := by
  intro c hc
  cases hbody : form.body with
  | nil =>
    rw [hbody] at hc
    exact isWordCharacter_separator c (hrest c hc)
  | cons first others =>
    apply isWordCharacter_opening c
    apply head_body form
    rw [hbody] at hc ⊢
    exact hc

/-- Two runs of one class of characters are equal if the texts behind them do not
go on with that class. -/
theorem run_append_inj {p : Char → Bool} {left right before after : List Char}
    (hleft : ∀ c ∈ left, p c = true) (hright : ∀ c ∈ right, p c = true)
    (hbefore : ∀ c ∈ before.head?, p c = false) (hafter : ∀ c ∈ after.head?, p c = false)
    (heq : left ++ before = right ++ after) : left = right ∧ before = after := by
  induction left generalizing right with
  | nil =>
    cases right with
    | nil => exact ⟨rfl, heq⟩
    | cons first rest =>
      rw [List.nil_append] at heq
      have hfalse := hbefore first (by simp [heq])
      rw [hright first List.mem_cons_self] at hfalse
      cases hfalse
  | cons head tail ih =>
    cases right with
    | nil =>
      rw [List.nil_append] at heq
      have hfalse := hafter head (by simp [← heq])
      rw [hleft head List.mem_cons_self] at hfalse
      cases hfalse
    | cons first rest =>
      rw [List.cons_append, List.cons_append, List.cons.injEq] at heq
      obtain ⟨rfl, htails⟩ := heq
      have hrest := ih (fun c hc => hleft c (List.mem_cons_of_mem _ hc))
        (fun c hc => hright c (List.mem_cons_of_mem _ hc)) htails
      exact ⟨by rw [hrest.1], hrest.2⟩

section Reading

variable {left right form : Form} {before after rest : List Char}

theorem lead_append_inj (hleft : left.Proper) (hright : right.Proper)
    (hbefore : Ends before) (hafter : Ends after)
    (heq : left.text ++ before = right.text ++ after) :
    left.lead = right.lead ∧ left.body ++ before = right.body ++ after := by
  rw [text_eq, text_eq, List.append_assoc, List.append_assoc] at heq
  exact run_append_inj (isWordCharacter_of_mem_lead hleft) (isWordCharacter_of_mem_lead hright)
    (isWordCharacter_head hbefore) (isWordCharacter_head hafter) heq

theorem exists_head_text (hproper : form.Proper) :
    ∃ c tail, form.text = c :: tail ∧ c ∉ separators := by
  cases hlead : form.lead with
  | cons first others =>
    refine ⟨first, others ++ form.body, by rw [text_eq, hlead, List.cons_append], ?_⟩
    intro hmem
    have hword := isWordCharacter_of_mem_lead hproper first (by simp [hlead])
    rw [isWordCharacter_separator first hmem] at hword
    cases hword
  | nil =>
    cases hbody : form.body with
    | cons first others =>
      have hopening : first ∈ openings := head_body form (by simp [hbody])
      have htext : form.text = first :: others := by
        rw [text_eq, hlead, hbody]
        rfl
      exact ⟨first, others, htext, opening_not_separator first hopening⟩
    | nil =>
      cases form with
      | word name => exact absurd (String.toList_eq_nil_iff.mp hlead) hproper.2.1
      | enclosed name bracket elements => cases hbody
      | joined token first rest => cases hbody
      | choice test thenForm elseForm => cases hbody

/-- No form can be read where a separator stands. -/
theorem text_append_ne (hproper : form.Proper) {c : Char} (hc : c ∈ separators) :
    form.text ++ before ≠ c :: rest := by
  intro heq
  obtain ⟨first, tail, htext, hfirst⟩ := exists_head_text hproper
  rw [htext, List.cons_append, List.cons.injEq] at heq
  exact hfirst (heq.1 ▸ hc)

/-- No form can be read where a choice goes on behind its bracket. -/
theorem text_append_ne_if (hproper : form.Proper) (hbefore : Ends before) :
    form.text ++ before ≠ "if ".toList ++ rest := by
  intro heq
  rw [text_eq, List.append_assoc] at heq
  have hparts : form.lead = "if".toList ∧ form.body ++ before = ' ' :: rest :=
    run_append_inj (isWordCharacter_of_mem_lead hproper) (by decide) (isWordCharacter_head hbefore)
      (by simp; decide) heq
  obtain ⟨hlead, hbody⟩ := hparts
  cases form with
  | word name => exact hproper.2.2 (String.toList_inj.mp hlead)
  | enclosed name bracket elements =>
    have hopening := opening_mem bracket
    rw [body, List.cons_append, List.cons.injEq] at hbody
    rw [hbody.1] at hopening
    exact absurd hopening (by decide)
  | joined token first rest => cases hlead
  | choice test thenForm elseForm => cases hlead

theorem ends_following {head closing : Char} {tail : List Char} {forms : List Form}
    (hhead : head ∈ separators) (hclosing : closing ∈ separators) :
    Ends (following (head :: tail) forms ++ closing :: rest) := by
  cases forms with
  | nil => exact ends_cons.mpr hclosing
  | cons first others => exact ends_cons.mpr hhead

theorem body_append_ne (hbody : form.body ≠ []) (hrest : Ends rest) :
    form.body ++ before ≠ rest := by
  intro heq
  cases hform : form.body with
  | nil => exact hbody hform
  | cons first others =>
    have hopening : first ∈ openings := head_body form (by simp [hform])
    have hseparator : first ∈ separators := hrest first (by simp [← heq, hform])
    exact opening_not_separator first hopening hseparator

theorem enclosed_append_ne_choice {name : String} {bracket : Bracket} {elements : List Form}
    {test thenForm elseForm : Form} (hproper : (enclosed name bracket elements).Proper) :
    (enclosed name bracket elements).body ++ before ≠
      (choice test thenForm elseForm).body ++ after := by
  intro heq
  rw [body, body, text, List.cons_append, List.cons_append, List.cons.injEq] at heq
  cases elements with
  | nil =>
    have hclosing : bracket.closing ∈ separators := closing_mem bracket
    rw [(List.cons.inj heq.2).1] at hclosing
    exact absurd hclosing (by decide)
  | cons first rest =>
    have hinner := heq.2
    rw [listed, List.append_assoc, List.append_assoc, List.append_assoc,
      List.append_assoc] at hinner
    exact text_append_ne_if hproper.2.1
      (ends_following (by decide) (closing_mem bracket)) hinner

theorem joined_append_ne_choice {token : String} {first : Form} {rest : List Form}
    {test thenForm elseForm : Form} (hproper : (joined token first rest).Proper) :
    (joined token first rest).body ++ before ≠ (choice test thenForm elseForm).body ++ after := by
  intro heq
  rw [body, body, text, text, List.cons_append, List.cons_append, List.cons.injEq] at heq
  have hinner := heq.2
  rw [List.append_assoc, List.append_assoc, List.append_assoc] at hinner
  exact text_append_ne_if hproper.2.2.1 (ends_following (by decide) (by decide)) hinner

/-- Behind its first element, a list does not go on like joined operands. -/
theorem following_append_ne {closing : Char} {tail : List Char} {forms operands : List Form}
    (hclosing : closing ≠ ' ') (hoperands : operands ≠ []) :
    following ", ".toList forms ++ closing :: before ≠
      following (' ' :: tail) operands ++ after := by
  intro heq
  cases operands with
  | nil => exact hoperands rfl
  | cons operand operands =>
    cases forms with
    | nil => exact hclosing (List.cons.inj heq).1
    | cons first others => exact absurd (List.cons.inj heq).1 (by decide)

/-- An operator is determined by the text from the blank in front of it on. -/
theorem token_append_inj {token other : String} {operands others : List Form}
    (htoken : ' ' ∉ token.toList) (hother : ' ' ∉ other.toList) (hoperands : operands ≠ [])
    (hothers : others ≠ [])
    (heq : following (' ' :: (token.toList ++ [' '])) operands ++ before =
      following (' ' :: (other.toList ++ [' '])) others ++ after) : token = other := by
  obtain ⟨operand, operands, rfl⟩ := List.exists_cons_of_ne_nil hoperands
  obtain ⟨second, others, rfl⟩ := List.exists_cons_of_ne_nil hothers
  simp only [following, List.cons_append, List.append_assoc, List.cons.injEq, true_and,
    List.nil_append] at heq
  have hparts := run_append_inj (p := fun c => c != ' ')
    (by intro c hc; simpa using fun (hblank : c = ' ') => htoken (hblank ▸ hc))
    (by intro c hc; simpa using fun (hblank : c = ' ') => hother (hblank ▸ hc))
    (by simp) (by simp) heq
  exact String.toList_inj.mp hparts.1

end Reading

mutual

/-- A form in front of a separator is determined by the text. -/
theorem text_append_inj (left right : Form) (before after : List Char)
    (hleft : left.Proper) (hright : right.Proper) (hbefore : Ends before) (hafter : Ends after)
    (heq : left.text ++ before = right.text ++ after) : left = right ∧ before = after := by
  obtain ⟨hlead, hbody⟩ := lead_append_inj hleft hright hbefore hafter heq
  match left, right with
  | word name, word other => exact ⟨by rw [String.toList_inj.mp hlead], hbody⟩
  | word name, enclosed other bracket elements =>
    exact absurd hbody.symm (body_append_ne (by simp [body]) hbefore)
  | word name, joined token first rest =>
    exact absurd hbody.symm (body_append_ne (by simp [body, text]) hbefore)
  | word name, choice test thenForm elseForm =>
    exact absurd hbody.symm (body_append_ne (by simp [body, text]) hbefore)
  | enclosed name bracket elements, word other =>
    exact absurd hbody (body_append_ne (by simp [body]) hafter)
  | joined token first rest, word other =>
    exact absurd hbody (body_append_ne (by simp [body, text]) hafter)
  | choice test thenForm elseForm, word other =>
    exact absurd hbody (body_append_ne (by simp [body, text]) hafter)
  | enclosed name bracket elements, enclosed other otherBracket others =>
    simp only [body, List.cons_append, List.append_assoc, List.cons.injEq] at hbody
    obtain rfl := Bracket.opening_injective hbody.1
    obtain ⟨rfl, hrest⟩ := listed_append_inj bracket elements others before after hleft.2 hright.2
      hbody.2
    exact ⟨by rw [String.toList_inj.mp hlead], hrest⟩
  | enclosed name bracket [], joined token first rest =>
    simp only [body, text, listed, List.nil_append, List.cons_append, List.append_assoc,
      List.cons.injEq] at hbody
    exact absurd hbody.2.symm (text_append_ne hright.2.2.1 (closing_mem bracket))
  | joined token first rest, enclosed name bracket [] =>
    simp only [body, text, listed, List.nil_append, List.cons_append, List.append_assoc,
      List.cons.injEq] at hbody
    exact absurd hbody.2 (text_append_ne hleft.2.2.1 (closing_mem bracket))
  | enclosed name bracket (element :: elements), joined token first rest =>
    simp only [body, text, listed, List.nil_append, List.cons_append, List.append_assoc,
      List.cons.injEq] at hbody
    obtain ⟨-, hrests⟩ := text_append_inj element first _ _ hleft.2.1 hright.2.2.1
      (ends_following (by decide) (closing_mem bracket)) (ends_following (by decide) (by decide))
      hbody.2
    exact absurd hrests (following_append_ne (by cases bracket <;> decide) hright.2.1)
  | joined token first rest, enclosed name bracket (element :: elements) =>
    simp only [body, text, listed, List.nil_append, List.cons_append, List.append_assoc,
      List.cons.injEq] at hbody
    obtain ⟨-, hrests⟩ := text_append_inj first element _ _ hleft.2.2.1 hright.2.1
      (ends_following (by decide) (by decide)) (ends_following (by decide) (closing_mem bracket))
      hbody.2
    exact absurd hrests.symm (following_append_ne (by cases bracket <;> decide) hleft.2.1)
  | enclosed name bracket elements, choice test thenForm elseForm =>
    exact absurd hbody (enclosed_append_ne_choice hleft)
  | choice test thenForm elseForm, enclosed name bracket elements =>
    exact absurd hbody.symm (enclosed_append_ne_choice hright)
  | joined token first rest, choice test thenForm elseForm =>
    exact absurd hbody (joined_append_ne_choice hleft)
  | choice test thenForm elseForm, joined token first rest =>
    exact absurd hbody.symm (joined_append_ne_choice hright)
  | joined token first rest, joined other second others =>
    simp only [body, text, List.cons_append, List.append_assoc, List.cons.injEq, true_and,
      List.nil_append] at hbody
    obtain ⟨rfl, hrests⟩ := text_append_inj first second _ _ hleft.2.2.1 hright.2.2.1
      (ends_following (by decide) (by decide)) (ends_following (by decide) (by decide)) hbody
    obtain rfl := token_append_inj hleft.1 hright.1 hleft.2.1 hright.2.1 hrests
    obtain ⟨rfl, htexts⟩ := following_append_inj ' ' ')' (token.toList ++ [' ']) rest others
      before after (by decide) (by decide) (by decide) hleft.2.2.2 hright.2.2.2 hrests
    exact ⟨rfl, htexts⟩
  | choice test thenForm elseForm, choice otherTest otherThen otherElse =>
    simp only [body, text, List.cons_append, List.append_assoc, List.cons.injEq, true_and,
      List.append_cancel_left_eq] at hbody
    obtain ⟨rfl, hthen⟩ := text_append_inj test otherTest _ _ hleft.1 hright.1
      (ends_append (by decide) (by decide)) (ends_append (by decide) (by decide)) hbody
    rw [List.append_cancel_left_eq] at hthen
    obtain ⟨rfl, helse⟩ := text_append_inj thenForm otherThen _ _ hleft.2.1 hright.2.1
      (ends_append (by decide) (by decide)) (ends_append (by decide) (by decide)) hthen
    rw [List.append_cancel_left_eq] at helse
    obtain ⟨rfl, htexts⟩ := text_append_inj elseForm otherElse _ _ hleft.2.2 hright.2.2
      (ends_append (by decide) (by decide)) (ends_append (by decide) (by decide)) helse
    exact ⟨rfl, List.append_cancel_left htexts⟩

theorem listed_append_inj (bracket : Bracket) (left right : List Form) (before after : List Char)
    (hleft : AllProper left) (hright : AllProper right)
    (heq : listed left ++ bracket.closing :: before = listed right ++ bracket.closing :: after) :
    left = right ∧ before = after := by
  have hclosing := closing_mem bracket
  match left, right with
  | [], [] =>
    rw [listed, List.nil_append, List.nil_append, List.cons.injEq] at heq
    exact ⟨rfl, heq.2⟩
  | [], first :: rest =>
    rw [listed, listed, List.nil_append, List.append_assoc] at heq
    exact absurd heq.symm (text_append_ne hright.1 hclosing)
  | first :: rest, [] =>
    rw [listed, listed, List.nil_append, List.append_assoc] at heq
    exact absurd heq (text_append_ne hleft.1 hclosing)
  | first :: rest, other :: others =>
    rw [listed, listed, List.append_assoc, List.append_assoc] at heq
    obtain ⟨rfl, hrests⟩ := text_append_inj first other _ _ hleft.1 hright.1
      (ends_following (by decide) hclosing) (ends_following (by decide) hclosing) heq
    obtain ⟨rfl, htexts⟩ := following_append_inj ',' bracket.closing [' '] rest others before after
      (by decide) hclosing (by cases bracket <;> decide) hleft.2 hright.2 hrests
    exact ⟨rfl, htexts⟩

theorem following_append_inj (head closing : Char) (tail : List Char) (left right : List Form)
    (before after : List Char) (hhead : head ∈ separators) (hclosing : closing ∈ separators)
    (hne : head ≠ closing) (hleft : AllProper left) (hright : AllProper right)
    (heq : following (head :: tail) left ++ closing :: before =
      following (head :: tail) right ++ closing :: after) : left = right ∧ before = after := by
  match left, right with
  | [], [] =>
    rw [following, List.nil_append, List.nil_append, List.cons.injEq] at heq
    exact ⟨rfl, heq.2⟩
  | [], first :: rest =>
    rw [following, following, List.nil_append, List.cons_append, List.cons_append,
      List.cons.injEq] at heq
    exact absurd heq.1.symm hne
  | first :: rest, [] =>
    rw [following, following, List.nil_append, List.cons_append, List.cons_append,
      List.cons.injEq] at heq
    exact absurd heq.1 hne
  | first :: rest, other :: others =>
    rw [following, following, List.append_assoc, List.append_assoc, List.append_assoc,
      List.append_assoc, List.append_cancel_left_eq] at heq
    obtain ⟨rfl, hrests⟩ := text_append_inj first other _ _ hleft.1 hright.1
      (ends_following hhead hclosing) (ends_following hhead hclosing) heq
    obtain ⟨rfl, htexts⟩ := following_append_inj head closing tail rest others before after
      hhead hclosing hne hleft.2 hright.2 hrests
    exact ⟨rfl, htexts⟩

end

end Form

end MiniZincModels
