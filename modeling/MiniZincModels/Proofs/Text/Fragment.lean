import MiniZincModels.IntSet
import MiniZincModels.Proofs.Binary64.Text
import MiniZincModels.Proofs.Identifier

/-!
# Fragments of items

An item ends with a semicolon.  What stands before it is a fragment: printable
characters, none of them a semicolon.  Names and literals are fragments, and
fragments are put together to fragments.
-/

namespace MiniZincModels.Text

/-- A printable ASCII character which ends no item. -/
def isInner (c : Char) : Bool :=
  32 ≤ c.toNat && c.toNat ≤ 126 && c != ';'

def IsFragment (text : String) : Prop :=
  ∀ c ∈ text.toList, isInner c = true

instance (text : String) : Decidable (IsFragment text) :=
  inferInstanceAs (Decidable (∀ c ∈ text.toList, isInner c = true))

/-- A printable text with one semicolon, which is its last character. -/
structure IsStatement (line : String) : Prop where
  printable : ∀ c ∈ line.toList, 32 ≤ c.toNat ∧ c.toNat ≤ 126
  ended : line.toList.getLast? = some ';'
  single : line.toList.count ';' = 1

variable {left right separator : String} {texts : List String}

theorem isFragment_append : IsFragment (left ++ right) ↔ IsFragment left ∧ IsFragment right := by
  simp [IsFragment, or_imp, forall_and]

theorem isFragment_between {middle : String} (hleft : IsFragment left) (hmiddle : IsFragment middle)
    (hright : IsFragment right) : IsFragment (left ++ middle ++ right) := by
  rw [isFragment_append, isFragment_append]
  exact ⟨⟨hleft, hmiddle⟩, hright⟩

theorem isFragment_intercalate (hseparator : IsFragment separator)
    (htexts : ∀ text ∈ texts, IsFragment text) : IsFragment (separator.intercalate texts) := by
  induction texts with
  | nil => simp [IsFragment]
  | cons first rest ih =>
    rw [List.forall_mem_cons] at htexts
    cases rest with
    | nil => simpa using htexts.1
    | cons second rest =>
      rw [String.intercalate_cons_cons]
      exact isFragment_between htexts.1 hseparator (ih htexts.2)

/-- A fragment and a semicolon behind it are a statement. -/
theorem IsFragment.isStatement {content : String} (h : IsFragment content) :
    IsStatement (content ++ ";") := by
  have hinner : ∀ c ∈ content.toList, (32 ≤ c.toNat ∧ c.toNat ≤ 126) ∧ c ≠ ';' := by
    intro c hc
    simpa [isInner] using h c hc
  have hlist : (content ++ ";").toList = content.toList ++ [';'] := String.toList_append
  constructor
  · rw [hlist, List.forall_mem_append]
    exact ⟨fun c hc => (hinner c hc).1, by decide⟩
  · rw [hlist, List.getLast?_concat]
  · have hnone : ';' ∉ content.toList := fun hmem => (hinner ';' hmem).2 rfl
    rw [hlist, List.count_append, List.count_eq_zero_of_not_mem hnone]
    rfl

theorem IsStatement.newline_not_mem {line : String} (h : IsStatement line) :
    '\n' ∉ line.toList :=
  fun hmem => absurd (h.printable '\n' hmem) (by decide)

/-! ## Literals and names -/

theorem isInner_of_isDigit {c : Char} (h : c.isDigit = true) : isInner c = true := by
  have hdigits : ∀ d ∈ ['0', '1', '2', '3', '4', '5', '6', '7', '8', '9'], isInner d = true := by
    decide
  exact forall_isDigit hdigits h

theorem isFragment_toString (value : Nat) : IsFragment (toString value) := by
  intro c hc
  have hdigits : c ∈ Nat.toDigits 10 value := by simpa [Nat.toList_repr] using hc
  exact isInner_of_isDigit (isDigit_of_mem_toDigits c hdigits)

theorem isFragment_integerText (value : Int64) : IsFragment (integerText value) := by
  intro c hc
  rcases isDigit_or_eq_of_mem_integerText hc with hdigit | rfl
  · exact isInner_of_isDigit hdigit
  · decide

theorem isFragment_of_isValid {name : String} (hvalid : Identifier.isValid name = true) :
    IsFragment name := by
  intro c hc
  have hrange := toNat_of_isNameCharacter (Identifier.isNameCharacter_of_mem hvalid c hc)
  have hsemicolon : c ≠ ';' := by
    rintro rfl
    exact absurd hrange (by decide)
  simp only [isInner, Bool.and_eq_true, decide_eq_true_eq, bne_iff_ne]
  exact ⟨by omega, hsemicolon⟩

theorem isFragment_setText (values : IntSet) : IsFragment values.text := by
  have helements : ∀ part ∈ values.elements.map integerText, IsFragment part :=
    List.forall_mem_map.mpr fun value _ => isFragment_integerText value
  exact isFragment_between (by decide) (isFragment_intercalate (by decide) helements) (by decide)

theorem isFragment_floatText (value : Binary64) : IsFragment value.text := by
  by_cases hvalue : value = .nan
  · subst hvalue
    decide
  · intro c hc
    have hcharacter := Binary64.isNumberCharacter_of_mem_text hvalue c hc
    rw [Binary64.isNumberCharacter, Bool.or_eq_true, List.contains_iff_mem] at hcharacter
    have hmarks : ∀ mark ∈ ['.', 'e', '-', 'i', 'n', 'f'], isInner mark = true := by decide
    rcases hcharacter with hdigit | hmark
    · exact isInner_of_isDigit hdigit
    · exact hmarks c hmark

end MiniZincModels.Text
