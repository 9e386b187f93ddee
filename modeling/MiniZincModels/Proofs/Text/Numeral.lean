import MiniZincModels.Proofs.Text.Characters
import MiniZincModels.Text.Numeral

/-!
# Numerals read back

The numeral of a machine integer consists of digits behind an optional minus
sign, and reading it gives the integer again.
-/

namespace MiniZincModels.Text

theorem isDigit_of_mem_toDigits {value : Nat} : ∀ c ∈ Nat.toDigits 10 value, c.isDigit = true :=
  fun _ hc => Nat.isDigit_of_mem_toDigits (by decide) (by decide) hc

theorem readNatural?_digits {digits : List Char} (hne : digits ≠ [])
    (hdigits : ∀ c ∈ digits, c.isDigit = true) :
    readNatural? digits = some (Nat.ofDigitChars 10 digits 0) := by
  rw [readNatural?, if_pos ⟨hne, List.all_eq_true.mpr hdigits⟩]

theorem readNatural?_toDigits (value : Nat) :
    readNatural? (Nat.toDigits 10 value) = some value := by
  rw [readNatural?_digits Nat.toDigits_ne_nil isDigit_of_mem_toDigits,
    Nat.ofDigitChars_ten_toDigits]

theorem toList_toString (value : Int) :
    (toString value).toList =
      (if value < 0 then ['-'] else []) ++ Nat.toDigits 10 value.natAbs := by
  change value.repr.toList = _
  rw [Int.repr_eq_if]
  by_cases hsign : value < 0
  · have hmagnitude : (-value).toNat = value.natAbs := by omega
    rw [if_neg (by omega), if_pos hsign, hmagnitude, String.toList_append, Nat.toList_repr]
    rfl
  · have hmagnitude : value.toNat = value.natAbs := by omega
    rw [if_pos (by omega), if_neg hsign, hmagnitude, Nat.toList_repr]
    rfl

theorem toList_integerText (value : Int64) :
    (integerText value).toList =
      (if value.toInt < 0 then ['-'] else []) ++ Nat.toDigits 10 value.toInt.natAbs :=
  toList_toString value.toInt

/-- A digit is no sign. -/
theorem splitSign_of_isDigit {first : Char} (rest : List Char) (hfirst : first.isDigit = true) :
    splitSign (first :: rest) = (false, first :: rest) := by
  rw [splitSign]
  · rintro others ⟨⟩
    exact absurd hfirst (by decide)
  · rintro others ⟨⟩
    exact absurd hfirst (by decide)

theorem splitSign_signed (negative : Bool) {first : Char} (rest : List Char)
    (hfirst : first.isDigit = true) :
    splitSign ((if negative then ['-'] else []) ++ first :: rest) = (negative, first :: rest) := by
  cases negative with
  | true => rfl
  | false => exact splitSign_of_isDigit rest hfirst

theorem splitSign_toDigits (value : Nat) :
    splitSign (Nat.toDigits 10 value) = (false, Nat.toDigits 10 value) := by
  cases h : Nat.toDigits 10 value with
  | nil => rfl
  | cons first rest =>
    have hfirst : first.isDigit = true :=
      isDigit_of_mem_toDigits first (h ▸ List.mem_cons_self)
    exact splitSign_of_isDigit rest hfirst

theorem toInt64?_eq_some {value : Int} {word : Int64} :
    toInt64? value = some word ↔ word.toInt = value := by
  constructor
  · exact toInt_toInt64?
  · rintro rfl
    exact toInt64?_toInt word

/-! ## Numerals of any size -/

/-- A whole number in decimal notation: digits behind an optional minus sign. -/
structure Numeral where
  negative : Bool
  digits : List Char
  digits_ne_nil : digits ≠ []
  isDigit : ∀ c ∈ digits, c.isDigit = true

namespace Numeral

def text (numeral : Numeral) : List Char :=
  (if numeral.negative then ['-'] else []) ++ numeral.digits

def magnitude (numeral : Numeral) : Nat :=
  Nat.ofDigitChars 10 numeral.digits 0

def value (numeral : Numeral) : Int :=
  if numeral.negative then -(numeral.magnitude : Int) else numeral.magnitude

/-- The value is that of a machine integer. -/
def Fits (numeral : Numeral) : Prop :=
  minInt64 ≤ numeral.value ∧ numeral.value ≤ maxInt64

instance (numeral : Numeral) : Decidable numeral.Fits :=
  inferInstanceAs (Decidable (_ ∧ _))

variable (numeral : Numeral)

theorem exists_digits_eq :
    ∃ first rest, numeral.digits = first :: rest ∧ first.isDigit = true := by
  obtain ⟨first, rest, heq⟩ := List.exists_cons_of_ne_nil numeral.digits_ne_nil
  exact ⟨first, rest, heq, numeral.isDigit first (heq ▸ List.mem_cons_self)⟩

theorem isDigit_or_eq_of_mem_text {c : Char} (h : c ∈ numeral.text) :
    c.isDigit = true ∨ c = '-' := by
  rw [text, List.mem_append] at h
  rcases h with hsign | hdigit
  · split at hsign <;> simp_all
  · exact .inl (numeral.isDigit c hdigit)

theorem text_ne {word : List Char} (hword : ∃ c ∈ word, c.isDigit = false ∧ c ≠ '-') :
    numeral.text ≠ word := by
  rintro rfl
  obtain ⟨c, hc, hdigit, hsign⟩ := hword
  rcases numeral.isDigit_or_eq_of_mem_text hc with h | h
  · rw [hdigit] at h
    cases h
  · exact hsign h

theorem text_ne_nil : numeral.text ≠ [] :=
  List.append_ne_nil_of_right_ne_nil _ numeral.digits_ne_nil

/-- A numeral is read as its value, unless it is too large. -/
theorem readInteger?_text : readInteger? numeral.text = toInt64? numeral.value := by
  obtain ⟨first, rest, heq, hfirst⟩ := numeral.exists_digits_eq
  have hmagnitude := readNatural?_digits numeral.digits_ne_nil numeral.isDigit
  rw [readInteger?, text, heq, splitSign_signed numeral.negative rest hfirst, ← heq]
  simp only [hmagnitude]
  rfl

variable {numeral}

theorem fits_iff : numeral.Fits ↔ ∃ word : Int64, word.toInt = numeral.value := by
  constructor
  · intro hfits
    exact ⟨_, toInt_toInt64? (if_pos hfits)⟩
  · rintro ⟨word, hword⟩
    have hlow := word.le_toInt
    have hhigh := word.toInt_lt
    rw [hword] at hlow hhigh
    exact ⟨hlow, Int.le_of_lt_add_one hhigh⟩

theorem toInt64?_eq_none (hfits : ¬ numeral.Fits) : toInt64? numeral.value = none :=
  if_neg hfits

/-- The numeral of a machine integer. -/
def ofInt64 (word : Int64) : Numeral where
  negative := decide (word.toInt < 0)
  digits := Nat.toDigits 10 word.toInt.natAbs
  digits_ne_nil := Nat.toDigits_ne_nil
  isDigit := isDigit_of_mem_toDigits

theorem text_ofInt64 (word : Int64) : (ofInt64 word).text = (integerText word).toList := by
  rw [toList_integerText, text, ofInt64]
  simp only [decide_eq_true_eq]

theorem value_ofInt64 (word : Int64) : (ofInt64 word).value = word.toInt := by
  rw [value, magnitude, ofInt64]
  simp only [decide_eq_true_eq, Nat.ofDigitChars_ten_toDigits]
  omega

end Numeral

theorem readInteger?_integerText (value : Int64) :
    readInteger? (integerText value).toList = some value := by
  rw [← Numeral.text_ofInt64, Numeral.readInteger?_text, Numeral.value_ofInt64, toInt64?_toInt]

/-- A numeral holds digits and at most a minus sign. -/
theorem isDigit_or_eq_of_mem_integerText {value : Int64} {c : Char}
    (h : c ∈ (integerText value).toList) : c.isDigit = true ∨ c = '-' :=
  (Numeral.ofInt64 value).isDigit_or_eq_of_mem_text (Numeral.text_ofInt64 value ▸ h)

theorem integerText_ne_empty (value : Int64) : integerText value ≠ "" := by
  intro heq
  have hnil : (integerText value).toList = [] := by rw [heq]; rfl
  simp [toList_integerText] at hnil

theorem integerText_ne {value : Int64} {word : String}
    (hword : ∃ c ∈ word.toList, c.isDigit = false ∧ c ≠ '-') : integerText value ≠ word := by
  intro heq
  exact (Numeral.ofInt64 value).text_ne hword (by rw [Numeral.text_ofInt64, heq])

end MiniZincModels.Text
