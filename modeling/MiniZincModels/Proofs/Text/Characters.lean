import MiniZincModels.Identifier
import MiniZincModels.Text.Blank

/-!
# Classes of characters

What holds of all characters of a text is decided by going through the text.  The
letters, digits and underscores of names are told apart from each other and from
blanks.
-/

namespace MiniZincModels.Text

section Decidable

variable (p : Char → Prop) [DecidablePred p]

/-- The characters of the text are tried, not all characters that there are. -/
instance decidableForallMem (text : List Char) : Decidable (∀ c ∈ text, p c) :=
  List.decidableBAll p text

instance decidableExistsMem (text : List Char) : Decidable (∃ c ∈ text, p c) :=
  List.decidableBEx p text

instance decidableForallMemOption (first : Option Char) : Decidable (∀ c ∈ first, p c) :=
  Option.decidableForallMem first

end Decidable

section Runs

variable {p : Char → Bool} {run rest : List Char}

/-- A run of characters ends where a character of another class follows. -/
theorem takeWhile_run (hrun : ∀ c ∈ run, p c = true) (hrest : ∀ c ∈ rest.head?, p c = false) :
    (run ++ rest).takeWhile p = run := by
  rw [List.takeWhile_append_of_pos hrun]
  cases rest with
  | nil => simp
  | cons c rest => simp [hrest c rfl]

theorem dropWhile_run (hrun : ∀ c ∈ run, p c = true) (hrest : ∀ c ∈ rest.head?, p c = false) :
    (run ++ rest).dropWhile p = rest := by
  rw [List.dropWhile_append_of_pos hrun]
  cases rest with
  | nil => simp
  | cons c rest => simp [hrest c rfl]

end Runs

/-- A character between two others is between them as a number. -/
theorem toNat_of_between {first last c : Char}
    (h : (decide (first.val ≤ c.val) && decide (c.val ≤ last.val)) = true) :
    first.toNat ≤ c.toNat ∧ c.toNat ≤ last.toNat :=
  (Bool.and_eq_true_iff.mp h).imp of_decide_eq_true of_decide_eq_true

theorem mem_digits_of_isDigit {c : Char} (h : c.isDigit = true) :
    c ∈ ['0', '1', '2', '3', '4', '5', '6', '7', '8', '9'] := by
  have hbounds : 48 ≤ c.toNat ∧ c.toNat ≤ 57 := toNat_of_between h
  have hcases : c.toNat = 48 ∨ c.toNat = 49 ∨ c.toNat = 50 ∨ c.toNat = 51 ∨ c.toNat = 52 ∨
      c.toNat = 53 ∨ c.toNat = 54 ∨ c.toNat = 55 ∨ c.toNat = 56 ∨ c.toNat = 57 := by omega
  rw [← Char.ofNat_toNat c]
  rcases hcases with h | h | h | h | h | h | h | h | h | h <;> rw [h] <;> decide

/-- What holds of the ten digits holds of every digit. -/
theorem forall_isDigit {p : Char → Prop}
    (hdigits : ∀ c ∈ ['0', '1', '2', '3', '4', '5', '6', '7', '8', '9'], p c) {c : Char}
    (hc : c.isDigit = true) : p c :=
  hdigits c (mem_digits_of_isDigit hc)

theorem not_isDigit_of_isAlpha {c : Char} (h : c.isAlpha = true) : c.isDigit = false := by
  have halpha : ∀ d ∈ ['0', '1', '2', '3', '4', '5', '6', '7', '8', '9'], d.isAlpha = false := by
    decide
  rw [Bool.eq_false_iff]
  intro hdigit
  rw [halpha c (mem_digits_of_isDigit hdigit)] at h
  cases h

theorem toNat_of_isNameCharacter {c : Char} (h : Identifier.isNameCharacter c = true) :
    (48 ≤ c.toNat ∧ c.toNat ≤ 57) ∨ (65 ≤ c.toNat ∧ c.toNat ≤ 90) ∨ c.toNat = 95 ∨
      (97 ≤ c.toNat ∧ c.toNat ≤ 122) := by
  simp only [Identifier.isNameCharacter, Char.isAlphanum, Bool.or_eq_true, beq_iff_eq] at h
  rcases h with (halpha | hdigit) | rfl
  · rcases Bool.or_eq_true_iff.mp halpha with hupper | hlower
    · have hbounds : 65 ≤ c.toNat ∧ c.toNat ≤ 90 := of_decide_eq_true hupper
      exact .inr (.inl hbounds)
    · have hbounds : 97 ≤ c.toNat ∧ c.toNat ≤ 122 := toNat_of_between hlower
      exact .inr (.inr (.inr hbounds))
  · have hbounds : 48 ≤ c.toNat ∧ c.toNat ≤ 57 := toNat_of_between hdigit
    exact .inl hbounds
  · decide

theorem not_isBlank_of_isNameCharacter {c : Char} (h : Identifier.isNameCharacter c = true) :
    isBlank c = false := by
  have hrange := toNat_of_isNameCharacter h
  simp only [isBlank, Bool.or_eq_false_iff, Bool.and_eq_false_iff, decide_eq_false_iff_not,
    beq_eq_false_iff_ne, ne_eq]
  omega

end MiniZincModels.Text
