import MiniZincModels.Identifier
import MiniZincModels.Proofs.Text.Numeral

/-!
# Valid names

A valid name starts with a letter and holds name characters only.  It is neither a
numeral nor one of the words of the language.
-/

namespace MiniZincModels.Identifier

variable {name : String}

theorem isValid_iff :
    isValid name = true ↔
      ∃ first rest, name.toList = first :: rest ∧ first.isAlpha = true ∧
        (∀ c ∈ rest, isNameCharacter c = true) ∧ name ∉ reservedWords := by
  rw [isValid]
  cases name.toList with
  | nil => simp
  | cons first rest => simp [and_assoc]

theorem exists_head (hvalid : isValid name = true) :
    ∃ first rest, name.toList = first :: rest ∧ first.isAlpha = true := by
  obtain ⟨first, rest, hname, hfirst, -, -⟩ := isValid_iff.mp hvalid
  exact ⟨first, rest, hname, hfirst⟩

theorem ne_empty (hvalid : isValid name = true) : name ≠ "" := by
  rintro rfl
  exact absurd hvalid (by decide)

theorem not_mem_reservedWords (hvalid : isValid name = true) : name ∉ reservedWords := by
  obtain ⟨first, rest, -, -, -, hreserved⟩ := isValid_iff.mp hvalid
  exact hreserved

theorem isNameCharacter_of_mem (hvalid : isValid name = true) :
    ∀ c ∈ name.toList, isNameCharacter c = true := by
  obtain ⟨first, rest, hname, hfirst, hrest, -⟩ := isValid_iff.mp hvalid
  intro c hc
  rw [hname, List.mem_cons] at hc
  rcases hc with rfl | hc
  · simp [isNameCharacter, Char.isAlphanum, hfirst]
  · exact hrest c hc

/-- A valid name is no numeral. -/
theorem readInteger?_eq_none (hvalid : isValid name = true) :
    Text.readInteger? name.toList = none := by
  obtain ⟨first, rest, hname, hfirst⟩ := exists_head hvalid
  have hdigit := Text.not_isDigit_of_isAlpha hfirst
  have hsplit : Text.splitSign (first :: rest) = (false, first :: rest) := by
    rw [Text.splitSign]
    · rintro rest' ⟨⟩
      exact absurd hfirst (by decide)
    · rintro rest' ⟨⟩
      exact absurd hfirst (by decide)
  simp [hname, Text.readInteger?, hsplit, Text.readNatural?, hdigit]

end MiniZincModels.Identifier
