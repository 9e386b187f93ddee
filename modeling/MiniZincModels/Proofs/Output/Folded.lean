import Mathlib.Data.List.TakeWhile
import MiniZincModels.Output.Reader
import MiniZincModels.Proofs.Text.Gap

/-!
# Lists folded into index ranges

An array of several dimensions is reported as a word with the number of dimensions, its index
ranges and a flat list.  The list begins with the first square bracket and ends with the last
character in front of the parenthesis that is no blank.  It is found unless there is a line feed
in it.
-/

namespace MiniZincModels.Value

/-- A list behind a word with digits in it and a text that tells the ranges. -/
def foldedText (digits ranges list : List Char) : List Char :=
  ['a', 'r', 'r', 'a', 'y'] ++ (digits ++ 'd' :: '(' :: (ranges ++ list ++ [')']))

theorem isTight_foldedText {digits ranges list : List Char} :
    Text.IsTight (foldedText digits ranges list) := by
  have hends : foldedText digits ranges list =
      'a' :: (['r', 'r', 'a', 'y'] ++ (digits ++ 'd' :: '(' :: (ranges ++ list)) ++ [')']) := by
    simp [foldedText]
  rw [hends]
  exact Text.isTight_enclosed (by decide) (by decide)

/-- The parts of an array of several dimensions: the digits of their number, the text in front of
the list, what stands in the list, and the blanks behind it. -/
structure FoldedArray where
  digits : List Char
  ranges : List Char
  inner : List Char
  blanks : List Char
  digits_ne_nil : digits ≠ []
  decimal : ∀ c ∈ digits, Text.isDecimalDigit c = true
  bracket_not_mem : '[' ∉ ranges
  allBlank : Text.allBlank blanks = true

namespace FoldedArray

def list (array : FoldedArray) : List Char :=
  '[' :: (array.inner ++ [']'])

def text (array : FoldedArray) : List Char :=
  foldedText array.digits array.ranges (array.list ++ array.blanks)

variable (array : FoldedArray)

theorem length_list_lt : array.list.length < array.text.length := by
  simp only [text, foldedText, List.length_append, List.length_cons]
  omega

/-- The list is found behind the digits of the word and the ranges, unless it is broken. -/
theorem foldedList?_text :
    foldedList? array.text = if '\n' ∈ array.inner then none else some array.list := by
  obtain ⟨digits, ranges, inner, blanks, hne, hdecimal, hranges, hblanks⟩ := array
  let behind := ranges ++ ('[' :: (inner ++ [']']) ++ blanks) ++ [')']
  have hd : ∀ c ∈ ('d' :: '(' :: behind).head?, Text.isDecimalDigit c = false := by
    rintro c ⟨⟩
    decide
  have htake : (digits ++ 'd' :: '(' :: behind).takeWhile Text.isDecimalDigit = digits :=
    Text.takeWhile_run hdecimal hd
  have hdrop : (digits ++ 'd' :: '(' :: behind).dropWhile Text.isDecimalDigit =
      'd' :: '(' :: behind := Text.dropWhile_run hdecimal hd
  have hlist : behind.dropWhile (· ≠ '[') = '[' :: (inner ++ [']']) ++ blanks ++ [')'] := by
    have hbefore : ∀ c ∈ ranges, decide (c ≠ '[') = true := fun c hc =>
      decide_eq_true fun (heq : c = '[') => hranges (heq ▸ hc)
    simp only [behind, List.append_assoc]
    rw [List.dropWhile_append_of_pos hbefore]
    rfl
  have hlast : ('[' :: (inner ++ [']'])).getLast? = some ']' := by
    rw [← List.cons_append, List.getLast?_concat]
  have htrim : Text.trimEnd ('[' :: (inner ++ [']']) ++ blanks) = '[' :: (inner ++ [']']) := by
    rw [Text.trimEnd_append _ hblanks]
    exact Text.trimEnd_eq_self (by rw [hlast]; decide)
  have hbreak : '\n' ∉ '[' :: (inner ++ [']']) ↔ '\n' ∉ inner := by simp
  rw [text, foldedText, foldedList?, Text.afterStart?_append]
  simp only [list, Option.bind_eq_bind, Option.bind_some, behind, htake, hdrop, List.isEmpty_iff,
    hne, if_false, Text.afterStart?, if_true, hlist, List.getLast?_concat, List.dropLast_concat,
    htrim, hlast, hbreak, true_and]
  by_cases hinner : '\n' ∈ inner <;> simp [hinner]

end FoldedArray

/-- What begins with the first square bracket and ends with a parenthesis behind a square one. -/
theorem exists_inner {behind : List Char}
    (hclosed : (behind.dropWhile (· ≠ '[')).getLast? = some ')')
    (hlast : (Text.trimEnd (behind.dropWhile (· ≠ '[')).dropLast).getLast? = some ']') :
    ∃ inner blanks, Text.allBlank blanks = true ∧
      Text.trimEnd (behind.dropWhile (· ≠ '[')).dropLast = '[' :: (inner ++ [']']) ∧
      behind.dropWhile (· ≠ '[') = '[' :: (inner ++ [']']) ++ blanks ++ [')'] := by
  generalize hfrom : behind.dropWhile (· ≠ '[') = fromList at hclosed hlast ⊢
  obtain ⟨padded, rfl⟩ := List.getLast?_eq_some_iff.mp hclosed
  rw [List.dropLast_concat] at hlast ⊢
  obtain ⟨front, hfront⟩ := List.getLast?_eq_some_iff.mp hlast
  obtain ⟨blanks, hblanks, heq⟩ := Text.exists_eq_trimEnd padded
  have hpadded : padded = front ++ [']'] ++ blanks := by rw [← hfront, ← heq]
  have hhead : ∀ c ∈ (front ++ [']'] ++ blanks ++ [')']).head?, c = '[' := by
    intro c hc
    have hdropped := List.head?_dropWhile_not (· ≠ '[') behind
    rw [hfrom, hpadded, Option.mem_def.mp hc] at hdropped
    simpa using hdropped
  cases front with
  | nil =>
    have hbracket : ']' = '[' := hhead ']' rfl
    exact absurd hbracket (by decide)
  | cons c inner =>
    obtain rfl : c = '[' := hhead c rfl
    exact ⟨inner, blanks, hblanks, hfront, by rw [hpadded]; rfl⟩

/-- A text in which a list is found has this form. -/
theorem exists_foldedArray {text list : List Char} (h : foldedList? text = some list) :
    ∃ array : FoldedArray, text = array.text ∧ list = array.list := by
  rw [foldedList?, Option.bind_eq_bind, Option.bind_eq_some_iff] at h
  obtain ⟨afterWord, hword, h⟩ := h
  obtain rfl := Text.eq_append_of_afterStart? hword
  split at h
  · cases h
  · rename_i hdigits
    rw [Option.bind_eq_some_iff] at h
    obtain ⟨afterOpening, hopening, h⟩ := h
    dsimp only at h
    split at h
    · rename_i hclosed
      split at h
      · rename_i hlast
        obtain rfl := Option.some.inj h
        obtain ⟨inner, blanks, hblanks, hlist, heq⟩ := exists_inner hclosed hlast.1
        have hranges : '[' ∉ afterOpening.takeWhile (· ≠ '[') := by
          intro hmem
          simpa using List.mem_takeWhile_imp hmem
        let array : FoldedArray := ⟨afterWord.takeWhile Text.isDecimalDigit,
          afterOpening.takeWhile (· ≠ '['), inner, blanks, by simpa using hdigits,
          fun c => List.mem_takeWhile_imp, hranges, hblanks⟩
        have hbehind : afterOpening = array.ranges ++ (array.list ++ array.blanks) ++ [')'] := by
          rw [List.append_assoc, FoldedArray.list, ← heq, List.takeWhile_append_dropWhile]
        have hword : afterWord = array.digits ++ (['d', '('] ++ afterOpening) := by
          rw [← Text.eq_append_of_afterStart? hopening, List.takeWhile_append_dropWhile]
        refine ⟨array, ?_, hlist⟩
        rw [hword, hbehind]
        rfl
      · cases h
    · cases h

/-! ## Gaps -/

namespace FoldedArray

/-- The array with its gaps closed. -/
def closed (keep : Bool) (array : FoldedArray) : FoldedArray :=
  { array with
    ranges := Text.closeGapsFrom keep .outside array.ranges
    inner := Text.closeGapsFrom keep .outside array.inner
    bracket_not_mem := fun hmem => array.bracket_not_mem (Text.mem_of_mem_closeGapsFrom hmem) }

/-- What stands in front of the parenthesis. -/
def word (array : FoldedArray) : List Char :=
  ['a', 'r', 'r', 'a', 'y'] ++ array.digits ++ ['d']

/-- What stands behind the first square bracket. -/
def behind (array : FoldedArray) : List Char :=
  array.inner ++ ']' :: (array.blanks ++ [')'])

theorem text_eq (array : FoldedArray) :
    array.text = array.word ++ '(' :: (array.ranges ++ '[' :: array.behind) := by
  simp [text, foldedText, list, word, behind]

theorem comma_not_mem_word (array : FoldedArray) : ',' ∉ array.word := by
  have hdigits : ',' ∉ array.digits := by
    intro hmem
    exact absurd (array.decimal ',' hmem) (by decide)
  simpa [word] using hdigits

theorem comma_not_mem_blanks (array : FoldedArray) : ',' ∉ array.blanks ++ [')'] := by
  have hblanks : ',' ∉ array.blanks := by
    intro hmem
    exact absurd (List.all_eq_true.mp array.allBlank ',' hmem) (by decide)
  simpa using hblanks

variable {keep : Bool} {array : FoldedArray}

/-- Gaps are closed in the ranges and in the list. -/
theorem closeGapsFrom_text (keep : Bool) (array : FoldedArray) :
    Text.closeGapsFrom keep .outside array.text = (array.closed keep).text := by
  rw [text_eq, Text.closeGapsFrom_cut (by decide), Text.closeGapsFrom_cut (by decide), behind,
    Text.closeGapsFrom_cut (by decide), Text.closeGapsFrom_of_not_mem array.comma_not_mem_word,
    Text.closeGapsFrom_of_not_mem array.comma_not_mem_blanks, text_eq]
  rfl

theorem closeGapsFrom_list (keep : Bool) (array : FoldedArray) :
    Text.closeGapsFrom keep .outside array.list = (array.closed keep).list := by
  rw [list, ← List.nil_append ('[' :: _), Text.closeGapsFrom_cut (by decide),
    Text.closeGapsFrom_cut (by decide), Text.closeGapsFrom_nil]
  rfl

/-- A text with gaps in it has the form if it has it without them. -/
theorem exists_of_closeGapsFrom_eq {text : List Char}
    (h : Text.closeGapsFrom keep .outside text = array.text) :
    ∃ other : FoldedArray, text = other.text ∧ other.closed keep = array := by
  rw [text_eq] at h
  obtain ⟨word, fromRanges, rfl, hword, h⟩ := Text.exists_of_closeGapsFrom_eq_cut (by decide) h
  obtain ⟨ranges, fromInner, rfl, hranges, h⟩ := Text.exists_of_closeGapsFrom_eq_cut (by decide) h
  obtain ⟨inner, ending, rfl, hinner, h⟩ := Text.exists_of_closeGapsFrom_eq_cut (by decide) h
  have hbracket : '[' ∉ ranges :=
    Text.not_mem_of_closeGapsFrom_eq (by decide) array.bracket_not_mem hranges
  refine ⟨{ array with ranges := ranges, inner := inner, bracket_not_mem := hbracket }, ?_, ?_⟩
  · rw [text_eq, Text.eq_of_closeGapsFrom_eq array.comma_not_mem_word hword,
      Text.eq_of_closeGapsFrom_eq array.comma_not_mem_blanks h]
    rfl
  · simp only [closed, hranges, hinner]

end FoldedArray

end MiniZincModels.Value
