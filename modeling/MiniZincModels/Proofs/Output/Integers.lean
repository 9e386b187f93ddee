import MiniZincModels.Proofs.Output.Declared

/-!
# Integers in solver output

Wherever an integer is reported, its numeral is read exactly: as a value, as an element of a
set literal, as a bound of a range, and as an element of an array.  A numeral that no machine
integer has is refused inside sets and ranges only; anywhere else it is read as a float.
-/

namespace MiniZincModels

namespace IntSet

/-- A range holds what lies between its ends, and nothing if they are reversed. -/
theorem mem_range {first last k : Int64} :
    k ∈ (range first last).elements ↔ first.toInt ≤ k.toInt ∧ k.toInt ≤ last.toInt := by
  have hfirst := first.le_toInt
  have hlast := last.toInt_lt
  simp only [range, consecutive, List.mem_map, List.mem_range]
  constructor
  · rintro ⟨offset, hoffset, rfl⟩
    rw [Int64.toInt_ofInt_of_le (by omega) (by omega)]
    omega
  · rintro ⟨hlow, hhigh⟩
    have hoffset : first.toInt + ((k.toInt - first.toInt).toNat : Int) = k.toInt := by omega
    refine ⟨(k.toInt - first.toInt).toNat, by omega, ?_⟩
    rw [hoffset, Int64.ofInt_toInt]

end IntSet

namespace Text

theorem isDecimalDigit_of_isBlank {c : Char} (h : isBlank c = true) : isDecimalDigit c = false := by
  -- the runs of digits lie between the blanks
  have hruns : ∀ first ∈ digitRuns, first = 0x30 ∨ (0x660 ≤ first ∧ first ≤ 0x1090) ∨
      (0x17E0 ≤ first ∧ first ≤ 0x1C50) ∨ 0xA620 ≤ first := by decide
  simp only [isBlank, Bool.or_eq_true, Bool.and_eq_true, decide_eq_true_eq, beq_iff_eq] at h
  rw [isDecimalDigit, List.any_eq_false]
  intro first hmem hdigit
  have hrun := hruns first hmem
  simp only [Bool.and_eq_true, decide_eq_true_eq] at hdigit
  omega

namespace Numeral

variable {numeral : Numeral} {text : String}

theorem isTight_text (numeral : Numeral) : IsTight numeral.text :=
  (Value.isElement_numeral numeral).isTight

/-- The numeral is all that the text holds but for blanks around it. -/
def StandsIn (numeral : Numeral) (text : String) : Prop :=
  trim text.toList = numeral.text

/-- What the numeral is taken for: the machine integer of its value or, if there is none, a
float. -/
def IsReadAs (numeral : Numeral) : Value → Prop
  | .int word => word.toInt = numeral.value
  | .float value =>
    ¬ numeral.Fits ∧ value = Binary64.ofDecimal numeral.negative numeral.magnitude 0
  | .bool _ | .set _ | .array _ => False

theorem StandsIn.exists_eq (h : numeral.StandsIn text) :
    ∃ before after, allBlank before = true ∧ allBlank after = true ∧
      text.toList = before ++ numeral.text ++ after := by
  rw [StandsIn] at h
  rw [← h]
  exact exists_eq_trim text.toList

theorem StandsIn.allBlank_eq_false (h : numeral.StandsIn text) : allBlank text.toList = false := by
  rw [Bool.eq_false_iff]
  intro hblank
  have htrim := trim_append_left [] hblank
  rw [List.append_nil, h] at htrim
  exact numeral.text_ne_nil htrim

theorem StandsIn.isSolid (h : numeral.StandsIn text) : Value.IsSolid 0 text.toList := by
  obtain ⟨before, after, hbefore, hafter, heq⟩ := h.exists_eq
  have hnumeral := (Value.isElement_numeral numeral).isSolid
  rw [heq]
  exact ((Value.isSolid_of_allBlank hbefore).append hnumeral).append
    (Value.isSolid_of_allBlank hafter)

end Numeral

end Text

namespace Value

open Text (Numeral)

/-! ## The two bounds of a range -/

section Range

variable {lower upper : Numeral} {blanks others tail behind : List Char}

theorem takeBound?_text (numeral : Numeral)
    (htail : ∀ c ∈ tail.head?, Text.isDecimalDigit c = false) :
    takeBound? (numeral.text ++ tail) = some (numeral.text, tail) := by
  have hdecimal : ∀ c ∈ numeral.digits, Text.isDecimalDigit c = true := fun c hc =>
    Text.forall_isDigit (p := fun d => Text.isDecimalDigit d = true) (by decide)
      (numeral.isDigit c hc)
  have htake : (numeral.digits ++ tail).takeWhile Text.isDecimalDigit = numeral.digits :=
    Text.takeWhile_run hdecimal htail
  have hdrop : (numeral.digits ++ tail).dropWhile Text.isDecimalDigit = tail :=
    Text.dropWhile_run hdecimal htail
  obtain ⟨first, rest, heq, hfirst⟩ := numeral.exists_digits_eq
  cases hnegative : numeral.negative with
  | true => simp [takeBound?, Numeral.text, hnegative, htake, hdrop, numeral.digits_ne_nil]
  | false =>
    have hsign : first ≠ '-' := by
      rintro rfl
      cases hfirst
    have htext : numeral.text ++ tail = first :: (rest ++ tail) := by
      rw [Numeral.text, hnegative, heq]
      rfl
    rw [heq, List.cons_append] at htake hdrop
    rw [htext, takeBound?]
    · simp [htake, hdrop, Numeral.text, hnegative, heq]
    · rintro others ⟨⟩
      exact hsign rfl

/-- Two numerals with two points between them, and blanks around the points, bound a range. -/
theorem rangeBounds?_numerals (hblanks : Text.allBlank blanks = true)
    (hothers : Text.allBlank others = true) :
    rangeBounds? (lower.text ++ (blanks ++ '.' :: '.' :: (others ++ upper.text))) =
      some (lower.text, upper.text) := by
  have hlower : ∀ c ∈ (blanks ++ '.' :: '.' :: (others ++ upper.text)).head?,
      Text.isDecimalDigit c = false := by
    cases blanks with
    | nil =>
      rintro c ⟨⟩
      decide
    | cons blank blanks =>
      rintro c ⟨⟩
      exact Text.isDecimalDigit_of_isBlank (List.all_eq_true.mp hblanks _ List.mem_cons_self)
  have hdots : Text.trimStart (blanks ++ '.' :: '.' :: (others ++ upper.text)) =
      '.' :: '.' :: (others ++ upper.text) := by
    rw [Text.trimStart_append _ hblanks]
    rfl
  have hupper : Text.trimStart (others ++ upper.text) = upper.text := by
    rw [Text.trimStart_append _ hothers, Text.trimStart_eq_self upper.isTight_text.1]
  have hend : takeBound? upper.text = some (upper.text, []) := by
    have hbound : takeBound? (upper.text ++ []) = some (upper.text, []) :=
      takeBound?_text upper (by simp)
    rwa [List.append_nil] at hbound
  have hpoints : Text.afterStart? ['.', '.'] ('.' :: '.' :: (others ++ upper.text)) =
      some (others ++ upper.text) := Text.afterStart?_append ['.', '.'] _
  rw [rangeBounds?, takeBound?_text lower hlower]
  simp [hdots, hpoints, hupper, hend]

/-- A numeral with points behind it is no integer. -/
theorem readInteger?_points (numeral : Numeral) :
    Text.readInteger? (numeral.text ++ (blanks ++ '.' :: '.' :: behind)) = none := by
  obtain ⟨first, rest, heq, hfirst⟩ := numeral.exists_digits_eq
  have hdigits :
      ¬ (first :: (rest ++ (blanks ++ '.' :: '.' :: behind))).all Char.isDigit = true := by
    simp
  rw [Numeral.text, heq, List.append_assoc, List.cons_append, Text.readInteger?,
    Text.splitSign_signed numeral.negative _ hfirst]
  simp only [Text.readNatural?, hdigits, Bool.false_eq_true, and_false, if_false]

/-- A numeral with two points behind it is no float. -/
theorem read?_points (numeral : Numeral) (hblanks : Text.allBlank blanks = true) :
    Binary64.read? (numeral.text ++ (blanks ++ '.' :: '.' :: behind)) = none := by
  obtain ⟨first, rest, heq, hfirst⟩ := numeral.exists_digits_eq
  have hvalue := Text.readNatural?_digits numeral.digits_ne_nil numeral.isDigit
  rw [Numeral.text, List.append_assoc, Binary64.read?_signed numeral.negative
    ⟨first, _, by rw [heq, List.cons_append], hfirst⟩]
  cases blanks with
  | nil =>
    rw [List.nil_append, Binary64.readDecimal?,
      Binary64.takeWhile_isDigit numeral.isDigit (by decide),
      Binary64.dropWhile_isDigit numeral.isDigit (by decide)]
    simp [hvalue]
  | cons blank blanks =>
    have hblank := List.all_eq_true.mp hblanks blank List.mem_cons_self
    have hpoint : blank ≠ '.' := Text.ne_of_isBlank hblank (by decide)
    have hexponent : ¬ (blank = 'e' ∨ blank = 'E') :=
      not_or.mpr ⟨Text.ne_of_isBlank hblank (by decide), Text.ne_of_isBlank hblank (by decide)⟩
    have hdigit : blank.isDigit = false := Text.isDigit_of_isBlank hblank
    rw [List.cons_append, Binary64.readDecimal?, Binary64.takeWhile_isDigit numeral.isDigit hdigit,
      Binary64.dropWhile_isDigit numeral.isDigit hdigit]
    simp [hpoint, hexponent, hvalue]

theorem readNested_range {depth : Nat} {padded : List Char} (hblanks : Text.allBlank blanks = true)
    (hothers : Text.allBlank others = true)
    (htrim : Text.trim padded = lower.text ++ (blanks ++ '.' :: '.' :: (others ++ upper.text))) :
    readNested (depth + 1) padded = readRange lower.text upper.text := by
  have hpoint : ∀ word : List Char, '.' ∉ word →
      lower.text ++ (blanks ++ '.' :: '.' :: (others ++ upper.text)) ≠ word := by
    rintro word hnot rfl
    simp at hnot
  rw [readNested, htrim, if_neg (hpoint _ (by decide)), if_neg (hpoint _ (by decide)),
    readInteger?_points]
  simp only [read?_points lower hblanks, rangeBounds?_numerals hblanks hothers]

/-- Blanks around the bounds do not change the range. -/
theorem read_range {low high : String} (hlow : lower.StandsIn low) (hhigh : upper.StandsIn high) :
    read (low ++ ".." ++ high).toList = readRange lower.text upper.text := by
  obtain ⟨before, blanks, hbefore, hblanks, hlow⟩ := hlow.exists_eq
  obtain ⟨others, after, hothers, hafter, hhigh⟩ := hhigh.exists_eq
  have htext : (low ++ ".." ++ high).toList =
      before ++ (lower.text ++ (blanks ++ '.' :: '.' :: others ++ upper.text)) ++ after := by
    simp [hlow, hhigh]
  have htight := Text.isTight_append lower.isTight_text upper.isTight_text
    ⟨lower.text_ne_nil, upper.text_ne_nil⟩ (blanks ++ '.' :: '.' :: others)
  apply readNested_range hblanks hothers
  rw [htext, Text.trim_padded hbefore hafter htight]
  simp

end Range

/-! ## What is read -/

/-- A set of exactly the integers with a property. -/
def IsSetOf (p : Int → Prop) : Value → Prop
  | set values => ∀ k : Int64, k ∈ values.elements ↔ p k.toInt
  | int _ | float _ | bool _ | array _ => False

/-- Under the condition, and only then, a value is read, and it has the property. -/
def IsReadIf (condition : Prop) (p : Value → Prop) (outcome : Except ValueFault Value) : Prop :=
  (condition → ∃ value, outcome = .ok value ∧ p value) ∧
    (¬ condition → ∃ fault, outcome = .error fault)

theorem isReadIf_of_iff {condition : Prop} {p : Value → Prop} {outcome : Except ValueFault Value}
    (hcondition : (∃ value, outcome = .ok value) ↔ condition)
    (hp : ∀ value, outcome = .ok value → p value) : IsReadIf condition p outcome := by
  rw [← hcondition]
  constructor
  · rintro ⟨value, hvalue⟩
    exact ⟨value, hvalue, hp value hvalue⟩
  · intro hnone
    cases houtcome : outcome with
    | ok value => exact absurd ⟨value, houtcome⟩ hnone
    | error fault => exact ⟨fault, rfl⟩

section Positions

variable {numeral lower upper : Numeral} {numerals : List Numeral} {text low high : String}
variable {texts : List String} {padded : List Char}

theorem read_numeral (h : numeral.StandsIn text) :
    ∃ value, read text.toList = .ok value ∧ numeral.IsReadAs value := by
  refine ⟨_, readNested_numeral h, ?_⟩
  by_cases hfits : numeral.Fits
  · obtain ⟨word, hword⟩ := Numeral.fits_iff.mp hfits
    rw [Text.toInt64?_eq_some.mpr hword]
    exact hword
  · rw [Numeral.toInt64?_eq_none hfits]
    exact ⟨hfits, rfl⟩

theorem exists_word_iff (h : numeral.StandsIn text) :
    (∃ word : Int64, word.toInt = numeral.value ∧ read text.toList = .ok (int word)) ↔
      numeral.Fits := by
  constructor
  · rintro ⟨word, hword, -⟩
    exact Numeral.fits_iff.mpr ⟨word, hword⟩
  · intro hfits
    obtain ⟨value, hread, hvalue⟩ := read_numeral h
    cases value with
    | int word => exact ⟨word, hvalue, hread⟩
    | float value => exact absurd hfits hvalue.1
    | bool _ | set _ | array _ => exact hvalue.elim

/-- Where only integers may stand, a numeral is read exactly or refused. -/
theorem readInt_eq_ok (h : Text.trim padded = numeral.text) {word : Int64} :
    readInt padded = .ok word ↔ word.toInt = numeral.value := by
  rw [readInt, h, numeral.readInteger?_text, ← Text.toInt64?_eq_some]
  cases Text.toInt64? numeral.value with
  | none => simp
  | some other => simp

theorem mapM_readInt_eq_ok (h : List.Forall₂ Numeral.StandsIn numerals texts) {words : List Int64} :
    texts.mapM (fun text => readInt text.toList) = .ok words ↔
      words.map Int64.toInt = numerals.map Numeral.value := by
  rw [Outcome.mapM_eq_ok]
  induction h generalizing words with
  | nil => cases words <;> simp
  | cons hfirst _ ih =>
    cases words with
    | nil => simp
    | cons word words =>
      rw [List.forall₂_cons, readInt_eq_ok hfirst, ih, List.map_cons, List.map_cons,
        List.cons.injEq]

theorem exists_words_iff :
    (∃ words : List Int64, words.map Int64.toInt = numerals.map Numeral.value) ↔
      ∀ numeral ∈ numerals, numeral.Fits := by
  constructor
  · rintro ⟨words, hwords⟩ numeral hmem
    have hvalue : numeral.value ∈ words.map Int64.toInt := by
      rw [hwords]
      exact List.mem_map_of_mem hmem
    obtain ⟨word, -, hword⟩ := List.mem_map.mp hvalue
    exact Numeral.fits_iff.mpr ⟨word, hword⟩
  · intro hfits
    induction numerals with
    | nil => exact ⟨[], rfl⟩
    | cons first rest ih =>
      rw [List.forall_mem_cons] at hfits
      obtain ⟨word, hword⟩ := Numeral.fits_iff.mp hfits.1
      obtain ⟨words, hwords⟩ := ih hfits.2
      exact ⟨word :: words, by rw [List.map_cons, List.map_cons, hword, hwords]⟩

theorem forall_isSolid (h : List.Forall₂ Numeral.StandsIn numerals texts) :
    ∀ text ∈ texts, IsSolid 0 text.toList ∧ Text.allBlank text.toList = false := by
  induction h with
  | nil => simp
  | cons hfirst _ ih =>
    rw [List.forall_mem_cons]
    exact ⟨⟨hfirst.isSolid, hfirst.allBlank_eq_false⟩, ih⟩

theorem read_setLiteral (h : List.Forall₂ Numeral.StandsIn numerals texts) :
    read ("\x7b" ++ ",".intercalate texts ++ "\x7d").toList =
      (texts.mapM fun text => readInt text.toList).map fun words => set (IntSet.ofList words) := by
  have htexts := forall_isSolid h
  have htext : ("\x7b" ++ ",".intercalate texts ++ "\x7d").toList =
      '\x7b' :: ((",".intercalate texts).toList ++ ['\x7d']) := by
    simp
  have htight : Text.IsTight ('\x7b' :: ((",".intercalate texts).toList ++ ['\x7d'])) :=
    Text.isTight_enclosed (by decide) (by decide)
  have hblank : ∀ text, texts = [text] → Text.allBlank text.toList = false := by
    rintro text rfl
    exact (htexts text List.mem_cons_self).2
  rw [htext, read, readNested_curly (Text.trim_eq_self htight) (enclosed?_append _ _ _),
    splitElements_intercalate (fun text hmem => (htexts text hmem).1) hblank, List.mapM_map]
  rfl

/-- The numerals of a set literal are its elements, and all of them have to fit. -/
theorem isReadIf_setLiteral (h : List.Forall₂ Numeral.StandsIn numerals texts) :
    IsReadIf (∀ numeral ∈ numerals, numeral.Fits)
      (IsSetOf fun k => ∃ numeral ∈ numerals, numeral.value = k)
      (read ("\x7b" ++ ",".intercalate texts ++ "\x7d").toList) := by
  have hok : ∀ value, read ("\x7b" ++ ",".intercalate texts ++ "\x7d").toList = .ok value ↔
      ∃ words : List Int64, words.map Int64.toInt = numerals.map Numeral.value ∧
        value = set (IntSet.ofList words) := by
    intro value
    rw [read_setLiteral h, Outcome.map_eq_ok]
    simp only [mapM_readInt_eq_ok h]
  refine isReadIf_of_iff ?_ ?_
  · rw [← exists_words_iff]
    constructor
    · rintro ⟨value, hvalue⟩
      obtain ⟨words, hwords, -⟩ := (hok value).mp hvalue
      exact ⟨words, hwords⟩
    · rintro ⟨words, hwords⟩
      exact ⟨_, (hok _).mpr ⟨words, hwords, rfl⟩⟩
  · intro value hvalue
    obtain ⟨words, hwords, rfl⟩ := (hok value).mp hvalue
    intro k
    calc k ∈ (IntSet.ofList words).elements
        ↔ k ∈ words := IntSet.mem_ofList
      _ ↔ k.toInt ∈ words.map Int64.toInt :=
        (List.mem_map_of_injective fun _ _ => Int64.toInt_inj.mp).symm
      _ ↔ ∃ numeral ∈ numerals, numeral.value = k.toInt := by rw [hwords, List.mem_map]

theorem readRange_eq_ok {low high : List Char} {value : Value} :
    readRange low high = .ok value ↔
      ∃ first last, readInt low = .ok first ∧ readInt high = .ok last ∧
        last.toInt - first.toInt < 2 ^ 20 ∧ value = set (IntSet.range first last) := by
  constructor
  · intro h
    obtain ⟨first, hfirst, h⟩ := Outcome.bind_eq_ok.mp h
    obtain ⟨last, hlast, h⟩ := Outcome.bind_eq_ok.mp h
    split at h
    · cases h
    · rename_i hsize
      rw [rangeLimit] at hsize
      exact ⟨first, last, hfirst, hlast, by omega, Outcome.pure_eq_ok.mp h⟩
  · rintro ⟨first, last, hfirst, hlast, hsize, rfl⟩
    have hnot : ¬ (rangeLimit : Int) ≤ last.toInt - first.toInt := by
      rw [rangeLimit]
      omega
    exact Outcome.bind_eq_ok.mpr ⟨first, hfirst, Outcome.bind_eq_ok.mpr ⟨last, hlast, if_neg hnot⟩⟩

/-- Both bounds of a range have to fit, and the range may not be too large. -/
theorem isReadIf_range (hlow : lower.StandsIn low) (hhigh : upper.StandsIn high) :
    IsReadIf (lower.Fits ∧ upper.Fits ∧ upper.value - lower.value < 2 ^ 20)
      (IsSetOf fun k => lower.value ≤ k ∧ k ≤ upper.value)
      (read (low ++ ".." ++ high).toList) := by
  have hlower : Text.trim lower.text = lower.text := Text.trim_eq_self lower.isTight_text
  have hupper : Text.trim upper.text = upper.text := Text.trim_eq_self upper.isTight_text
  have hok : ∀ value, read (low ++ ".." ++ high).toList = .ok value ↔
      ∃ first last : Int64, first.toInt = lower.value ∧ last.toInt = upper.value ∧
        upper.value - lower.value < 2 ^ 20 ∧ value = set (IntSet.range first last) := by
    intro value
    rw [read_range hlow hhigh, readRange_eq_ok]
    refine exists_congr fun first => exists_congr fun last => ?_
    rw [readInt_eq_ok hlower, readInt_eq_ok hupper]
    constructor
    · rintro ⟨hfirst, hlast, hsize, hvalue⟩
      exact ⟨hfirst, hlast, hfirst ▸ hlast ▸ hsize, hvalue⟩
    · rintro ⟨hfirst, hlast, hsize, hvalue⟩
      exact ⟨hfirst, hlast, by rwa [hfirst, hlast], hvalue⟩
  refine isReadIf_of_iff ?_ ?_
  · simp only [hok, Numeral.fits_iff]
    constructor
    · rintro ⟨value, first, last, hfirst, hlast, hsize, -⟩
      exact ⟨⟨first, hfirst⟩, ⟨last, hlast⟩, hsize⟩
    · rintro ⟨⟨first, hfirst⟩, ⟨last, hlast⟩, hsize⟩
      exact ⟨_, first, last, hfirst, hlast, hsize, rfl⟩
  · intro value hvalue
    obtain ⟨first, last, hfirst, hlast, -, rfl⟩ := (hok value).mp hvalue
    intro k
    rw [IntSet.mem_range, hfirst, hlast]

theorem mapM_read_numerals (h : List.Forall₂ Numeral.StandsIn numerals texts) :
    ∃ values, texts.mapM (fun text => read text.toList) = .ok values ∧
      List.Forall₂ Numeral.IsReadAs numerals values := by
  induction h with
  | nil => exact ⟨[], rfl, .nil⟩
  | cons hfirst _ ih =>
    obtain ⟨value, hvalue, hreadAs⟩ := read_numeral hfirst
    obtain ⟨values, hvalues, hothers⟩ := ih
    refine ⟨value :: values, ?_, .cons hreadAs hothers⟩
    rw [List.mapM_cons, hvalue, hvalues]
    rfl

/-- Each numeral in a list is read as if it stood alone. -/
theorem read_numerals (h : List.Forall₂ Numeral.StandsIn numerals texts) :
    ∃ values, read ("[" ++ ",".intercalate texts ++ "]").toList = .ok (array values) ∧
      List.Forall₂ Numeral.IsReadAs numerals values := by
  have htexts := forall_isSolid h
  have hblank : ∀ text, texts = [text] → Text.allBlank text.toList = false := by
    rintro text rfl
    exact (htexts text List.mem_cons_self).2
  obtain ⟨values, hvalues, hreadAs⟩ := mapM_read_numerals h
  refine ⟨values, ?_, hreadAs⟩
  rw [read_list (fun text hmem => (htexts text hmem).1) hblank, hvalues]
  rfl

/-- Sets and ranges are read exactly or refused.  Alone and in a list a numeral is read exactly if
it fits and as a float if not, and lists are read element by element, however deeply they are
nested, also where they are folded into index ranges.  Blanks around a text do not matter. -/
theorem reads_integers (hnumeral : numeral.StandsIn text) (hlow : lower.StandsIn low)
    (hhigh : upper.StandsIn high) (hnumerals : List.Forall₂ Numeral.StandsIn numerals texts) :
    ((∃ word : Int64, word.toInt = numeral.value ∧ read text.toList = .ok (int word)) ↔
        numeral.Fits) ∧
    (∃ value, read text.toList = .ok value ∧ numeral.IsReadAs value) ∧
    IsReadIf (∀ numeral ∈ numerals, numeral.Fits)
      (IsSetOf fun k => ∃ numeral ∈ numerals, numeral.value = k)
      (read ("\x7b" ++ ",".intercalate texts ++ "\x7d").toList) ∧
    IsReadIf (lower.Fits ∧ upper.Fits ∧ upper.value - lower.value < 2 ^ 20)
      (IsSetOf fun k => lower.value ≤ k ∧ k ≤ upper.value)
      (read (low ++ ".." ++ high).toList) ∧
    (∃ values, read ("[" ++ ",".intercalate texts ++ "]").toList = .ok (array values) ∧
      List.Forall₂ Numeral.IsReadAs numerals values) ∧
    (∀ elements : List String,
      (∀ element ∈ elements, Text.IsNested element ∧ ¬ Text.OccursOutside ',' element) →
      (∀ element, elements = [element] → Text.allBlank element.toList = false) →
      read ("[" ++ ",".intercalate elements ++ "]").toList =
        (elements.mapM fun element => read element.toList).map array) ∧
    (∀ digits ranges inner : List Char, (∀ c ∈ digits, c.isDigit = true) → digits ≠ [] →
      '[' ∉ ranges → '\n' ∉ inner →
      read (foldedText digits ranges ('[' :: (inner ++ [']']))) =
        read ('[' :: (inner ++ [']']))) ∧
    ∀ left right : List Char, Text.trim left = Text.trim right → read left = read right := by
  refine ⟨exists_word_iff hnumeral, read_numeral hnumeral, isReadIf_setLiteral hnumerals,
    isReadIf_range hlow hhigh, read_numerals hnumerals, ?_, ?_, fun _ _ => read_eq_of_trim⟩
  · intro elements hnested hblank
    refine read_list (fun element hmem => ?_) hblank
    exact isSolid_of_isNested (hnested element hmem).1 (hnested element hmem).2
  · intro digits ranges inner hdigits hne hranges hline
    exact read_foldedText hdigits hne hranges (by simpa using hline)

end Positions

/-- The smallest machine integer, next to one that is too large. -/
theorem reads_integers_at_limits :
    let smallest : Numeral := ⟨true, "9223372036854775808".toList, by decide, by decide⟩
    let beyond : Numeral := ⟨false, "9223372036854775808".toList, by decide, by decide⟩
    let texts := ["-9223372036854775808", " 9223372036854775808"]
    smallest.StandsIn "-9223372036854775808" ∧
      List.Forall₂ Numeral.StandsIn [smallest, beyond] texts ∧
      (∃ word : Int64, word.toInt = smallest.value ∧
        read "-9223372036854775808".toList = .ok (int word)) ∧
      (∃ fault, read ("\x7b" ++ ",".intercalate texts ++ "\x7d").toList = .error fault) ∧
      (∃ fault, read ("-9223372036854775808" ++ ".." ++ " 9223372036854775808").toList =
        .error fault) ∧
      ∃ values, read ("[" ++ ",".intercalate texts ++ "]").toList = .ok (array values) ∧
        List.Forall₂ Numeral.IsReadAs [smallest, beyond] values := by
  intro smallest beyond texts
  have hsmallest : smallest.StandsIn "-9223372036854775808" := rfl
  have hbeyond : beyond.StandsIn " 9223372036854775808" := rfl
  have hstands : List.Forall₂ Numeral.StandsIn [smallest, beyond] texts :=
    .cons hsmallest (.cons hbeyond .nil)
  have hnot : ¬ beyond.Fits := by decide
  have hset : ¬ ∀ numeral ∈ [smallest, beyond], numeral.Fits := by
    intro hfits
    exact hnot (hfits beyond (by simp))
  have hread := reads_integers hsmallest hsmallest hbeyond hstands
  exact ⟨hsmallest, hstands, hread.1.mpr (by decide), hread.2.2.1.2 hset,
    hread.2.2.2.1.2 fun hrange => hnot hrange.2.1, hread.2.2.2.2.1⟩

/-- The first numeral beyond the machine integers is neither read exactly nor refused. -/
theorem large_numeral_read_as_float :
    let beyond : Numeral := ⟨false, "9223372036854775808".toList, by decide, by decide⟩
    beyond.value = Text.maxInt64 + 1 ∧ ∃ value, read beyond.text = .ok (float value) := by
  intro beyond
  have hnot : ¬ beyond.Fits := by decide
  refine ⟨by decide, Binary64.ofDecimal false beyond.magnitude 0, ?_⟩
  rw [read, readNested_numeral (Text.trim_eq_self beyond.isTight_text),
    Numeral.toInt64?_eq_none hnot]

end Value

end MiniZincModels
