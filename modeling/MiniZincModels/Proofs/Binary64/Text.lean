import Mathlib.Data.List.TakeWhile
import MiniZincModels.Binary64.Text
import MiniZincModels.Proofs.Binary64.Rounding
import MiniZincModels.Proofs.Text.Numeral

/-!
# Literals of doubles read back

A literal is one of a few layouts of the shortest decimal.  Each of them is read as
a decimal of the same value, which lies in the rounding interval of the double and
so is rounded to it.
-/

namespace MiniZincModels

namespace Binary64

variable {whole fraction rest : List Char}

theorem takeWhile_isDigit {c : Char} (hwhole : ∀ d ∈ whole, d.isDigit = true)
    (hc : c.isDigit = false) : (whole ++ c :: rest).takeWhile Char.isDigit = whole :=
  Text.takeWhile_run hwhole (by simpa using hc)

theorem dropWhile_isDigit {c : Char} (hwhole : ∀ d ∈ whole, d.isDigit = true)
    (hc : c.isDigit = false) : (whole ++ c :: rest).dropWhile Char.isDigit = c :: rest :=
  Text.dropWhile_run hwhole (by simpa using hc)

theorem readDecimal?_point (negative : Bool) (hne : whole ≠ [])
    (hwhole : ∀ d ∈ whole, d.isDigit = true)
    (hfraction : ∀ d ∈ fraction, d.isDigit = true) :
    readDecimal? negative (whole ++ '.' :: fraction) =
      some (ofDecimal negative (Nat.ofDigitChars 10 (whole ++ fraction) 0)
        (-fraction.length)) := by
  have hdigits : ∀ d ∈ whole ++ fraction, d.isDigit = true := by
    simpa [or_imp, forall_and] using ⟨hwhole, hfraction⟩
  have htake : fraction.takeWhile Char.isDigit = fraction :=
    List.takeWhile_eq_self_iff.mpr hfraction
  have hdrop : fraction.dropWhile Char.isDigit = [] :=
    List.dropWhile_eq_nil_iff.mpr hfraction
  rw [readDecimal?, takeWhile_isDigit hwhole (by decide), dropWhile_isDigit hwhole (by decide)]
  simp only [htake, hdrop, Text.readNatural?_digits (by simp [hne]) hdigits]

theorem readDecimal?_exponent (negative : Bool) {exponent : Int} (hne : whole ≠ [])
    (hwhole : ∀ d ∈ whole, d.isDigit = true) (hexponent : readExponent? rest = some exponent) :
    readDecimal? negative (whole ++ 'e' :: rest) =
      some (ofDecimal negative (Nat.ofDigitChars 10 whole 0) exponent) := by
  rw [readDecimal?, takeWhile_isDigit hwhole (by decide), dropWhile_isDigit hwhole (by decide)]
  simp [Text.readNatural?_digits hne hwhole, hexponent]

theorem readDecimal?_point_exponent (negative : Bool) {exponent : Int} (hne : whole ≠ [])
    (hwhole : ∀ d ∈ whole, d.isDigit = true) (hfraction : ∀ d ∈ fraction, d.isDigit = true)
    (hexponent : readExponent? rest = some exponent) :
    readDecimal? negative (whole ++ '.' :: (fraction ++ 'e' :: rest)) =
      some (ofDecimal negative (Nat.ofDigitChars 10 (whole ++ fraction) 0)
        (exponent - fraction.length)) := by
  have hdigits : ∀ d ∈ whole ++ fraction, d.isDigit = true := by
    simpa [or_imp, forall_and] using ⟨hwhole, hfraction⟩
  have htake : (fraction ++ 'e' :: rest).takeWhile Char.isDigit = fraction :=
    takeWhile_isDigit hfraction (by decide)
  have hdrop : (fraction ++ 'e' :: rest).dropWhile Char.isDigit = 'e' :: rest :=
    dropWhile_isDigit hfraction (by decide)
  rw [readDecimal?, takeWhile_isDigit hwhole (by decide), dropWhile_isDigit hwhole (by decide)]
  simp only [htake, hdrop, Text.readNatural?_digits (by simp [hne]) hdigits]
  simp [hexponent]

/-- A point before the last `count` digits. -/
theorem readDecimal?_split (negative : Bool) {digits : List Char} {count : Nat}
    (hdigits : ∀ d ∈ digits, d.isDigit = true) (hcount : count < digits.length) :
    readDecimal? negative
        (digits.take (digits.length - count) ++ '.' :: digits.drop (digits.length - count)) =
      some (ofDecimal negative (Nat.ofDigitChars 10 digits 0) (-count)) := by
  have hne : digits.take (digits.length - count) ≠ [] := by
    intro hnil
    have hlength := congrArg List.length hnil
    rw [List.length_take, List.length_nil] at hlength
    omega
  have hfraction : (digits.drop (digits.length - count)).length = count := by
    rw [List.length_drop]
    omega
  rw [readDecimal?_point negative hne (fun d hd => hdigits d (List.mem_of_mem_take hd))
    (fun d hd => hdigits d (List.mem_of_mem_drop hd)), List.take_append_drop, hfraction]

/-- Zeros between the point and the digits. -/
theorem readDecimal?_zeros (negative : Bool) {digits : List Char} {count : Nat}
    (hdigits : ∀ d ∈ digits, d.isDigit = true) (hcount : digits.length ≤ count) :
    readDecimal? negative
        ('0' :: '.' :: List.replicate (count - digits.length) '0' ++ digits) =
      some (ofDecimal negative (Nat.ofDigitChars 10 digits 0) (-count)) := by
  have hfraction : ∀ d ∈ List.replicate (count - digits.length) '0' ++ digits,
      d.isDigit = true := by
    intro d hd
    rcases List.mem_append.mp hd with hzero | hd
    · rw [List.eq_of_mem_replicate hzero]
      rfl
    · exact hdigits d hd
  have hlength : (List.replicate (count - digits.length) '0' ++ digits).length = count := by
    rw [List.length_append, List.length_replicate]
    omega
  have hvalue : Nat.ofDigitChars 10
      (['0'] ++ (List.replicate (count - digits.length) '0' ++ digits)) 0 =
        Nat.ofDigitChars 10 digits 0 := by
    rw [Nat.ofDigitChars_append, Nat.ofDigitChars_append, Nat.ofDigitChars_cons,
      Nat.ofDigitChars_nil, Nat.ofDigitChars_replicate_zero]
    rfl
  have hread := readDecimal?_point negative (by simp : ['0'] ≠ []) (by decide) hfraction
  rw [hvalue, hlength] at hread
  exact hread

theorem readExponent?_toString (exponent : Int) :
    readExponent? (toString exponent).toList = some exponent := by
  rw [Text.toList_toString, readExponent?]
  by_cases hsign : exponent < 0
  · have hvalue : -(exponent.natAbs : Int) = exponent := by omega
    rw [if_pos hsign]
    simp only [List.cons_append, List.nil_append, Text.splitSign, Text.readNatural?_toDigits,
      if_true]
    exact congrArg some hvalue
  · have hvalue : (exponent.natAbs : Int) = exponent := by omega
    rw [if_neg hsign]
    simp only [List.nil_append, Text.splitSign_toDigits, Text.readNatural?_toDigits,
      Bool.false_eq_true, if_false]
    exact congrArg some hvalue

end Binary64

namespace Decimal

variable {negative : Bool} {decimal : Decimal}

/-- Whether a text is read as a decimal that every magnitude admits which admits the
given one. -/
def ReadsAs (negative : Bool) (text : List Char) (decimal : Decimal) : Prop :=
  ∃ digits exponent,
    Binary64.readDecimal? negative text = some (Binary64.ofDecimal negative digits exponent) ∧
      ∀ magnitude : Magnitude, magnitude.admits decimal = true →
        magnitude.admits ⟨digits, exponent⟩ = true

/-- Trailing zeros and a point with a zero behind it do not change the value. -/
theorem readsAs_whole (hexponent : 0 ≤ decimal.exponent) :
    ReadsAs negative
      (positionalText FloatLayout.literal (Nat.toDigits 10 decimal.digits) decimal.exponent)
      decimal := by
  refine ⟨10 * (10 ^ decimal.exponent.toNat * decimal.digits), -1, ?_, ?_⟩
  · have hdigits : ∀ c ∈ Nat.toDigits 10 decimal.digits ++
        List.replicate decimal.exponent.toNat '0', c.isDigit = true := by
      intro c hc
      rcases List.mem_append.mp hc with hc | hc
      · exact Text.isDigit_of_mem_toDigits c hc
      · rw [List.eq_of_mem_replicate hc]
        rfl
    have hread := Binary64.readDecimal?_point negative (by simp) hdigits
      (by decide : ∀ c ∈ ['0'], c.isDigit = true)
    rw [positionalText, if_pos hexponent]
    simpa [FloatLayout.literal, Nat.ofDigitChars_append, Nat.ofDigitChars_replicate_zero,
      Nat.ofDigitChars_cons] using hread
  · intro magnitude hadmits
    have hnonneg : (-decimal.exponent).toNat = 0 := by omega
    rw [Magnitude.admits_iff, hnonneg] at hadmits
    have hscaled := (Magnitude.admits_mul (by decide : 0 < 10)).mpr hadmits
    have hnumerator : 10 * (10 ^ decimal.exponent.toNat * decimal.digits) * 10 ^ (-1 : Int).toNat *
        unitsPerOne = decimal.digits * 10 ^ decimal.exponent.toNat * unitsPerOne * 10 := by
      rw [show (-1 : Int).toNat = 0 from rfl]
      ring
    rw [Magnitude.admits_iff, hnumerator]
    exact hscaled

/-- A point among the digits, or zeros between it and them, only count the exponent. -/
theorem readsAs_fraction (hexponent : decimal.exponent < 0) :
    ReadsAs negative
      (positionalText FloatLayout.literal (Nat.toDigits 10 decimal.digits) decimal.exponent)
      decimal := by
  refine ⟨decimal.digits, decimal.exponent, ?_, fun _ hadmits => hadmits⟩
  have hcount : -((-decimal.exponent).toNat : Int) = decimal.exponent := by omega
  rw [positionalText, if_neg (by omega)]
  by_cases hlength : (-decimal.exponent).toNat < (Nat.toDigits 10 decimal.digits).length
  · have hread := Binary64.readDecimal?_split negative Text.isDigit_of_mem_toDigits hlength
    rw [Nat.ofDigitChars_ten_toDigits, hcount] at hread
    rw [if_pos hlength]
    exact hread
  · have hread := Binary64.readDecimal?_zeros negative Text.isDigit_of_mem_toDigits
      (Nat.le_of_not_lt hlength)
    rw [Nat.ofDigitChars_ten_toDigits, hcount] at hread
    rw [if_neg hlength]
    exact hread

theorem readsAs_scientific :
    ReadsAs negative
      (scientificText (Nat.toDigits 10 decimal.digits)
        (decimal.exponent + (Nat.toDigits 10 decimal.digits).length - 1)) decimal := by
  refine ⟨decimal.digits, decimal.exponent, ?_, fun _ hadmits => hadmits⟩
  have hvalue : Nat.ofDigitChars 10 (Nat.toDigits 10 decimal.digits) 0 = decimal.digits :=
    Nat.ofDigitChars_ten_toDigits
  have hdigits : ∀ c ∈ Nat.toDigits 10 decimal.digits, c.isDigit = true :=
    Text.isDigit_of_mem_toDigits
  cases htext : Nat.toDigits 10 decimal.digits with
  | nil => exact absurd htext Nat.toDigits_ne_nil
  | cons first rest =>
    rw [htext] at hvalue hdigits
    have hexponent := Binary64.readExponent?_toString
      (decimal.exponent + (first :: rest).length - 1)
    cases rest with
    | nil =>
      have hread := Binary64.readDecimal?_exponent negative (by simp) hdigits hexponent
      rw [hvalue] at hread
      simpa [scientificText] using hread
    | cons second others =>
      rw [List.forall_mem_cons] at hdigits
      have hread := Binary64.readDecimal?_point_exponent negative (by simp : [first] ≠ [])
        (by simpa using hdigits.1) hdigits.2 hexponent
      have hjoined : [first] ++ second :: others = first :: second :: others := rfl
      have hcount : decimal.exponent + ((first :: second :: others).length : Int) - 1 -
          ((second :: others).length : Int) = decimal.exponent := by
        simp only [List.length_cons]
        omega
      rw [hjoined, hvalue, hcount] at hread
      exact hread

theorem readsAs_text (negative : Bool) (decimal : Decimal) :
    ReadsAs negative (decimal.text FloatLayout.literal) decimal := by
  rw [text]
  split
  · by_cases hexponent : 0 ≤ decimal.exponent
    · exact readsAs_whole hexponent
    · exact readsAs_fraction (Int.lt_of_not_ge hexponent)
  · exact readsAs_scientific

/-- What the text of a decimal looks like: a digit comes first, and a point or an
exponent tells it from an integer. -/
structure IsLiteral (text : List Char) : Prop where
  head : ∃ first rest, text = first :: rest ∧ first.isDigit = true
  mark : ∃ c ∈ text, c = '.' ∨ c = 'e'
  characters : ∀ c ∈ text, c.isDigit = true ∨ c = '.' ∨ c = 'e' ∨ c = '-'

theorem isLiteral_append {whole rest : List Char} {mark : Char} (hne : whole ≠ [])
    (hwhole : ∀ c ∈ whole, c.isDigit = true) (hmark : mark = '.' ∨ mark = 'e')
    (hrest : ∀ c ∈ rest, c.isDigit = true ∨ c = '.' ∨ c = 'e' ∨ c = '-') :
    IsLiteral (whole ++ mark :: rest) where
  head := by
    obtain ⟨first, others, rfl⟩ := List.exists_cons_of_ne_nil hne
    exact ⟨first, others ++ mark :: rest, rfl, hwhole first List.mem_cons_self⟩
  mark := ⟨mark, by simp, hmark⟩
  characters := by
    intro c hc
    rcases List.mem_append.mp hc with hc | hc
    · exact .inl (hwhole c hc)
    · rcases List.mem_cons.mp hc with rfl | hc
      · rcases hmark with rfl | rfl <;> simp
      · exact hrest c hc

theorem characters_toString (exponent : Int) :
    ∀ c ∈ (toString exponent).toList, c.isDigit = true ∨ c = '.' ∨ c = 'e' ∨ c = '-' := by
  intro c hc
  rw [Text.toList_toString] at hc
  rcases List.mem_append.mp hc with hsign | hdigit
  · split at hsign <;> simp_all
  · exact .inl (Text.isDigit_of_mem_toDigits c hdigit)

theorem isLiteral_positional (digits : Nat) (exponent : Int) :
    IsLiteral (positionalText FloatLayout.literal (Nat.toDigits 10 digits) exponent) := by
  rw [positionalText]
  split
  · have hwhole : ∀ c ∈ Nat.toDigits 10 digits ++ List.replicate exponent.toNat '0',
        c.isDigit = true := by
      intro c hc
      rcases List.mem_append.mp hc with hc | hc
      · exact Text.isDigit_of_mem_toDigits c hc
      · rw [List.eq_of_mem_replicate hc]
        rfl
    exact isLiteral_append (by simp) hwhole (.inl rfl) (by simp)
  · dsimp only
    split
    · refine isLiteral_append ?_
        (fun c hc => Text.isDigit_of_mem_toDigits c (List.mem_of_mem_take hc))
        (.inl rfl) (fun c hc => .inl (Text.isDigit_of_mem_toDigits c (List.mem_of_mem_drop hc)))
      intro hnil
      have hlength := congrArg List.length hnil
      rw [List.length_take, List.length_nil] at hlength
      omega
    · refine isLiteral_append (by simp : ['0'] ≠ []) (by decide) (.inl rfl) ?_
      intro c hc
      rcases List.mem_append.mp hc with hc | hc
      · rw [List.eq_of_mem_replicate hc]
        exact .inl rfl
      · exact .inl (Text.isDigit_of_mem_toDigits c hc)

theorem isLiteral_scientific (digits : Nat) (exponent : Int) :
    IsLiteral (scientificText (Nat.toDigits 10 digits) exponent) := by
  have hdigits : ∀ c ∈ Nat.toDigits 10 digits, c.isDigit = true := Text.isDigit_of_mem_toDigits
  cases htext : Nat.toDigits 10 digits with
  | nil => exact absurd htext Nat.toDigits_ne_nil
  | cons first rest =>
    rw [htext, List.forall_mem_cons] at hdigits
    cases rest with
    | nil =>
      exact isLiteral_append (by simp : [first] ≠ []) (by simpa using hdigits.1) (.inr rfl)
        (characters_toString exponent)
    | cons second others =>
      change IsLiteral ([first] ++ '.' :: (second :: others ++ 'e' :: (toString exponent).toList))
      refine isLiteral_append (by simp : [first] ≠ []) (by simpa using hdigits.1) (.inl rfl) ?_
      intro c hc
      rcases List.mem_append.mp hc with hc | hc
      · exact .inl (hdigits.2 c hc)
      · rcases List.mem_cons.mp hc with rfl | hc
        · simp
        · exact characters_toString exponent c hc

theorem isLiteral_text (decimal : Decimal) : IsLiteral (decimal.text FloatLayout.literal) := by
  rw [text]
  split
  · exact isLiteral_positional decimal.digits decimal.exponent
  · exact isLiteral_scientific decimal.digits _

end Decimal

namespace Binary64

variable {negative : Bool} {magnitude : Magnitude}

theorem eq_zero_of_significand (h : magnitude.significand = 0) : magnitude = Magnitude.zero := by
  obtain ⟨significand, shift, hcanonical⟩ := magnitude
  obtain rfl : significand = 0 := h
  obtain rfl : shift = 0 := by
    rcases hcanonical.2.2 with hshift | hleading
    · exact hshift
    · exact absurd hleading (by decide)
  rfl

theorem isLiteral_magnitudeText (magnitude : Magnitude) :
    Decimal.IsLiteral (magnitudeText FloatLayout.literal magnitude) := by
  rw [magnitudeText]
  split
  · exact Decimal.isLiteral_text _
  · exact Decimal.isLiteral_text _

theorem readDecimal?_magnitudeText (negative : Bool) (magnitude : Magnitude) :
    readDecimal? negative (magnitudeText FloatLayout.literal magnitude) =
      some (finite negative magnitude) := by
  rw [magnitudeText]
  by_cases hzero : magnitude.significand = 0
  · rw [if_pos hzero, eq_zero_of_significand hzero]
    cases negative <;> rfl
  · rw [if_neg hzero]
    obtain ⟨digits, exponent, hread, hadmits⟩ :=
      Decimal.readsAs_text negative magnitude.shortest
    rw [hread, ofDecimal_of_admits (hadmits magnitude (Magnitude.admits_shortest hzero)) hzero]

theorem toLower_of_isDigit {c : Char} (h : c.isDigit = true) : c.toLower = c :=
  Text.forall_isDigit (p := fun d => d.toLower = d) (by decide) h

/-- A text that starts with a digit is no word, and a sign may stand in front of it. -/
theorem read?_signed (negative : Bool) {text : List Char}
    (hhead : ∃ first rest, text = first :: rest ∧ first.isDigit = true) :
    read? ((if negative then ['-'] else []) ++ text) = readDecimal? negative text := by
  obtain ⟨first, rest, rfl, hfirst⟩ := hhead
  have hword : ∀ letter letters, letter.isDigit = false →
      (first :: rest).map Char.toLower ≠ letter :: letters := by
    intro letter letters hletter heq
    rw [List.map_cons, toLower_of_isDigit hfirst, List.cons.injEq] at heq
    rw [heq.1, hletter] at hfirst
    cases hfirst
  have hinfinity : ¬ ((first :: rest).map Char.toLower = ['i', 'n', 'f'] ∨
      (first :: rest).map Char.toLower = ['i', 'n', 'f', 'i', 'n', 'i', 't', 'y']) := by
    rintro (heq | heq)
    · exact hword 'i' _ (by decide) heq
    · exact hword 'i' _ (by decide) heq
  have hnan : (first :: rest).map Char.toLower ≠ ['n', 'a', 'n'] := hword 'n' _ (by decide)
  rw [read?, Text.splitSign_signed negative rest hfirst]
  simp only [if_neg hinfinity, if_neg hnan]

/-- A numeral without point and exponent is read as well, however large it is. -/
theorem read?_numeral (numeral : Text.Numeral) :
    read? numeral.text = some (ofDecimal numeral.negative numeral.magnitude 0) := by
  have htake : numeral.digits.takeWhile Char.isDigit = numeral.digits :=
    List.takeWhile_eq_self_iff.mpr numeral.isDigit
  have hdrop : numeral.digits.dropWhile Char.isDigit = [] :=
    List.dropWhile_eq_nil_iff.mpr numeral.isDigit
  have hvalue := Text.readNatural?_digits numeral.digits_ne_nil numeral.isDigit
  rw [Text.Numeral.text, read?_signed numeral.negative numeral.exists_digits_eq, readDecimal?]
  simp only [htake, hdrop, List.append_nil, hvalue]
  rfl

theorem toList_text (negative : Bool) (magnitude : Magnitude) :
    (finite negative magnitude).text.toList =
      (if negative then ['-'] else []) ++ magnitudeText FloatLayout.literal magnitude := by
  rw [text, textWith, String.toList_ofList]

/-- The text of a double that is a number is read as that double. -/
theorem read?_text {value : Binary64} (hvalue : value ≠ nan) :
    read? value.text.toList = some value := by
  cases value with
  | nan => exact absurd rfl hvalue
  | infinity negative => cases negative <;> rfl
  | finite negative magnitude =>
    rw [toList_text, read?_signed negative (isLiteral_magnitudeText magnitude).head,
      readDecimal?_magnitudeText]

/-- The text of a double is no integer. -/
theorem readInteger?_text (value : Binary64) : Text.readInteger? value.text.toList = none := by
  cases value with
  | nan => rfl
  | infinity negative => cases negative <;> rfl
  | finite negative magnitude =>
    have hliteral := isLiteral_magnitudeText magnitude
    obtain ⟨first, rest, htext, hfirst⟩ := hliteral.head
    obtain ⟨c, hc, hmark⟩ := hliteral.mark
    have hdigits : ¬ (first :: rest).all Char.isDigit = true := by
      intro hall
      have hdigit := List.all_eq_true.mp hall c (htext ▸ hc)
      rcases hmark with rfl | rfl <;> exact absurd hdigit (by decide)
    rw [toList_text, htext, Text.readInteger?, Text.splitSign_signed negative rest hfirst]
    simp only [Text.readNatural?, hdigits, Bool.false_eq_true, and_false, if_false]

/-- The characters of numbers, the words for the infinities included. -/
def isNumberCharacter (c : Char) : Bool :=
  c.isDigit || ['.', 'e', '-', 'i', 'n', 'f'].contains c

theorem isNumberCharacter_of_mem_text {value : Binary64} (hvalue : value ≠ nan) :
    ∀ c ∈ value.text.toList, isNumberCharacter c = true := by
  cases value with
  | nan => exact absurd rfl hvalue
  | infinity negative => cases negative <;> decide
  | finite negative magnitude =>
    intro c hc
    rw [toList_text, List.mem_append] at hc
    rcases hc with hsign | hc
    · split at hsign <;> simp_all [isNumberCharacter]
    · rcases (isLiteral_magnitudeText magnitude).characters c hc with hdigit | rfl | rfl | rfl
      · simp [isNumberCharacter, hdigit]
      · decide
      · decide
      · decide

theorem text_ne_empty (value : Binary64) : value.text ≠ "" := by
  cases value with
  | nan => decide
  | infinity negative => cases negative <;> decide
  | finite negative magnitude =>
    intro heq
    obtain ⟨first, rest, htext, -⟩ := (isLiteral_magnitudeText magnitude).head
    have hlist := toList_text negative magnitude
    rw [heq, htext] at hlist
    simp at hlist

end Binary64

end MiniZincModels
