import MiniZincModels.IntSet
import MiniZincModels.Proofs.Binary64.Text
import MiniZincModels.Proofs.Identifier

/-!
# Words

The words of a text are its longest runs of name characters.  Texts that are put
together keep their words as long as no word of one meets a word of the other, for
which a character between them is enough that belongs to no name.
-/

namespace MiniZincModels.Text

/-- A character that stands in no name. -/
def isBreak (c : Char) : Bool :=
  !Identifier.isNameCharacter c

/-- The longest runs of characters that stand in names. -/
def runs (text : List Char) : List (List Char) :=
  (text.splitOnP isBreak).filter fun run => !run.isEmpty

def words (text : String) : List String :=
  (runs text.toList).map String.ofList

/-- No word of the first text meets a word of the second one. -/
def Apart (left right : List Char) : Prop :=
  (∀ c ∈ left.getLast?, isBreak c = true) ∨ ∀ c ∈ right.head?, isBreak c = true

/-- The text begins and ends with a character that stands in no name. -/
def IsDelimiter (text : String) : Prop :=
  text ≠ "" ∧ (∀ c ∈ text.toList.head?, isBreak c = true) ∧
    ∀ c ∈ text.toList.getLast?, isBreak c = true

instance (text : String) : Decidable (IsDelimiter text) :=
  inferInstanceAs (Decidable (_ ∧ _ ∧ _))

/-- All words of the text have the property. -/
def AllWords (property : String → Prop) (text : String) : Prop :=
  ∀ word ∈ words text, property word

section Runs

variable {c : Char} {left right text : List Char}

@[simp]
theorem runs_nil : runs [] = [] := by
  simp [runs]

/-- What there is to know about the runs of longer texts follows from this. -/
theorem runs_append_cons (left right : List Char) (hc : isBreak c = true) :
    runs (left ++ c :: right) = runs left ++ runs right := by
  rw [runs, List.splitOnP_append_cons left right hc, List.filter_append, runs, runs]

theorem runs_append (h : Apart left right) : runs (left ++ right) = runs left ++ runs right := by
  rcases h with hlast | hhead
  · rcases List.eq_nil_or_concat left with rfl | ⟨before, c, rfl⟩
    · simp
    · rw [List.concat_eq_append, List.getLast?_concat] at hlast
      have hc := hlast c rfl
      rw [List.concat_eq_append, List.append_assoc, List.singleton_append,
        runs_append_cons before right hc, runs_append_cons before [] hc, runs_nil, List.append_nil]
  · cases right with
    | nil => simp
    | cons c rest =>
      have hc := hhead c rfl
      have hrest := runs_append_cons [] rest hc
      rw [List.nil_append, runs_nil, List.nil_append] at hrest
      rw [runs_append_cons left rest hc, hrest]

theorem runs_of_forall (hne : text ≠ []) (h : ∀ c ∈ text, Identifier.isNameCharacter c = true) :
    runs text = [text] := by
  have hbreak : ∀ c ∈ text, isBreak c = false := fun c hc => by simp [isBreak, h c hc]
  rw [runs, List.splitOnP_eq_singleton hbreak]
  simp [hne]

end Runs

section AllWords

variable {property larger : String → Prop} {left right separator text : String}
  {texts : List String}

theorem AllWords.mono (h : AllWords property text)
    (himp : ∀ word, property word → larger word) : AllWords larger text :=
  fun word hword => himp word (h word hword)

theorem AllWords.append (hleft : AllWords property left) (hright : AllWords property right)
    (hapart : Apart left.toList right.toList) : AllWords property (left ++ right) := by
  rw [AllWords, words, String.toList_append, runs_append hapart, List.map_append,
    List.forall_mem_append]
  exact ⟨hleft, hright⟩

/-- A delimiter keeps what stands before it apart from what stands behind it. -/
theorem AllWords.delimited (hleft : AllWords property left) (hdelimiter : IsDelimiter separator)
    (hseparator : AllWords property separator) (hright : AllWords property right) :
    AllWords property (left ++ separator ++ right) := by
  obtain ⟨hne, hhead, hlast⟩ := hdelimiter
  refine (hleft.append hseparator (.inr hhead)).append hright (.inl ?_)
  rcases List.eq_nil_or_concat separator.toList with hnil | ⟨before, c, htext⟩
  · exact absurd (String.toList_eq_nil_iff.mp hnil) hne
  · rw [String.toList_append, htext, List.concat_eq_append, ← List.append_assoc,
      List.getLast?_concat]
    rwa [htext, List.concat_eq_append, List.getLast?_concat] at hlast

theorem allWords_intercalate (hdelimiter : IsDelimiter separator)
    (hseparator : AllWords property separator) (htexts : ∀ text ∈ texts, AllWords property text) :
    AllWords property (separator.intercalate texts) := by
  induction texts with
  | nil => simp [AllWords, words]
  | cons first rest ih =>
    rw [List.forall_mem_cons] at htexts
    cases rest with
    | nil => simpa using htexts.1
    | cons second rest =>
      rw [String.intercalate_cons_cons]
      exact htexts.1.delimited hdelimiter hseparator (ih htexts.2)

/-- A text of name characters is the only word of its own. -/
theorem allWords_of_forall (hword : property text)
    (h : ∀ c ∈ text.toList, Identifier.isNameCharacter c = true) : AllWords property text := by
  by_cases hne : text.toList = []
  · simp [AllWords, words, hne]
  · rw [AllWords, words, runs_of_forall hne h, List.map_singleton, String.ofList_toList,
      List.forall_mem_singleton]
    exact hword

theorem allWords_of_isValid {name : String} (hvalid : Identifier.isValid name = true)
    (hname : property name) : AllWords property name :=
  allWords_of_forall hname (Identifier.isNameCharacter_of_mem hvalid)

end AllWords

/-! ## Numbers -/

/-- The runs of a decimal: each begins with a digit. -/
def StartsWithDigit (run : List Char) : Prop :=
  ∃ c ∈ run.head?, c.isDigit = true

/-- A word that begins with a digit, or one of the two words for the doubles that have no
numeral. -/
def IsNumber (word : String) : Prop :=
  StartsWithDigit word.toList ∨ word = "inf" ∨ word = "NaN"

section Numbers

variable {whole fraction text : List Char}

theorem isNameCharacter_of_isDigit {c : Char} (h : c.isDigit = true) :
    Identifier.isNameCharacter c = true := by
  simp [Identifier.isNameCharacter, Char.isAlphanum, h]

theorem runs_digits (h : ∀ c ∈ text, c.isDigit = true) :
    ∀ run ∈ runs text, StartsWithDigit run := by
  cases text with
  | nil => simp
  | cons first rest =>
    rw [runs_of_forall (List.cons_ne_nil first rest) fun c hc =>
      isNameCharacter_of_isDigit (h c hc), List.forall_mem_singleton]
    exact ⟨first, rfl, h first List.mem_cons_self⟩

theorem runs_pointed (hwhole : ∀ c ∈ whole, c.isDigit = true)
    (hfraction : ∀ run ∈ runs fraction, StartsWithDigit run) :
    ∀ run ∈ runs (whole ++ '.' :: fraction), StartsWithDigit run := by
  rw [runs_append_cons whole fraction (by decide), List.forall_mem_append]
  exact ⟨runs_digits hwhole, hfraction⟩

/-- The letter of an exponent stands behind a digit, so it begins no run. -/
theorem runs_scientific (hne : whole ≠ []) (hwhole : ∀ c ∈ whole, c.isDigit = true)
    (exponent : Int) :
    ∀ run ∈ runs (whole ++ 'e' :: (toString exponent).toList), StartsWithDigit run := by
  obtain ⟨first, rest, rfl⟩ := List.exists_cons_of_ne_nil hne
  have hdigits : ∀ c ∈ Nat.toDigits 10 exponent.natAbs, c.isDigit = true :=
    isDigit_of_mem_toDigits
  rw [List.forall_mem_cons] at hwhole
  have hrun : ∀ others, (∀ c ∈ others, c.isDigit = true) →
      ∀ run ∈ runs (first :: rest ++ 'e' :: others), StartsWithDigit run := by
    intro others hothers
    rw [runs_of_forall (by simp), List.forall_mem_singleton]
    · exact ⟨first, rfl, hwhole.1⟩
    · rw [List.forall_mem_append, List.forall_mem_cons, List.forall_mem_cons]
      exact ⟨⟨isNameCharacter_of_isDigit hwhole.1,
          fun c hc => isNameCharacter_of_isDigit (hwhole.2 c hc)⟩,
        by decide, fun c hc => isNameCharacter_of_isDigit (hothers c hc)⟩
  rw [toList_toString]
  by_cases hsign : exponent < 0
  · rw [if_pos hsign]
    have htext : first :: rest ++ 'e' :: (['-'] ++ Nat.toDigits 10 exponent.natAbs) =
        (first :: rest ++ ['e']) ++ '-' :: Nat.toDigits 10 exponent.natAbs := by simp
    rw [htext, runs_append_cons _ _ (by decide), List.forall_mem_append]
    exact ⟨hrun [] (by simp), runs_digits hdigits⟩
  · rw [if_neg hsign, List.nil_append]
    exact hrun _ hdigits

theorem runs_positional (digits : Nat) (exponent : Int) :
    ∀ run ∈ runs (positionalText FloatLayout.literal (Nat.toDigits 10 digits) exponent),
      StartsWithDigit run := by
  have hdigits : ∀ c ∈ Nat.toDigits 10 digits, c.isDigit = true := isDigit_of_mem_toDigits
  have hzeros : ∀ count, ∀ c ∈ List.replicate count '0', c.isDigit = true := by
    intro count c hc
    rw [List.eq_of_mem_replicate hc]
    rfl
  rw [positionalText]
  split
  · exact runs_pointed (List.forall_mem_append.mpr ⟨hdigits, hzeros _⟩) (runs_digits (by simp))
  · dsimp only
    split
    · exact runs_pointed (fun c hc => hdigits c (List.mem_of_mem_take hc))
        (runs_digits fun c hc => hdigits c (List.mem_of_mem_drop hc))
    · exact runs_pointed (by simp : ∀ c ∈ ['0'], c.isDigit = true)
        (runs_digits (List.forall_mem_append.mpr ⟨hzeros _, hdigits⟩))

theorem runs_scientificText (digits : Nat) (exponent : Int) :
    ∀ run ∈ runs (scientificText (Nat.toDigits 10 digits) exponent), StartsWithDigit run := by
  have hdigits : ∀ c ∈ Nat.toDigits 10 digits, c.isDigit = true := isDigit_of_mem_toDigits
  cases htext : Nat.toDigits 10 digits with
  | nil => exact absurd htext Nat.toDigits_ne_nil
  | cons first rest =>
    rw [htext, List.forall_mem_cons] at hdigits
    have hfirst : ∀ c ∈ [first], c.isDigit = true := by simpa using hdigits.1
    cases rest with
    | nil => exact runs_scientific (List.cons_ne_nil first []) hfirst exponent
    | cons second others =>
      exact runs_pointed hfirst
        (runs_scientific (List.cons_ne_nil second others) hdigits.2 exponent)

theorem runs_magnitudeText (magnitude : Magnitude) :
    ∀ run ∈ runs (Binary64.magnitudeText FloatLayout.literal magnitude), StartsWithDigit run := by
  have hdecimal : ∀ decimal : Decimal, ∀ run ∈ runs (decimal.text FloatLayout.literal),
      StartsWithDigit run := by
    intro decimal
    rw [Decimal.text]
    split
    · exact runs_positional decimal.digits decimal.exponent
    · exact runs_scientificText decimal.digits _
  rw [Binary64.magnitudeText]
  split <;> exact hdecimal _

/-- A sign in front belongs to no word. -/
theorem allWords_signed {negative : Prop} [Decidable negative] {digits : List Char}
    {text : String} (htext : text.toList = (if negative then ['-'] else []) ++ digits)
    (hdigits : ∀ run ∈ runs digits, StartsWithDigit run) : AllWords IsNumber text := by
  have hruns : runs text.toList = runs digits := by
    have hsign : ∀ c ∈ (if negative then ['-'] else []).getLast?, isBreak c = true := by
      split <;> decide
    have hnone : runs (if negative then ['-'] else []) = [] := by
      split <;> decide
    rw [htext, runs_append (.inl hsign), hnone, List.nil_append]
  rw [AllWords, words, hruns, List.forall_mem_map]
  intro run hrun
  exact .inl (by simpa using hdigits run hrun)

theorem allWords_integerText (value : Int64) : AllWords IsNumber (integerText value) :=
  allWords_signed (toList_integerText value) (runs_digits isDigit_of_mem_toDigits)

theorem allWords_toString (value : Nat) : AllWords IsNumber (toString value) := by
  have htext : (toString value).toList =
      (if False then ['-'] else []) ++ Nat.toDigits 10 value := by simp [Nat.toList_repr]
  exact allWords_signed htext (runs_digits isDigit_of_mem_toDigits)

theorem allWords_floatText (value : Binary64) : AllWords IsNumber value.text := by
  cases value with
  | nan => exact allWords_of_forall (.inr (.inr rfl)) (by decide)
  | infinity negative =>
    have hwords : ∀ word ∈ words (Binary64.infinity negative).text, word = "inf" := by
      cases negative <;> decide
    exact fun word hword => .inr (.inl (hwords word hword))
  | finite negative magnitude =>
    exact allWords_signed (Binary64.toList_text negative magnitude) (runs_magnitudeText magnitude)

end Numbers

end MiniZincModels.Text
