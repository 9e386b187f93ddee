import MiniZincModels.Declaration.IndexKey
import MiniZincModels.Proofs.Identifier
import Mathlib.Logic.Function.Basic

/-!
# The names for index keys

Behind a valid base every key has a valid name.  Sanitizing writes a minus sign as the
underscore which also stands between components, but a numeral starts with at most one sign and
ends with a digit.  So the integers of a key can be read off its name again, and keys of one type
that is made of integers never share a name.
-/

namespace MiniZincModels

/-! ## Sanitized texts -/

namespace Identifier

variable {text : String}

theorem toList_sanitize_append (left right : String) :
    (sanitize (left ++ right)).toList = (sanitize left).toList ++ (sanitize right).toList := by
  simp [sanitize]

theorem isNameCharacter_of_mem_sanitize :
    ∀ c ∈ (sanitize text).toList, isNameCharacter c = true := by
  intro c hc
  rw [sanitize, String.toList_ofList, List.mem_map] at hc
  obtain ⟨d, -, rfl⟩ := hc
  by_cases hd : isNameCharacter d = true
  · rwa [if_pos hd]
  · rw [if_neg hd]
    rfl

theorem map_eq_self {characters : List Char} (h : ∀ c ∈ characters, isNameCharacter c = true) :
    (characters.map fun c => if isNameCharacter c then c else '_') = characters := by
  calc (characters.map fun c => if isNameCharacter c then c else '_')
      = characters.map fun c => c := List.map_congr_left fun c hc => if_pos (h c hc)
    _ = characters := List.map_id' characters

theorem sanitize_eq_self (h : ∀ c ∈ text.toList, isNameCharacter c = true) :
    sanitize text = text := by
  rw [sanitize, map_eq_self h, String.ofList_toList]

/-- No word of the language holds an underscore. -/
theorem not_mem_reservedWords_of_underscore (h : '_' ∈ text.toList) : text ∉ reservedWords := by
  have hwords : ∀ word ∈ reservedWords, '_' ∉ word.toList := by decide
  exact fun hmem => hwords text hmem h

end Identifier

namespace IndexKey

/-! ## Validity -/

/-- The characters that the components of a key add to the base. -/
def componentsText (components : List String) : List Char :=
  components.flatMap fun component => '_' :: (Identifier.sanitize component).toList

theorem toList_variableName (base : String) (key : IndexKey) :
    (key.variableName base).toList =
      (Identifier.sanitize base).toList ++ componentsText key.components := by
  rw [variableName]
  induction key.components generalizing base with
  | nil => simp [componentsText]
  | cons first rest ih =>
    have hfirst : ("_".intercalate (base :: first :: rest)) =
        base ++ ("_" ++ "_".intercalate (first :: rest)) := by
      rw [String.intercalate_cons_cons, String.append_assoc]
    have hunderscore : (Identifier.sanitize "_").toList = ['_'] := by decide
    rw [hfirst, Identifier.toList_sanitize_append, Identifier.toList_sanitize_append, ih first,
      hunderscore]
    simp [componentsText]

/-- The name for a key is valid, whatever characters the key holds. -/
theorem isValid_variableName {base : String} (hbase : Identifier.isValid base = true)
    (key : IndexKey) : Identifier.isValid (key.variableName base) = true := by
  obtain ⟨first, rest, hchars, hfirst⟩ := Identifier.exists_head hbase
  have hsanitized : Identifier.sanitize base = base :=
    Identifier.sanitize_eq_self (Identifier.isNameCharacter_of_mem hbase)
  have hname := toList_variableName base key
  rw [hsanitized, hchars] at hname
  refine Identifier.isValid_iff.mpr
    ⟨first, rest ++ componentsText key.components, hname, hfirst, ?_, ?_⟩
  · intro c hc
    have hmem : c ∈ (Identifier.sanitize ("_".intercalate (base :: key.components))).toList := by
      rw [← variableName, hname]
      exact List.mem_cons_of_mem first hc
    exact Identifier.isNameCharacter_of_mem_sanitize c hmem
  · cases hcomponents : key.components with
    | nil =>
      rw [variableName, hcomponents, String.intercalate_singleton, hsanitized]
      exact Identifier.not_mem_reservedWords hbase
    | cons component others =>
      apply Identifier.not_mem_reservedWords_of_underscore
      rw [hname, hcomponents]
      simp [componentsText]

/-! ## Integers read off a name -/

/-- The characters that a list of integers adds to the base. -/
def integersText (values : List Int) : List Char :=
  componentsText (values.map toString)

/-- Whether an underscore stands in the place of a sign, and the text behind it. -/
def splitMark : List Char → Bool × List Char
  | '_' :: rest => (true, rest)
  | rest => (false, rest)

/-- The integer at the start of a text, and the text behind its digits. -/
def takeInteger (text : List Char) : Int × List Char :=
  let (negative, digits) := splitMark text
  let magnitude := Nat.ofDigitChars 10 (digits.takeWhile Char.isDigit) 0
  (if negative then -(magnitude : Int) else magnitude, digits.dropWhile Char.isDigit)

theorem toList_sanitize_toString (value : Int) :
    (Identifier.sanitize (toString value)).toList =
      (if value < 0 then ['_'] else []) ++ Nat.toDigits 10 value.natAbs := by
  have hdigits : ∀ c ∈ Nat.toDigits 10 value.natAbs, Identifier.isNameCharacter c = true := by
    intro c hc
    simp [Identifier.isNameCharacter, Char.isAlphanum, Text.isDigit_of_mem_toDigits c hc]
  rw [Identifier.sanitize, String.toList_ofList, Text.toList_toString, List.map_append,
    Identifier.map_eq_self hdigits]
  split <;> rfl

theorem splitMark_append (value : Int) (rest : List Char) :
    splitMark ((if value < 0 then ['_'] else []) ++ (Nat.toDigits 10 value.natAbs ++ rest)) =
      (decide (value < 0), Nat.toDigits 10 value.natAbs ++ rest) := by
  by_cases hsign : value < 0
  · simp [hsign, splitMark]
  · obtain ⟨first, digits, hfirst⟩ := List.exists_cons_of_ne_nil
      (Nat.toDigits_ne_nil (b := 10) (n := value.natAbs))
    have hdigit : first.isDigit = true :=
      Text.isDigit_of_mem_toDigits first (hfirst ▸ List.mem_cons_self)
    rw [if_neg hsign, decide_eq_false hsign, hfirst, List.nil_append, List.cons_append, splitMark]
    rintro others ⟨⟩
    exact absurd hdigit (by decide)

/-- An integer is taken off the text that it starts, unless a digit follows it. -/
theorem takeInteger_append (value : Int) {rest : List Char}
    (hrest : ∀ c ∈ rest.head?, c.isDigit = false) :
    takeInteger ((Identifier.sanitize (toString value)).toList ++ rest) = (value, rest) := by
  have htake : (Nat.toDigits 10 value.natAbs ++ rest).takeWhile Char.isDigit =
      Nat.toDigits 10 value.natAbs := Text.takeWhile_run Text.isDigit_of_mem_toDigits hrest
  have hdrop : (Nat.toDigits 10 value.natAbs ++ rest).dropWhile Char.isDigit = rest :=
    Text.dropWhile_run Text.isDigit_of_mem_toDigits hrest
  have hvalue : (if value < 0 then -(value.natAbs : Int) else value.natAbs) = value := by
    split <;> omega
  rw [toList_sanitize_toString, List.append_assoc, takeInteger, splitMark_append]
  simp only [htake, hdrop, Nat.ofDigitChars_ten_toDigits, decide_eq_true_eq, hvalue]

theorem integersText_cons (value : Int) (values : List Int) :
    integersText (value :: values) =
      '_' :: ((Identifier.sanitize (toString value)).toList ++ integersText values) := by
  simp [integersText, componentsText]

theorem head?_integersText (values : List Int) :
    ∀ c ∈ (integersText values).head?, c.isDigit = false := by
  cases values with
  | nil => simp [integersText, componentsText]
  | cons value values =>
    rw [integersText_cons]
    rintro c ⟨⟩
    rfl

/-- What a list of integers adds to the base tells the list. -/
theorem integersText_injective : Function.Injective integersText := by
  intro left right heq
  induction left generalizing right with
  | nil =>
    cases right with
    | nil => rfl
    | cons value values =>
      rw [integersText_cons] at heq
      cases heq
  | cons value values ih =>
    cases right with
    | nil =>
      rw [integersText_cons] at heq
      cases heq
    | cons other others =>
      rw [integersText_cons, integersText_cons, List.cons.injEq] at heq
      have htaken := congrArg takeInteger heq.2
      rw [takeInteger_append value (head?_integersText values),
        takeInteger_append other (head?_integersText others), Prod.mk.injEq] at htaken
      rw [htaken.1, ih htaken.2]

/-! ## Keys of one type -/

/-- The types of keys which are made of integers: integers themselves, tuples with a place of
such a type for each of their keys, and arrays of some length all of whose places have one such
type. -/
inductive IntegerType
  | integer
  | tuple (places : List IntegerType)
  | array (place : IntegerType) (length : Nat)

mutual

/-- The integers of a key from left to right. -/
def integers : IndexKey → List Int
  | number value => [value]
  | text _ | character _ => []
  | tuple keys | array keys => allIntegers keys

def allIntegers : List IndexKey → List Int
  | [] => []
  | first :: rest => first.integers ++ allIntegers rest

end

mutual

def HasType : IntegerType → IndexKey → Prop
  | .integer, number _ => True
  | .tuple places, tuple keys => HaveTypes places keys
  | .array place length, array keys => HaveTypes (List.replicate length place) keys
  | _, _ => False

def HaveTypes : List IntegerType → List IndexKey → Prop
  | [], [] => True
  | place :: places, key :: keys => HasType place key ∧ HaveTypes places keys
  | _, _ => False

end

mutual

theorem components_eq_integers : (type : IntegerType) → (key : IndexKey) → HasType type key →
    key.components = key.integers.map toString
  | .integer, number _, _ => rfl
  | .tuple places, tuple keys, h => by
    rw [components, integers, allComponents_eq_integers places keys h]
  | .array place length, array keys, h => by
    rw [components, integers, allComponents_eq_integers (List.replicate length place) keys h]

theorem allComponents_eq_integers : (places : List IntegerType) → (keys : List IndexKey) →
    HaveTypes places keys → allComponents keys = (allIntegers keys).map toString
  | [], [], _ => rfl
  | place :: places, key :: keys, h => by
    rw [allComponents, allIntegers, List.map_append, components_eq_integers place key h.1,
      allComponents_eq_integers places keys h.2]

end

mutual

/-- A key is told by its type and its integers, also when other integers follow. -/
theorem eq_of_integers_append {leftRest rightRest : List Int} : (type : IntegerType) →
    (left right : IndexKey) → HasType type left → HasType type right →
    left.integers ++ leftRest = right.integers ++ rightRest → left = right ∧ leftRest = rightRest
  | .integer, number _, number _, _, _, h => by
    rw [integers, integers, List.singleton_append, List.singleton_append, List.cons.injEq] at h
    exact ⟨congrArg number h.1, h.2⟩
  | .tuple places, tuple left, tuple right, hleft, hright, h =>
    (eq_of_allIntegers_append places left right hleft hright h).imp_left (congrArg tuple)
  | .array place length, array left, array right, hleft, hright, h =>
    (eq_of_allIntegers_append (List.replicate length place) left right hleft hright h).imp_left
      (congrArg array)

theorem eq_of_allIntegers_append {leftRest rightRest : List Int} : (places : List IntegerType) →
    (left right : List IndexKey) → HaveTypes places left → HaveTypes places right →
    allIntegers left ++ leftRest = allIntegers right ++ rightRest →
    left = right ∧ leftRest = rightRest
  | [], [], [], _, _, h => ⟨rfl, h⟩
  | place :: places, left :: lefts, right :: rights, hleft, hright, h => by
    rw [allIntegers, allIntegers, List.append_assoc, List.append_assoc] at h
    obtain ⟨rfl, hothers⟩ := eq_of_integers_append place left right hleft.1 hright.1 h
    obtain ⟨rfl, hrest⟩ := eq_of_allIntegers_append places lefts rights hleft.2 hright.2 hothers
    exact ⟨rfl, hrest⟩

end

section Names

variable {base : String} {left right : IndexKey}

/-- Keys with the same name have the same components, if these are integers. -/
theorem integers_eq_of_variableName {leftValues rightValues : List Int}
    (hleft : left.components = leftValues.map toString)
    (hright : right.components = rightValues.map toString)
    (h : left.variableName base = right.variableName base) : leftValues = rightValues := by
  have hchars := congrArg String.toList h
  rw [toList_variableName, toList_variableName, hleft, hright] at hchars
  exact integersText_injective (List.append_cancel_left hchars)

/-- Two keys of one type have different names, unless they are the same. -/
theorem eq_of_variableName {type : IntegerType} (hleft : HasType type left)
    (hright : HasType type right) (h : left.variableName base = right.variableName base) :
    left = right := by
  have hintegers := integers_eq_of_variableName (components_eq_integers type left hleft)
    (components_eq_integers type right hright) h
  have hnothing : left.integers ++ [] = right.integers ++ [] := by rw [hintegers]
  exact (eq_of_integers_append type left right hleft hright hnothing).1

theorem components_tuple_number (values : List Int) :
    (tuple (values.map number)).components = values.map toString := by
  rw [components]
  induction values with
  | nil => rfl
  | cons value values ih => simp [allComponents, components, ih]

/-- Lists of integers, of whatever lengths, have different names. -/
theorem variableName_injective (base : String) :
    Function.Injective fun values : List Int => (tuple (values.map number)).variableName base :=
  fun left right => integers_eq_of_variableName (components_tuple_number left)
    (components_tuple_number right)

end Names

end IndexKey

end MiniZincModels
