import MiniZincModels.Proofs.Binary64.Text
import MiniZincModels.Proofs.Outcome
import MiniZincModels.Proofs.Output.Splitting
import MiniZincModels.Proofs.Text.Numeral

/-!
# Values read back

The text of a value is read as that value, however deeply its arrays are nested and
whatever blanks stand around it.  Only a float that is not a number has no text of
its own.
-/

namespace MiniZincModels.Value

mutual

/-- No float in the value is a not-a-number. -/
def HasNumbers : Value → Prop
  | int _ => True
  | float value => value ≠ .nan
  | bool _ => True
  | set _ => True
  | array values => AllHaveNumbers values

def AllHaveNumbers : List Value → Prop
  | [] => True
  | first :: rest => first.HasNumbers ∧ AllHaveNumbers rest

end

/-! ## The characters of a value -/

/-- Neither a separator nor a bracket nor a blank. -/
def isPlain (c : Char) : Bool :=
  c != ',' && c != ';' && !isOpening c && !isClosing c && !Text.isBlank c

/-- The texts of elements: they are not cut, blanks around them can be trimmed, and they
fit into one statement on one line. -/
structure IsElement (text : List Char) : Prop where
  isSolid : IsSolid 0 text
  isTight : Text.IsTight text
  ne_nil : text ≠ []
  oneStatement : ';' ∉ text
  oneLine : '\n' ∉ text

section Elements

variable {text : List Char} {texts : List String}

theorem isElement_of_isPlain (hne : text ≠ []) (h : ∀ c ∈ text, isPlain c = true) :
    IsElement text := by
  simp only [isPlain, Bool.and_eq_true, bne_iff_ne, Bool.not_eq_true'] at h
  constructor
  · exact isSolid_of_forall fun c hc => ⟨(h c hc).1.1.1.1, (h c hc).1.1.2, (h c hc).1.2⟩
  · exact Text.isTight_of_forall fun c hc => (h c hc).2
  · exact hne
  · intro hmem
    exact (h ';' hmem).1.1.1.2 rfl
  · intro hmem
    exact absurd (h '\n' hmem).2 (by decide)

theorem IsElement.allBlank (h : IsElement text) : Text.allBlank text = false := by
  obtain ⟨first, rest, rfl⟩ := List.exists_cons_of_ne_nil h.ne_nil
  have hfirst := h.isTight.1 first rfl
  simp [Text.allBlank, hfirst]

theorem not_mem_joined {c : Char} (hcomma : c ≠ ',') (hblank : c ≠ ' ')
    (htexts : ∀ text ∈ texts, c ∉ text.toList) : c ∉ (", ".intercalate texts).toList := by
  induction texts with
  | nil => simp
  | cons first rest ih =>
    rw [List.forall_mem_cons] at htexts
    cases rest with
    | nil => simpa using htexts.1
    | cons second rest =>
      rw [toList_joined_cons_cons]
      simp only [List.mem_append, List.mem_cons, not_or]
      exact ⟨htexts.1, hcomma, hblank, ih htexts.2⟩

theorem not_mem_enclosed {c opening closing : Char} (hopening : c ≠ opening)
    (hclosing : c ≠ closing) (htext : c ∉ text) : c ∉ opening :: (text ++ [closing]) := by
  simp [hopening, hclosing, htext]

theorem isElement_enclosed {opening closing : Char}
    (hbrackets : (opening, closing) ∈ [('[', ']'), ('\x7b', '\x7d')])
    (htexts : ∀ text ∈ texts, IsElement text.toList) :
    IsElement (opening :: ((", ".intercalate texts).toList ++ [closing])) := by
  have hinner : IsSolid 1 (", ".intercalate texts).toList :=
    isSolid_joined fun text hmem => (htexts text hmem).isSolid
  have hstatement : ';' ∉ (", ".intercalate texts).toList :=
    not_mem_joined (by decide) (by decide) fun text hmem => (htexts text hmem).oneStatement
  have hline : '\n' ∉ (", ".intercalate texts).toList :=
    not_mem_joined (by decide) (by decide) fun text hmem => (htexts text hmem).oneLine
  simp only [List.mem_cons, Prod.mk.injEq, List.not_mem_nil, or_false] at hbrackets
  rcases hbrackets with ⟨rfl, rfl⟩ | ⟨rfl, rfl⟩
  · exact ⟨isSolid_enclosed rfl rfl (by decide) rfl hinner,
      Text.isTight_enclosed (by decide) (by decide), by simp,
      not_mem_enclosed (by decide) (by decide) hstatement,
      not_mem_enclosed (by decide) (by decide) hline⟩
  · exact ⟨isSolid_enclosed rfl rfl (by decide) rfl hinner,
      Text.isTight_enclosed (by decide) (by decide), by simp,
      not_mem_enclosed (by decide) (by decide) hstatement,
      not_mem_enclosed (by decide) (by decide) hline⟩

theorem isElement_numeral (numeral : Text.Numeral) : IsElement numeral.text := by
  refine isElement_of_isPlain numeral.text_ne_nil fun c hc => ?_
  rcases numeral.isDigit_or_eq_of_mem_text hc with hdigit | rfl
  · exact Text.forall_isDigit (p := fun d => isPlain d = true) (by decide) hdigit
  · decide

theorem isElement_integerText (value : Int64) : IsElement (Text.integerText value).toList := by
  rw [← Text.Numeral.text_ofInt64]
  exact isElement_numeral _

theorem isElement_float {value : Binary64} (hvalue : value ≠ .nan) :
    IsElement value.text.toList := by
  apply isElement_of_isPlain
  · intro hnil
    exact Binary64.text_ne_empty value (String.toList_eq_nil_iff.mp hnil)
  · intro c hc
    have hnumber := Binary64.isNumberCharacter_of_mem_text hvalue c hc
    rw [Binary64.isNumberCharacter, Bool.or_eq_true] at hnumber
    rcases hnumber with hdigit | hmark
    · exact Text.forall_isDigit (p := fun d => isPlain d = true) (by decide) hdigit
    · rw [List.contains_iff_mem] at hmark
      exact (by decide : ∀ d ∈ ['.', 'e', '-', 'i', 'n', 'f'], isPlain d = true) c hmark

theorem toList_setText (values : IntSet) :
    values.text.toList =
      '\x7b' :: ((", ".intercalate (values.elements.map Text.integerText)).toList ++
        ['\x7d']) := by
  rw [IntSet.text, String.toList_append, String.toList_append]
  rfl

theorem toList_arrayText (values : List Value) :
    (array values).text.toList =
      '[' :: ((", ".intercalate (values.map Value.text)).toList ++ [']']) := by
  rw [Value.text, texts_eq_map, Expr.listText, String.toList_append, String.toList_append]
  rfl

end Elements

mutual

theorem isElement_text : (value : Value) → value.HasNumbers → IsElement value.text.toList
  | int value, _ => isElement_integerText value
  | float _, hvalue => isElement_float hvalue
  | bool value, _ => by
    cases value <;> exact isElement_of_isPlain (by decide) (by decide)
  | set values, _ => by
    rw [Value.text, toList_setText]
    refine isElement_enclosed (by decide) ?_
    intro text hmem
    obtain ⟨value, -, rfl⟩ := List.mem_map.mp hmem
    exact isElement_integerText value
  | array values, hvalues => by
    rw [toList_arrayText]
    refine isElement_enclosed (by decide) ?_
    intro text hmem
    obtain ⟨value, hvalue, rfl⟩ := List.mem_map.mp hmem
    exact isElement_texts values hvalues value hvalue

theorem isElement_texts : (values : List Value) → AllHaveNumbers values →
    ∀ value ∈ values, IsElement value.text.toList
  | [], _ => by simp
  | first :: rest, hvalues =>
    List.forall_mem_cons.mpr ⟨isElement_text first hvalues.1, isElement_texts rest hvalues.2⟩

end

/-! ## Reading -/

/-- A text that starts with a bracket is no number. -/
theorem readInteger?_bracket {opening : Char} (hopening : opening ∈ ['[', '\x7b'])
    (rest : List Char) : Text.readInteger? (opening :: rest) = none := by
  simp only [List.mem_cons, List.not_mem_nil, or_false] at hopening
  rcases hopening with rfl | rfl <;> rfl

theorem read?_bracket {opening : Char} (hopening : opening ∈ ['[', '\x7b'])
    (rest : List Char) : Binary64.read? (opening :: rest) = none := by
  simp only [List.mem_cons, List.not_mem_nil, or_false] at hopening
  rcases hopening with rfl | rfl
  · have hlower : Char.toLower '[' = '[' := by decide
    have hdecimal : Binary64.readDecimal? false ('[' :: rest) = none := rfl
    have hsign : Text.splitSign ('[' :: rest) = (false, '[' :: rest) := rfl
    simp [Binary64.read?, hsign, hlower, hdecimal]
  · have hlower : Char.toLower '\x7b' = '\x7b' := by decide
    have hdecimal : Binary64.readDecimal? false ('\x7b' :: rest) = none := rfl
    have hsign : Text.splitSign ('\x7b' :: rest) = (false, '\x7b' :: rest) := rfl
    simp [Binary64.read?, hsign, hlower, hdecimal]

theorem rangeBounds?_bracket {opening : Char} (hopening : opening ∈ ['[', '\x7b'])
    (rest : List Char) : rangeBounds? (opening :: rest) = none := by
  simp only [List.mem_cons, List.not_mem_nil, or_false] at hopening
  rcases hopening with rfl | rfl
  · rfl
  · rfl

theorem enclosed?_append (opening closing : Char) (inner : List Char) :
    enclosed? opening closing (opening :: (inner ++ [closing])) = some inner := by
  simp [enclosed?]

/-! ## Reading texts of values -/

section Read

variable {α ε : Type} {depth : Nat} {padded : List Char}

/-- Each piece of a joined list is read as the element it was written for. -/
theorem mapM_joinedPieces {read : List Char → Except ε α} {write : α → String} {values : List α}
    (htight : ∀ value ∈ values, Text.IsTight (write value).toList)
    (hread : ∀ value ∈ values, ∀ padded, Text.trim padded = (write value).toList →
      read padded = .ok value) :
    (joinedPieces (values.map write)).mapM read = .ok values := by
  rw [Outcome.mapM_eq_ok]
  cases values with
  | nil => exact .nil
  | cons first rest =>
    rw [List.forall_mem_cons] at htight hread
    have hfirst : read (write first).toList = .ok first :=
      hread.1 _ (Text.trim_eq_self htight.1)
    have hrest : ∀ value ∈ rest, read (' ' :: (write value).toList) = .ok value := by
      intro value hmem
      apply hread.2 value hmem
      have hblank : Text.allBlank [' '] = true := by decide
      calc Text.trim (' ' :: (write value).toList)
          = Text.trim (write value).toList := Text.trim_append_left _ hblank
        _ = (write value).toList := Text.trim_eq_self (htight.2 value hmem)
    refine .cons hfirst ?_
    rw [List.map_map, List.forall₂_map_left_iff, List.forall₂_same]
    exact hrest

theorem length_le_joined {text : String} {texts : List String} (hmem : text ∈ texts) :
    text.toList.length ≤ (", ".intercalate texts).toList.length := by
  induction texts with
  | nil => cases hmem
  | cons first rest ih =>
    cases rest with
    | nil =>
      rw [List.mem_singleton] at hmem
      simp [hmem]
    | cons second rest =>
      rw [toList_joined_cons_cons, List.length_append, List.length_cons, List.length_cons]
      rcases List.mem_cons.mp hmem with rfl | hmem
      · omega
      · have hrest := ih hmem
        omega

/-- A numeral is read as the machine integer of its value, and as a float if there is none. -/
theorem readNested_numeral {numeral : Text.Numeral} (htrim : Text.trim padded = numeral.text) :
    readNested (depth + 1) padded =
      .ok (match Text.toInt64? numeral.value with
        | some word => int word
        | none => float (Binary64.ofDecimal numeral.negative numeral.magnitude 0)) := by
  have htrue : numeral.text ≠ ['t', 'r', 'u', 'e'] := numeral.text_ne (by decide)
  have hfalse : numeral.text ≠ ['f', 'a', 'l', 's', 'e'] := numeral.text_ne (by decide)
  rw [readNested, htrim, if_neg htrue, if_neg hfalse, numeral.readInteger?_text]
  cases Text.toInt64? numeral.value with
  | some word => rfl
  | none => simp only [Binary64.read?_numeral]

theorem readNested_integer {value : Int64}
    (htrim : Text.trim padded = (Text.integerText value).toList) :
    readNested (depth + 1) padded = .ok (int value) := by
  rw [← Text.Numeral.text_ofInt64] at htrim
  rw [readNested_numeral htrim, Text.Numeral.value_ofInt64, Text.toInt64?_toInt]

theorem readNested_float {value : Binary64} (hvalue : value ≠ .nan)
    (htrim : Text.trim padded = value.text.toList) :
    readNested (depth + 1) padded = .ok (float value) := by
  have hletter : ∀ c, Binary64.isNumberCharacter c = false → c ∉ value.text.toList := by
    intro c hc hmem
    rw [Binary64.isNumberCharacter_of_mem_text hvalue c hmem] at hc
    cases hc
  have htrue : value.text.toList ≠ ['t', 'r', 'u', 'e'] := by
    intro heq
    exact hletter 't' (by decide) (heq ▸ by decide)
  have hfalse : value.text.toList ≠ ['f', 'a', 'l', 's', 'e'] := by
    intro heq
    exact hletter 's' (by decide) (heq ▸ by decide)
  rw [readNested, htrim, if_neg htrue, if_neg hfalse, Binary64.readInteger?_text]
  simp only [Binary64.read?_text hvalue]

theorem not_word_of_bracket {opening : Char} (hopening : opening ∈ ['[', '\x7b'])
    (rest : List Char) :
    opening :: rest ≠ ['t', 'r', 'u', 'e'] ∧ opening :: rest ≠ ['f', 'a', 'l', 's', 'e'] := by
  constructor
  · rintro heq
    cases heq
    exact absurd hopening (by decide)
  · rintro heq
    cases heq
    exact absurd hopening (by decide)

/-- What stands in curly brackets is read as the elements of a set. -/
theorem readNested_curly {rest inner : List Char} (htrim : Text.trim padded = '\x7b' :: rest)
    (hinner : enclosed? '\x7b' '\x7d' ('\x7b' :: rest) = some inner) :
    readNested (depth + 1) padded =
      ((splitElements inner).mapM readInt).map fun values => set (IntSet.ofList values) := by
  have hopening : '\x7b' ∈ ['[', '\x7b'] := by decide
  have hword := not_word_of_bracket hopening rest
  rw [readNested, htrim, if_neg hword.1, if_neg hword.2, readInteger?_bracket hopening]
  simp only [read?_bracket hopening, rangeBounds?_bracket hopening, hinner]

/-- What stands in square brackets is read as the elements of an array. -/
theorem readNested_square {rest inner : List Char} (htrim : Text.trim padded = '[' :: rest)
    (hinner : enclosed? '[' ']' ('[' :: rest) = some inner) :
    readNested (depth + 1) padded = ((splitElements inner).mapM (readNested depth)).map array := by
  have hopening : '[' ∈ ['[', '\x7b'] := by decide
  have hword := not_word_of_bracket hopening rest
  have hset : enclosed? '\x7b' '\x7d' ('[' :: rest) = none := by
    simp [enclosed?]
  rw [readNested, htrim, if_neg hword.1, if_neg hword.2, readInteger?_bracket hopening]
  simp only [read?_bracket hopening, rangeBounds?_bracket hopening, hset, hinner]

theorem readNested_set {values : IntSet} (htrim : Text.trim padded = values.text.toList) :
    readNested (depth + 1) padded = .ok (set values) := by
  have hread : ((splitElements (", ".intercalate
      (values.elements.map Text.integerText)).toList).mapM readInt) = .ok values.elements := by
    rw [splitElements_joined]
    · refine mapM_joinedPieces ?_ ?_
      · intro value _
        exact (isElement_integerText value).isTight
      · intro value _ padded hpadded
        rw [readInt, hpadded, Text.readInteger?_integerText]
    · intro text hmem
      obtain ⟨value, -, rfl⟩ := List.mem_map.mp hmem
      exact (isElement_integerText value).isSolid
    · intro text hmem
      obtain ⟨value, -, rfl⟩ := List.mem_map.mp hmem
      exact (isElement_integerText value).allBlank
  rw [toList_setText] at htrim
  rw [readNested_curly htrim (enclosed?_append _ _ _), hread]
  simp only [Except.map, IntSet.ofList_elements]

theorem readNested_array {values : List Value}
    (helements : ∀ value ∈ values, IsElement value.text.toList)
    (hread : ∀ value ∈ values, ∀ padded, Text.trim padded = value.text.toList →
      readNested depth padded = .ok value)
    (htrim : Text.trim padded = (array values).text.toList) :
    readNested (depth + 1) padded = .ok (array values) := by
  have helement : ∀ text ∈ values.map Value.text, IsElement text.toList := by
    intro text hmem
    obtain ⟨value, hvalue, rfl⟩ := List.mem_map.mp hmem
    exact helements value hvalue
  have hpieces : ((splitElements (", ".intercalate (values.map Value.text)).toList).mapM
      (readNested depth)) = .ok values := by
    rw [splitElements_joined (fun text hmem => (helement text hmem).isSolid)
      (fun text hmem => (helement text hmem).allBlank)]
    exact mapM_joinedPieces (fun value hmem => (helements value hmem).isTight) hread
  rw [toList_arrayText] at htrim
  rw [readNested_square htrim (enclosed?_append _ _ _), hpieces]
  rfl

end Read

/-- The text of the value is read as the value, if the nesting that is allowed covers the
length of the text. -/
def IsRead (value : Value) : Prop :=
  ∀ depth padded, value.text.toList.length ≤ depth → Text.trim padded = value.text.toList →
    readNested (depth + 1) padded = .ok value

theorem isRead_array {values : List Value} (hvalues : AllHaveNumbers values)
    (hread : ∀ value ∈ values, value.IsRead) : (array values).IsRead := by
  intro depth padded hdepth htrim
  refine readNested_array (isElement_texts values hvalues) ?_ htrim
  intro value hmem padded hpadded
  have hlength := length_le_joined (List.mem_map_of_mem (f := Value.text) hmem)
  rw [toList_arrayText, List.length_cons, List.length_append] at hdepth
  obtain ⟨inner, rfl⟩ : ∃ inner, depth = inner + 1 := Nat.exists_eq_add_of_le' (by omega)
  apply hread value hmem inner padded _ hpadded
  rw [List.length_singleton] at hdepth
  omega

mutual

theorem isRead_text : (value : Value) → value.HasNumbers → value.IsRead
  | int _, _ => fun _ _ _ htrim => readNested_integer htrim
  | float _, hvalue => fun _ _ _ htrim => readNested_float hvalue htrim
  | bool value, _ => by
    intro depth padded _ htrim
    rw [readNested, htrim]
    cases value <;> rfl
  | set _, _ => fun _ _ _ htrim => readNested_set htrim
  | array values, hvalues => isRead_array hvalues (isRead_texts values hvalues)

theorem isRead_texts : (values : List Value) → AllHaveNumbers values →
    ∀ value ∈ values, value.IsRead
  | [], _ => by simp
  | first :: rest, hvalues =>
    List.forall_mem_cons.mpr ⟨isRead_text first hvalues.1, isRead_texts rest hvalues.2⟩

end

/-- The text of a value is read as that value, whatever blanks stand around it. -/
theorem read_text {value : Value} (hvalue : value.HasNumbers) {before after : List Char}
    (hbefore : Text.allBlank before = true) (hafter : Text.allBlank after = true) :
    read (before ++ value.text.toList ++ after) = .ok value := by
  rw [read]
  apply isRead_text value hvalue
  · rw [List.length_append, List.length_append]
    omega
  · exact Text.trim_padded hbefore hafter (isElement_text value hvalue).isTight

/-- Reading inverts writing for every value that can be told from its text. -/
theorem reads_own_text {value : Value} (hnumbers : value.HasNumbers) :
    read value.text.toList = .ok value := by
  have hread : read ([] ++ value.text.toList ++ []) = .ok value := read_text hnumbers rfl rfl
  rwa [List.nil_append, List.append_nil] at hread

/-- A set too large to be read as a range, next to empty ones, signed zeros and infinities. -/
theorem reads_own_text_of_large_set :
    let large := IntSet.range 0 2000000
    let value := array [set large, array [], array [set IntSet.empty, array [array []]],
      float (.finite true Magnitude.zero), float (.infinity true), int Int64.minValue, bool false]
    rangeLimit < large.elements.length ∧ value.HasNumbers ∧
      read value.text.toList = .ok value := by
  intro large value
  have hlarge : rangeLimit < large.elements.length := by
    simp [large, IntSet.range, IntSet.consecutive, rangeLimit]
  have hnumbers : value.HasNumbers := by
    simp [value, HasNumbers, AllHaveNumbers]
  exact ⟨hlarge, hnumbers, reads_own_text hnumbers⟩

end MiniZincModels.Value
