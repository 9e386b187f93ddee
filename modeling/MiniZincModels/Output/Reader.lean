import MiniZincModels.Output.Value
import MiniZincModels.Text.Blank

/-!
# Reading values

A value is read by trying its forms in turn: truth value, integer, float, range,
set literal, list, and the array form that folds a list into index ranges.  The
first form that fits the shape of the text decides; if its parts then cannot be
read, the value is refused.
-/

namespace MiniZincModels

/-- Why a text is no value. -/
inductive ValueFault
  | unrecognised (text : List Char)
  | notInteger (text : List Char)
  | oversized (lower upper : Int64)
deriving DecidableEq

/-- The number of elements from which on a range is not expanded, `2 ^ 20`. -/
def rangeLimit : Nat := 1048576

def ValueFault.message : ValueFault → String
  | unrecognised text => "unrecognised value '" ++ String.ofList text ++ "'"
  | notInteger text => "expected an integer but found '" ++ String.ofList text ++ "'"
  | oversized lower upper =>
    "the set " ++ Text.integerText lower ++ ".." ++ Text.integerText upper ++ " exceeds "
      ++ toString rangeLimit ++ " elements"

namespace Value

def isOpening (c : Char) : Bool :=
  c = '(' || c = '[' || c = '\x7b'

def isClosing (c : Char) : Bool :=
  c = ')' || c = ']' || c = '\x7d'

/-- The nesting depth after a character.  Brackets of all sorts count alike, and a
closing one too many is ignored. -/
def depthAfter (depth : Nat) (c : Char) : Nat :=
  if isOpening c then depth + 1 else if isClosing c then depth - 1 else depth

/-- Cuts a text at its commas outside brackets, beginning at a given depth. -/
def splitFrom (depth : Nat) : List Char → List (List Char)
  | [] => [[]]
  | c :: rest =>
    if c = ',' ∧ depth = 0 then [] :: splitFrom 0 rest
    else
      match splitFrom (depthAfter depth c) rest with
      | [] => [[c]]
      | piece :: pieces => (c :: piece) :: pieces

/-- The elements of a comma-separated list; a blank text has none. -/
def splitElements (text : List Char) : List (List Char) :=
  if Text.allBlank text then [] else splitFrom 0 text

/-- Reads an integer with blanks around it. -/
def readInt (text : List Char) : Except ValueFault Int64 :=
  match Text.readInteger? (Text.trim text) with
  | some value => .ok value
  | none => .error (.notInteger text)

/-- A minus sign, if there is one, and digits, followed by the rest of the text. -/
def takeBound? (text : List Char) : Option (List Char × List Char) :=
  let (sign, unsigned) :=
    match text with
    | '-' :: rest => (['-'], rest)
    | rest => ([], rest)
  let digits := unsigned.takeWhile Text.isDecimalDigit
  if digits.isEmpty then none
  else some (sign ++ digits, unsigned.dropWhile Text.isDecimalDigit)

/-- The two bounds of a text that has the shape of a range. -/
def rangeBounds? (text : List Char) : Option (List Char × List Char) := do
  let (lower, afterLower) ← takeBound? text
  let afterDots ← Text.afterStart? ['.', '.'] (Text.trimStart afterLower)
  let (upper, afterUpper) ← takeBound? (Text.trimStart afterDots)
  if afterUpper.isEmpty then some (lower, upper) else none

/-- The set from one bound to the other, unless it is too large to be expanded. -/
def readRange (lower upper : List Char) : Except ValueFault Value := do
  let lower ← readInt lower
  let upper ← readInt upper
  if rangeLimit ≤ upper.toInt - lower.toInt then .error (.oversized lower upper)
  else return set (IntSet.range lower upper)

/-- The text between two enclosing characters. -/
def enclosed? (opening closing : Char) : List Char → Option (List Char)
  | [] => none
  | first :: rest =>
    if first = opening ∧ rest.getLast? = some closing then some rest.dropLast else none

/-- The list inside the form `array2d(ranges, list)`, for any number of dimensions.
It begins with the first square bracket and holds no line feed. -/
def foldedList? (text : List Char) : Option (List Char) := do
  let afterWord ← Text.afterStart? ['a', 'r', 'r', 'a', 'y'] text
  if (afterWord.takeWhile Text.isDecimalDigit).isEmpty then none
  else
    let afterOpening ←
      Text.afterStart? ['d', '('] (afterWord.dropWhile Text.isDecimalDigit)
    let fromList := afterOpening.dropWhile (· ≠ '[')
    if fromList.getLast? = some ')' then
      let list := Text.trimEnd fromList.dropLast
      if list.getLast? = some ']' ∧ '\n' ∉ list then some list else none
    else none

/-- Reads a value whose brackets are nested less deeply than `depth`. -/
def readNested : Nat → List Char → Except ValueFault Value
  | 0, text => .error (.unrecognised text)
  | depth + 1, padded =>
    let text := Text.trim padded
    if text = ['t', 'r', 'u', 'e'] then .ok (bool true)
    else if text = ['f', 'a', 'l', 's', 'e'] then .ok (bool false)
    else
      match Text.readInteger? text with
      | some value => .ok (int value)
      | none =>
        match Binary64.read? text with
        | some value => .ok (float value)
        | none =>
          match rangeBounds? text with
          | some (lower, upper) => readRange lower upper
          | none =>
            match enclosed? '\x7b' '\x7d' text with
            | some elements =>
              ((splitElements elements).mapM readInt).map fun values => set (IntSet.ofList values)
            | none =>
              match enclosed? '[' ']' text with
              | some elements => ((splitElements elements).mapM (readNested depth)).map array
              | none =>
                match foldedList? text with
                | some list => readNested depth list
                | none => .error (.unrecognised text)

/-- Reads a value with blanks around it. -/
def read (text : List Char) : Except ValueFault Value :=
  readNested (text.length + 1) text

end Value

end MiniZincModels
