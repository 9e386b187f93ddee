import MiniZincModels.Binary64.Shortest
import MiniZincModels.Text.Numeral

/-!
# Doubles as text

Two layouts of the shortest decimal are in use.  Literals of the modelling
language always show that they are floats: they have a point or an exponent.
Messages about a single setting use the plain layout, which has neither unless
it is needed.  Reading accepts both and more: any decimal with an optional
sign, point and exponent, and the words for infinity and not-a-number.
-/

namespace MiniZincModels

/-- How the shortest decimal of a double is laid out. -/
structure FloatLayout where
  /-- Whether a number whose leading digit counts `10 ^ exponent` is written without
  an exponent. -/
  positional : Int → Bool
  /-- Whether a whole number ends in `.0`. -/
  pointZero : Bool

/-- Literals are positional from `0.0001` up to below `1e16`, and whole numbers keep
a point. -/
def FloatLayout.literal : FloatLayout where
  positional exponent := -4 ≤ exponent && exponent ≤ 15
  pointZero := true

/-- Settings in messages are always positional, and whole numbers have no point. -/
def FloatLayout.plain : FloatLayout where
  positional _ := true
  pointZero := false

/-- Digits counting `10 ^ exponent`, written with leading or trailing zeros instead
of an exponent. -/
def positionalText (layout : FloatLayout) (digits : List Char) (exponent : Int) : List Char :=
  if 0 ≤ exponent then
    digits ++ List.replicate exponent.toNat '0' ++ (if layout.pointZero then ['.', '0'] else [])
  else
    let fraction := (-exponent).toNat
    if fraction < digits.length then
      digits.take (digits.length - fraction) ++ '.' :: digits.drop (digits.length - fraction)
    else '0' :: '.' :: List.replicate (fraction - digits.length) '0' ++ digits

/-- Digits whose first one counts `10 ^ exponent`, written with an exponent. -/
def scientificText (digits : List Char) (exponent : Int) : List Char :=
  match digits with
  | [] => []
  | [digit] => digit :: 'e' :: (toString exponent).toList
  | digit :: rest => digit :: '.' :: rest ++ 'e' :: (toString exponent).toList

namespace Decimal

def text (layout : FloatLayout) (decimal : Decimal) : List Char :=
  let digits := Nat.toDigits 10 decimal.digits
  let leading := decimal.exponent + digits.length - 1
  if layout.positional leading then positionalText layout digits decimal.exponent
  else scientificText digits leading

end Decimal

namespace Binary64

/-- The absolute value as text; a zero has the single digit 0. -/
def magnitudeText (layout : FloatLayout) (magnitude : Magnitude) : List Char :=
  if magnitude.significand = 0 then Decimal.text layout ⟨0, 0⟩
  else magnitude.shortest.text layout

/-- The text of a double; a minus sign precedes every negative value and the
negative zero. -/
def textWith (layout : FloatLayout) : Binary64 → String
  | nan => "NaN"
  | infinity negative => if negative then "-inf" else "inf"
  | finite negative magnitude =>
    String.ofList ((if negative then ['-'] else []) ++ magnitudeText layout magnitude)

/-- The double as a literal of the modelling language. -/
def text (value : Binary64) : String :=
  value.textWith FloatLayout.literal

/-- The double as it is quoted in a message about a setting. -/
def plainText (value : Binary64) : String :=
  value.textWith FloatLayout.plain

/-- The decimal exponent after its letter: an optional sign and at least one digit. -/
def readExponent? (text : List Char) : Option Int :=
  let (negative, digits) := Text.splitSign text
  (Text.readNatural? digits).map fun magnitude => if negative then -(magnitude : Int) else magnitude

/-- Reads digits with an optional point and exponent; a digit has to stand on one
side of the point at least. -/
def readDecimal? (negative : Bool) (text : List Char) : Option Binary64 :=
  let whole := text.takeWhile Char.isDigit
  let afterWhole := text.dropWhile Char.isDigit
  let (fraction, afterFraction) :=
    match afterWhole with
    | '.' :: rest => (rest.takeWhile Char.isDigit, rest.dropWhile Char.isDigit)
    | rest => ([], rest)
  match Text.readNatural? (whole ++ fraction) with
  | none => none
  | some digits =>
    match afterFraction with
    | [] => some (ofDecimal negative digits (-fraction.length))
    | letter :: rest =>
      if letter = 'e' ∨ letter = 'E' then
        (readExponent? rest).map fun exponent =>
          ofDecimal negative digits (exponent - fraction.length)
      else none

/-- Reads a double: an optional sign, then a decimal or one of the words `inf`,
`infinity` and `nan` in any case.  The value is the double nearest to the decimal. -/
def read? (text : List Char) : Option Binary64 :=
  let (negative, unsigned) := Text.splitSign text
  let word := unsigned.map Char.toLower
  if word = ['i', 'n', 'f'] ∨ word = ['i', 'n', 'f', 'i', 'n', 'i', 't', 'y'] then
    some (infinity negative)
  else if word = ['n', 'a', 'n'] then some nan
  else readDecimal? negative unsigned

end Binary64

end MiniZincModels
