/-!
# Numerals

Whole numbers as the modelling language and the solvers write them: decimal
digits with an optional sign.  Reading is exact; a numeral outside the signed
64-bit range is refused, never rounded.
-/

namespace MiniZincModels.Text

/-- The first of ten consecutive code points, each the start of a run of the
decimal digits 0 to 9 of one script (the Unicode category Nd). -/
def digitRuns : List Nat :=
  [0x30, 0x660, 0x6F0, 0x7C0, 0x966, 0x9E6, 0xA66, 0xAE6, 0xB66, 0xBE6, 0xC66, 0xCE6, 0xD66, 0xDE6,
    0xE50, 0xED0, 0xF20, 0x1040, 0x1090, 0x17E0, 0x1810, 0x1946, 0x19D0, 0x1A80, 0x1A90, 0x1B50,
    0x1BB0, 0x1C40, 0x1C50, 0xA620, 0xA8D0, 0xA900, 0xA9D0, 0xA9F0, 0xAA50, 0xABF0, 0xFF10, 0x104A0,
    0x10D30, 0x10D40, 0x11066, 0x110F0, 0x11136, 0x111D0, 0x112F0, 0x11450, 0x114D0, 0x11650,
    0x116C0, 0x116D0, 0x116DA, 0x11730, 0x118E0, 0x11950, 0x11BF0, 0x11C50, 0x11D50, 0x11DA0,
    0x11F50, 0x16130, 0x16A60, 0x16AC0, 0x16B50, 0x16D70, 0x1CCF0, 0x1D7CE, 0x1D7D8, 0x1D7E2,
    0x1D7EC, 0x1D7F6, 0x1E140, 0x1E2F0, 0x1E4F0, 0x1E5F1, 0x1E950, 0x1FBF0]

/-- A decimal digit of any script.  Such a character has the shape of a digit,
but only the ASCII digits have a value in a numeral. -/
def isDecimalDigit (c : Char) : Bool :=
  digitRuns.any fun first => first ≤ c.toNat && c.toNat ≤ first + 9

/-- The value of a non-empty run of ASCII digits. -/
def readNatural? (text : List Char) : Option Nat :=
  if text ≠ [] ∧ text.all Char.isDigit then some (Nat.ofDigitChars 10 text 0) else none

/-- A sign, if there is one, and the text after it. -/
def splitSign : List Char → Bool × List Char
  | '-' :: rest => (true, rest)
  | '+' :: rest => (false, rest)
  | text => (false, text)

def minInt64 : Int := -9223372036854775808

def maxInt64 : Int := 9223372036854775807

/-- The machine integer with a given value, if the value is in range. -/
def toInt64? (value : Int) : Option Int64 :=
  if minInt64 ≤ value ∧ value ≤ maxInt64 then some (Int64.ofInt value) else none

/-- Reads an optional sign and ASCII digits, refusing what does not fit in 64 bits. -/
def readInteger? (text : List Char) : Option Int64 :=
  let (negative, digits) := splitSign text
  match readNatural? digits with
  | none => none
  | some magnitude => toInt64? (if negative then -(magnitude : Int) else magnitude)

/-- The numeral of a machine integer: a minus sign if it is negative, then its digits. -/
def integerText (value : Int64) : String :=
  toString value.toInt

theorem toInt_toInt64? {value : Int} {word : Int64} (h : toInt64? value = some word) :
    word.toInt = value := by
  unfold toInt64? at h
  split at h
  · rename_i hrange
    cases h
    exact Int64.toInt_ofInt_of_le hrange.1 (by unfold maxInt64 at hrange; omega)
  · cases h

theorem toInt64?_toInt (word : Int64) : toInt64? word.toInt = some word := by
  have hlow := word.le_toInt
  have hhigh := word.toInt_lt
  unfold toInt64? minInt64 maxInt64
  rw [if_pos (by omega), Int64.ofInt_toInt]

end MiniZincModels.Text
