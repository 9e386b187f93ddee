import MiniZincModels.Binary64.Text

/-!
# Numbers

A number given to the model is a machine integer or a double, and stays what it
is: the integer 1 and the float 1.0 are different numbers.
-/

namespace MiniZincModels

/-- A numeric literal of the host: an integer or a double. -/
inductive Number
  | int (value : Int64)
  | float (value : Binary64)
deriving DecidableEq

namespace Number

def isIntegral : Number → Bool
  | int _ => true
  | float _ => false

/-- The number as a double; an integer goes to the nearest one. -/
def toBinary64 : Number → Binary64
  | int value => Binary64.ofInt64 value
  | float value => value

/-- An integer as an operand, bracketed if it carries a sign. -/
def operandOfInt (value : Int64) : String :=
  if value.toInt < 0 then "(" ++ Text.integerText value ++ ")" else Text.integerText value

/-- A double as an operand, bracketed if it lies below zero.  The negative zero does
not, so it keeps its bare sign. -/
def operandOfFloat (value : Binary64) : String :=
  if value.less (Binary64.finite false Magnitude.zero) then "(" ++ value.text ++ ")"
  else value.text

/-- The number as it stands in an expression. -/
def text : Number → String
  | int value => operandOfInt value
  | float value => operandOfFloat value

end Number

end MiniZincModels
