import MiniZincModels.Binary64.Text
import MiniZincModels.Expr.Text
import MiniZincModels.IntSet

/-!
# Values in solver output

A solver reports integers, floats, truth values, sets of integers and arrays of
values.  Arrays of several dimensions are reported as flat lists.
-/

namespace MiniZincModels

/-- A value that a solver assigns to a name. -/
inductive Value
  | int (value : Int64)
  | float (value : Binary64)
  | bool (value : Bool)
  | set (values : IntSet)
  | array (values : List Value)

namespace Value

instance : Inhabited Value := ⟨int 0⟩

def asInt? : Value → Option Int64
  | int value => some value
  | _ => none

/-- The value as a float; an integer is widened to the nearest one. -/
def asFloat? : Value → Option Binary64
  | float value => some value
  | int value => some (Binary64.ofInt64 value)
  | _ => none

def asBool? : Value → Option Bool
  | bool value => some value
  | _ => none

def asSet? : Value → Option IntSet
  | set values => some values
  | _ => none

def asArray? : Value → Option (List Value)
  | array values => some values
  | _ => none

mutual

/-- The value as a solver writes it. -/
def text : Value → String
  | int value => Text.integerText value
  | float value => value.text
  | bool value => boolText value
  | set values => values.text
  | array values => Expr.listText (texts values)

def texts : List Value → List String
  | [] => []
  | first :: rest => first.text :: texts rest

end

theorem texts_eq_map (values : List Value) : texts values = values.map text := by
  induction values with
  | nil => rfl
  | cons first rest ih => simp [texts, ih]

end Value

end MiniZincModels
