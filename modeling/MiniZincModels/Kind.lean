/-!
# Kinds of values

Every expression, variable and constant has one of four kinds.  The three
scalar kinds mix in arithmetic, where a boolean counts as 0 or 1; sets of
integers stand apart.
-/

namespace MiniZincModels

/-- The kind of a value. -/
inductive Kind
  | int
  | float
  | bool
  | intSet
deriving DecidableEq, Inhabited

namespace Kind

/-- The name of the kind in declarations and messages. -/
def text : Kind → String
  | int => "int"
  | float => "float"
  | bool => "bool"
  | intSet => "set of int"

def isScalar : Kind → Bool
  | intSet => false
  | _ => true

theorem isScalar_iff {kind : Kind} : kind.isScalar = true ↔ kind ≠ intSet := by
  cases kind <;> decide

/-- The kind of a sum or product of two scalars: float if one of them is. -/
def arithmetic : Kind → Kind → Kind
  | float, _ => float
  | _, float => float
  | _, _ => int

def all : List Kind := [int, float, bool, intSet]

end Kind

end MiniZincModels
