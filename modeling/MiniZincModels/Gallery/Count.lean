import MiniZincModels.Failure
import MiniZincModels.Text.Numeral

/-!
# Counts

Some models depend on numbers that are computed beforehand.  They are machine
integers, and a sum or product which does not fit into one is a mistake of the
program.  A result that is given is the exact one.
-/

namespace MiniZincModels.Gallery.Count

/-- The exact sum, if it fits. -/
def add (left right : Int64) : Except Misuse Int64 :=
  match Text.toInt64? (left.toInt + right.toInt) with
  | some sum => .ok sum
  | none => .error (.overflow .sum)

/-- The exact product, if it fits. -/
def multiply (left right : Int64) : Except Misuse Int64 :=
  match Text.toInt64? (left.toInt * right.toInt) with
  | some product => .ok product
  | none => .error (.overflow .product)

end MiniZincModels.Gallery.Count
