import MiniZincModels.Expr.Logic
import MiniZincModels.Failure

/-!
# Operators

The operator forms of arithmetic, comparison and logic, for operands whose kinds
are known to fit.  They build the same expressions as the checked functions.
-/

namespace MiniZincModels.Expr

def plus (left right : Expr) : Except Misuse Expr :=
  Misuse.expect (add left right)

def minus (left right : Expr) : Except Misuse Expr :=
  Misuse.expect (sub left right)

def times (left right : Expr) : Except Misuse Expr :=
  Misuse.expect (mul left right)

def dividedBy (left right : Expr) : Except Misuse Expr :=
  Misuse.expect (divide left right)

def remainder (left right : Expr) : Except Misuse Expr :=
  Misuse.expect (modulo left right)

def negated (operand : Expr) : Except Misuse Expr :=
  Misuse.expect (negate operand)

def compared (op : ComparisonOp) (left right : Expr) : Except Misuse Expr :=
  Misuse.expect (compare op left right)

/-- Joins two operands that have to be conditions. -/
def joined (op : Connective) (left right : Expr) : Except Misuse Expr := do
  let left ← Misuse.expect (condition "operand" left)
  let right ← Misuse.expect (condition "operand" right)
  return join op [left, right]

def negatedCondition (operand : Expr) : Except Misuse Expr := do
  let operand ← Misuse.expect (condition "operand" operand)
  return negation operand

end MiniZincModels.Expr
