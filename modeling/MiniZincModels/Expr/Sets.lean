import MiniZincModels.Expr.Arithmetic

/-!
# Set expressions

The checked functions on sets of integers.
-/

namespace MiniZincModels.Expr

/-- Accepts a set. -/
def set (argument : String) (operand : Expr) : Except ModelError Expr :=
  if operand.kind = .intSet then .ok operand else .error (.operandKind argument operand.kind)

def measure (function : SetMeasure) (operand : Expr) : Except ModelError Expr := do
  let operand ← set "set" operand
  return setMeasure function operand

/-- The number of elements of a set. -/
def cardinality (operand : Expr) : Except ModelError Expr :=
  measure .cardinality operand

/-- The least element of a set. -/
def setMinimum (operand : Expr) : Except ModelError Expr :=
  measure .minimum operand

/-- The greatest element of a set. -/
def setMaximum (operand : Expr) : Except ModelError Expr :=
  measure .maximum operand

/-- Membership in a set; a boolean element counts as 0 or 1. -/
def contains (container element : Expr) : Except ModelError Expr := do
  let container ← set "set" container
  if element.kind = .int ∨ element.kind = .bool then return membership element container
  else .error (.operandKind "element" element.kind)

/-- The number of elements that two sets share. -/
def intersectionCardinality (left right : Expr) : Except ModelError Expr := do
  let left ← set "lhs" left
  let right ← set "rhs" right
  return setMeasure .cardinality (intersection left right)

end MiniZincModels.Expr
