import MiniZincModels.Expr.Arithmetic

/-!
# Conditions

The checked functions on conditions, that is, on expressions of the kind bool.
The operators that associate join any number of operands at once; the arrows are
chained to the left, two at a time.
-/

namespace MiniZincModels.Expr

/-- Accepts an expression of the kind bool. -/
def condition (argument : String) (operand : Expr) : Except ModelError Expr :=
  if operand.kind = .bool then .ok operand else .error (.conditionKind argument operand.kind)

/-- The expression read as a condition. -/
def toCondition (operand : Expr) : Except ModelError Expr :=
  condition "condition" operand

def conditions (argument : String) (operands : List Expr) : Except ModelError (List Expr) :=
  operands.mapM (condition argument)

/-- Accepts a non-empty list of conditions. -/
def someConditions (argument : String) (operands : List Expr) :
    Except ModelError (List Expr) := do
  let operands ← conditions argument operands
  if operands.isEmpty then .error (.noOperands argument) else .ok operands

/-- Joins operands in one node; a single operand stands for itself. -/
def join (op : Connective) : List Expr → Expr
  | [operand] => operand
  | operands => connective op operands

def joinTwo (op : Connective) (left right : Expr) : Except ModelError Expr := do
  let left ← condition "lhs" left
  let right ← condition "rhs" right
  return join op [left, right]

/-- Joins all operands, of which there has to be one at least. -/
def joinAll (op : Connective) (operands : List Expr) : Except ModelError Expr := do
  let operands ← someConditions "operands" operands
  return join op operands

/-- Joins the operands two by two from the left. -/
def chain (op : Connective) (operands : List Expr) : Except ModelError Expr := do
  match ← someConditions "operands" operands with
  | [] => .error (.noOperands "operands")
  | first :: rest => return rest.foldl (fun left right => join op [left, right]) first

def not (operand : Expr) : Except ModelError Expr := do
  let operand ← condition "operand" operand
  return negation operand

/-- A choice between two scalars or between two sets. -/
def ifThenElse (test thenValue elseValue : Expr) : Except ModelError Expr := do
  let test ← condition "condition" test
  match thenValue.kind, elseValue.kind with
  | .intSet, .intSet => return conditional test thenValue elseValue
  | .intSet, found => .error (.operandKind "else_value" found)
  | found, .intSet => .error (.operandKind "then_value" found)
  | _, _ => return conditional test thenValue elseValue

end MiniZincModels.Expr
