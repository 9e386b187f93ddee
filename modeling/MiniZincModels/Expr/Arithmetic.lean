import MiniZincModels.Error
import MiniZincModels.Expr.Basic

/-!
# Arithmetic, comparisons and conditionals

The checked functions which build numeric expressions.  Each one examines its
arguments from left to right and refuses the first whose kind does not fit; what
they build is well-kinded if the arguments are.
-/

namespace MiniZincModels.Expr

/-- Accepts a number or condition; sets and literals without a spelling are refused. -/
def scalar (argument : String) (operand : Expr) : Except ModelError Expr :=
  if operand.kind.isScalar && operand.isFiniteLiteral then .ok operand
  else .error (.operandKind argument operand.kind)

/-- Accepts a scalar that is no float. -/
def integral (argument : String) (operand : Expr) : Except ModelError Expr := do
  let operand ← scalar argument operand
  if operand.kind = .float then .error (.operandKind argument .float) else .ok operand

/-- Accepts a list of scalars. -/
def scalars (argument : String) (operands : List Expr) : Except ModelError (List Expr) :=
  operands.mapM (scalar argument)

/-- What an arithmetic operator accepts on both of its sides: whole numbers for the
division with remainder, any scalars otherwise. -/
def arithmeticOperand (op : ArithmeticOp) (argument : String) (operand : Expr) :
    Except ModelError Expr :=
  if op = .intDiv ∨ op = .modulo then integral argument operand else scalar argument operand

def combine (op : ArithmeticOp) (left right : Expr) : Except ModelError Expr := do
  let left ← arithmeticOperand op "lhs" left
  let right ← arithmeticOperand op "rhs" right
  return arithmetic op left right

def add (left right : Expr) : Except ModelError Expr :=
  combine .add left right

def sub (left right : Expr) : Except ModelError Expr :=
  combine .sub left right

def mul (left right : Expr) : Except ModelError Expr :=
  combine .mul left right

/-- The quotient as a float, whatever the operands are. -/
def divide (left right : Expr) : Except ModelError Expr :=
  combine .divide left right

/-- The quotient of two whole numbers, rounded towards zero. -/
def intDiv (left right : Expr) : Except ModelError Expr :=
  combine .intDiv left right

def modulo (left right : Expr) : Except ModelError Expr :=
  combine .modulo left right

/-- The negated operand, written as its difference from zero. -/
def negate (operand : Expr) : Except ModelError Expr := do
  let operand ← scalar "operand" operand
  combine .sub (int 0) operand

def pow (base exponent : Expr) : Except ModelError Expr := do
  let base ← scalar "base" base
  let exponent ← scalar "exponent" exponent
  return power base exponent

def abs (operand : Expr) : Except ModelError Expr := do
  let operand ← scalar "operand" operand
  return absolute operand

/-- Compares two scalars; equality and inequality also compare two sets. -/
def compare (op : ComparisonOp) (left right : Expr) : Except ModelError Expr :=
  if (op = .equal ∨ op = .notEqual) ∧ left.kind = .intSet then
    if right.kind = .intSet then .ok (comparison op left right)
    else .error (.operandKind "rhs" right.kind)
  else do
    let left ← scalar "lhs" left
    let right ← scalar "rhs" right
    return comparison op left right

/-- A reduction which is defined for at least one operand only. -/
def reduceNonempty (function : Reduction) (operands : List Expr) : Except ModelError Expr := do
  let operands ← scalars "operands" operands
  if operands.isEmpty then .error (.noOperands "operands") else .ok (reduction function operands)

/-- The sum of the operands; the sum of none is the literal zero. -/
def sum (operands : List Expr) : Except ModelError Expr := do
  let operands ← scalars "operands" operands
  if operands.isEmpty then .ok (int 0) else .ok (reduction .sum operands)

def product (operands : List Expr) : Except ModelError Expr :=
  reduceNonempty .product operands

def minimum (operands : List Expr) : Except ModelError Expr :=
  reduceNonempty .minimum operands

def maximum (operands : List Expr) : Except ModelError Expr :=
  reduceNonempty .maximum operands

end MiniZincModels.Expr
