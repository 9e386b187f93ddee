import MiniZincModels.Constraint.Global
import MiniZincModels.IntSet
import MiniZincModels.Kind
import MiniZincModels.Number

/-!
# Expressions

The expressions of a model: literals, declared names, the operators and
functions of the modelling language, and text given verbatim.  The kind of an
expression is computed from its parts.  The checked functions in the other
modules of this folder build exactly the expressions in which every operand has
a kind that fits its place.
-/

namespace MiniZincModels

/-- The operators that take two numbers to a number. -/
inductive ArithmeticOp
  | add
  | sub
  | mul
  | divide
  | intDiv
  | modulo
deriving DecidableEq

/-- The operators that compare two values. -/
inductive ComparisonOp
  | equal
  | notEqual
  | less
  | lessOrEqual
  | greater
  | greaterOrEqual
deriving DecidableEq

/-- The operators that join conditions. -/
inductive Connective
  | and
  | or
  | xor
  | implies
  | onlyIf
  | iff
deriving DecidableEq

/-- The functions that reduce a list of numbers to one. -/
inductive Reduction
  | sum
  | product
  | minimum
  | maximum
deriving DecidableEq

/-- The functions that take a set to a number. -/
inductive SetMeasure
  | cardinality
  | minimum
  | maximum
deriving DecidableEq

/-- An expression of the modelling language. -/
inductive Expr
  | int (value : Int64)
  | float (value : Binary64)
  | bool (value : Bool)
  | intSet (values : IntSet)
  /-- A declared name with the kind of its declaration. -/
  | identifier (name : String) (kind : Kind)
  /-- A condition given as text, which is taken as it is. -/
  | raw (text : String)
  | arithmetic (op : ArithmeticOp) (left right : Expr)
  | comparison (op : ComparisonOp) (left right : Expr)
  | connective (op : Connective) (operands : List Expr)
  | negation (operand : Expr)
  | power (base exponent : Expr)
  | absolute (operand : Expr)
  | reduction (function : Reduction) (operands : List Expr)
  | setMeasure (function : SetMeasure) (set : Expr)
  | array (elements : List Expr)
  /-- The predicate of a global constraint. -/
  | predicate (predicate : Global) (arguments : List Expr)
  | conditional (condition thenValue elseValue : Expr)
  /-- An element of an array constant with elements of the given kind. -/
  | access (array : String) (kind : Kind) (indices : List Expr)
  | membership (element set : Expr)
  | intersection (left right : Expr)

namespace Expr

instance : Inhabited Expr := ⟨bool true⟩

/-- The kind of an array with elements of the given kinds. -/
def arrayKind : List Kind → Kind
  | [] => .int
  | first :: rest =>
    rest.foldl (fun kind next => if kind = next then kind else kind.arithmetic next) first

mutual

/-- The kind of the values of an expression.  It stands for a kind that is stored with
every expression: the functions that build expressions would store just this one, for
it depends on nothing but the operator and the kinds of the parts. -/
def kind : Expr → Kind
  | int _ => .int
  | float _ => .float
  | bool _ => .bool
  | intSet _ => .intSet
  | identifier _ kind => kind
  | raw _ => .bool
  | arithmetic op left right =>
    if op = .divide then .float else left.kind.arithmetic right.kind
  | comparison _ _ _ => .bool
  | connective _ _ => .bool
  | negation _ => .bool
  | power base exponent => base.kind.arithmetic exponent.kind
  | absolute operand => operand.kind.arithmetic .int
  | reduction _ operands => (kinds operands).foldl Kind.arithmetic .int
  | setMeasure _ _ => .int
  | array elements => arrayKind (kinds elements)
  | predicate _ _ => .bool
  | conditional _ thenValue elseValue =>
    if thenValue.kind = elseValue.kind ∧ (thenValue.kind = .bool ∨ thenValue.kind = .intSet) then
      thenValue.kind
    else thenValue.kind.arithmetic elseValue.kind
  | access _ kind _ => kind
  | membership _ _ => .bool
  | intersection _ _ => .intSet

def kinds : List Expr → List Kind
  | [] => []
  | first :: rest => first.kind :: kinds rest

end

theorem kinds_eq_map (exprs : List Expr) : kinds exprs = exprs.map kind := by
  induction exprs with
  | nil => rfl
  | cons first rest ih => simp [kinds, ih]

/-- False only for a literal that is infinite or not a number; such a literal has
no spelling in the modelling language. -/
def isFiniteLiteral : Expr → Bool
  | float value => value.isFinite
  | _ => true

def ofNumber : Number → Expr
  | .int value => int value
  | .float value => float value

/-- The literal set of the listed values. -/
def setOf (values : List Int64) : Expr :=
  intSet (IntSet.ofList values)

end Expr

end MiniZincModels
