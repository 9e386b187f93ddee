import MiniZincModels.Expr.Basic

/-!
# Expressions as text

Every operator application stands in brackets of its own, and so does every
number with a sign, so the text of an expression means the same in any
surroundings.
-/

namespace MiniZincModels

def ArithmeticOp.token : ArithmeticOp → String
  | add => "+"
  | sub => "-"
  | mul => "*"
  | divide => "/"
  | intDiv => "div"
  | modulo => "mod"

def ComparisonOp.token : ComparisonOp → String
  | equal => "="
  | notEqual => "!="
  | less => "<"
  | lessOrEqual => "<="
  | greater => ">"
  | greaterOrEqual => ">="

def Connective.token : Connective → String
  | and => "/\\"
  | or => "\\/"
  | xor => "xor"
  | implies => "->"
  | onlyIf => "<-"
  | iff => "<->"

def Reduction.token : Reduction → String
  | sum => "sum"
  | product => "product"
  | minimum => "min"
  | maximum => "max"

def SetMeasure.token : SetMeasure → String
  | cardinality => "card"
  | minimum => "min"
  | maximum => "max"

/-- A truth value as a literal. -/
def boolText (value : Bool) : String :=
  if value then "true" else "false"

namespace Expr

/-- An operator between two operands, in brackets. -/
def binaryText (left token right : String) : String :=
  "(" ++ left ++ " " ++ token ++ " " ++ right ++ ")"

/-- A function or predicate applied to its arguments. -/
def callText (function : String) (arguments : List String) : String :=
  function ++ "(" ++ ", ".intercalate arguments ++ ")"

/-- A list of elements in square brackets. -/
def listText (elements : List String) : String :=
  "[" ++ ", ".intercalate elements ++ "]"

mutual

/-- The expression in the concrete form of the modelling language. -/
def text : Expr → String
  | int value => Number.operandOfInt value
  | float value => Number.operandOfFloat value
  | bool value => boolText value
  | intSet values => values.text
  | identifier name _ => name
  | raw text => text
  | arithmetic op left right => binaryText left.text op.token right.text
  | comparison op left right => binaryText left.text op.token right.text
  | connective op operands =>
    "(" ++ (" " ++ op.token ++ " ").intercalate (texts operands) ++ ")"
  | negation operand => callText "not" [operand.text]
  | power base exponent => callText "pow" [base.text, exponent.text]
  | absolute operand => callText "abs" [operand.text]
  | reduction function operands => callText function.token [listText (texts operands)]
  | setMeasure function set => callText function.token [set.text]
  | array elements => listText (texts elements)
  | predicate global arguments => callText global.name (texts arguments)
  | conditional condition thenValue elseValue =>
    "(if " ++ condition.text ++ " then " ++ thenValue.text ++ " else " ++ elseValue.text
      ++ " endif)"
  | access constant _ indices => constant ++ listText (texts indices)
  | membership element set => binaryText element.text "in" set.text
  | intersection left right => binaryText left.text "intersect" right.text

def texts : List Expr → List String
  | [] => []
  | first :: rest => first.text :: texts rest

end

theorem texts_eq_map (exprs : List Expr) : texts exprs = exprs.map text := by
  induction exprs with
  | nil => rfl
  | cons first rest ih => simp [texts, ih]

end Expr

end MiniZincModels
