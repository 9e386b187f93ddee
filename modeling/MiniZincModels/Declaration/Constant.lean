import MiniZincModels.Expr.Arithmetic
import MiniZincModels.Expr.Text

/-!
# Constants

A constant is a scalar or a rectangular array of scalars of one kind.  Arrays
are held flat, in row-major order, together with their extents.  In the host
indices count from zero, in the model from one.
-/

namespace MiniZincModels

/-- A single constant value. -/
inductive Scalar
  | int (value : Int64)
  | float (value : Binary64)
  | bool (value : Bool)
deriving DecidableEq

namespace Scalar

instance : Inhabited Scalar := ⟨int 0⟩

def kind : Scalar → Kind
  | int _ => .int
  | float _ => .float
  | bool _ => .bool

/-- The value in a declaration, where signs need no brackets. -/
def text : Scalar → String
  | int value => Text.integerText value
  | float value => value.text
  | bool value => boolText value

def isFinite : Scalar → Bool
  | float value => value.isFinite
  | _ => true

/-- An integer turned into the nearest float; other values stay as they are. -/
def widen : Scalar → Scalar
  | int value => float (Binary64.ofInt64 value)
  | other => other

end Scalar

/-- The value given for a constant: a scalar or an array of values. -/
inductive ConstantValue
  | scalar (value : Scalar)
  | array (values : List ConstantValue)

namespace ConstantValue

instance : Inhabited ConstantValue := ⟨scalar default⟩

mutual

/-- The extents from the outermost array inwards, following the first element of
each array. -/
def dimensions : ConstantValue → List Nat
  | scalar _ => []
  | array values => values.length :: firstDimensions values

def firstDimensions : List ConstantValue → List Nat
  | [] => []
  | first :: _ => first.dimensions

end

mutual

/-- The scalars in row-major order, if the value has exactly the given extents. -/
def flatten? : ConstantValue → List Nat → Option (List Scalar)
  | scalar value, [] => some [value]
  | array values, extent :: extents =>
    if values.length = extent then flattenAll? values extents else none
  | scalar _, _ :: _ => none
  | array _, [] => none

def flattenAll? : List ConstantValue → List Nat → Option (List Scalar)
  | [], _ => some []
  | first :: rest, extents =>
    match first.flatten? extents, flattenAll? rest extents with
    | some scalars, some others => some (scalars ++ others)
    | _, _ => none

end

/-- The element found by following zero-based indices inwards. -/
def follow? : ConstantValue → List Nat → Option ConstantValue
  | value, [] => some value
  | scalar _, _ :: _ => none
  | array values, index :: indices =>
    match values[index]? with
    | some inner => inner.follow? indices
    | none => none

end ConstantValue

/-- A declared constant.  A scalar has no extents. -/
structure Constant where
  name : String
  kind : Kind
  dimensions : List Nat
  elements : List Scalar
deriving DecidableEq

namespace Constant

/-- The common kind of scalars: one that all of them have, or float if integers and
floats are mixed, in which case the integers are widened. -/
def unify? (elements : List Scalar) : Option (Kind × List Scalar) :=
  if elements.all fun element => element.kind = .int then some (.int, elements)
  else if elements.all fun element => element.kind = .bool then some (.bool, elements)
  else if elements.all fun element => element.kind ≠ .bool then
    some (.float, elements.map Scalar.widen)
  else none

/-- The constant of a given name and value. -/
def define (name : String) (value : ConstantValue) : Except ModelError Constant :=
  let dimensions := value.dimensions
  if dimensions.contains 0 then .error (.constant name .emptyArray)
  else
    match value.flatten? dimensions with
    | none => .error (.constant name .ragged)
    | some elements =>
      if elements.all Scalar.isFinite then
        match unify? elements with
        | none => .error (.constant name .mixedKinds)
        | some (kind, elements) => .ok ⟨name, kind, dimensions, elements⟩
      else .error (.constant name .nonFinite)

def indexError (constant : Constant) (fault : IndexFault) : ModelError :=
  .index constant.name fault

/-- Every dimension needs exactly one index. -/
def checkArity (constant : Constant) (count : Nat) : Except ModelError Unit :=
  if count = constant.dimensions.length then .ok ()
  else .error (constant.indexError (.arity constant.dimensions.length count))

def checkIndexable (constant : Constant) : Except ModelError Unit :=
  if constant.dimensions.isEmpty then .error (constant.indexError .indexedScalar) else .ok ()

/-- The row-major rank of indices, counted on from `position`; the first index out
of bounds is reported. -/
def rank : List Nat → List Nat → Nat → Except IndexFault Nat
  | index :: indices, extent :: extents, position =>
    if index < extent then rank indices extents (position * extent + index)
    else .error (.outOfBounds index extent)
  | _, _, position => .ok position

/-- The place of an element in row-major order. -/
def flatPosition (constant : Constant) (indices : List Nat) : Except ModelError Nat := do
  constant.checkArity indices.length
  match rank indices constant.dimensions 0 with
  | .ok position => return position
  | .error fault => .error (constant.indexError fault)

/-- The value at zero-based indices; a scalar is at no indices. -/
def valueAt? (constant : Constant) (indices : List Nat) : Option Scalar :=
  match constant.flatPosition indices with
  | .ok position => constant.elements[position]?
  | .error _ => none

/-- A scalar constant as an expression. -/
def toExpr (constant : Constant) : Except ModelError Expr :=
  if constant.dimensions.isEmpty then .ok (.identifier constant.name constant.kind)
  else .error (constant.indexError .unindexedArray)

def access (constant : Constant) (indices : List Expr) : Expr :=
  .access constant.name constant.kind indices

/-- The element of an array constant at zero-based indices, as an expression. -/
def elementAt (constant : Constant) (indices : List Nat) : Except ModelError Expr := do
  constant.checkIndexable
  let _ ← constant.flatPosition indices
  return constant.access (indices.map fun index => .int (Int64.ofNat (index + 1)))

/-- A symbolic index, which has to be a whole number, turned from zero-based to
one-based. -/
def symbolicIndex (index : Expr) : Except ModelError Expr :=
  if index.kind = .int ∨ index.kind = .bool then index.add (.int 1)
  else .error (.operandKind "indices" index.kind)

/-- The element of an array constant at zero-based symbolic indices. -/
def indexBy (constant : Constant) (indices : List Expr) : Except ModelError Expr := do
  constant.checkIndexable
  let indices ← indices.mapM symbolicIndex
  constant.checkArity indices.length
  return constant.access indices

/-- The ranges `1..d` of the one-based indices. -/
def rangesText (constant : Constant) : String :=
  ", ".intercalate (constant.dimensions.map fun extent => "1.." ++ toString extent)

/-- The value part of the declaration: a scalar, a list, or a list folded into the
ranges of its dimensions. -/
def valueText (constant : Constant) : String :=
  let list := Expr.listText (constant.elements.map Scalar.text)
  match constant.dimensions with
  | [] => (constant.elements.map Scalar.text).headD ""
  | [_] => list
  | dimensions =>
    "array" ++ toString dimensions.length ++ "d(" ++ constant.rangesText ++ ", " ++ list ++ ")"

def typeText (constant : Constant) : String :=
  if constant.dimensions.isEmpty then constant.kind.text
  else "array[" ++ constant.rangesText ++ "] of " ++ constant.kind.text

/-- The item which declares the constant. -/
def declaration (constant : Constant) : String :=
  constant.typeText ++ ": " ++ constant.name ++ " = " ++ constant.valueText ++ ";"

end Constant

end MiniZincModels
