import MiniZincModels.Error
import MiniZincModels.Expr.Text
import MiniZincModels.Text.Blank

/-!
# Constraints

A constraint item has a condition as its body.  It may ask for a propagation
strength, and it may be marked as redundant, which tells the solver that it
removes no solution.  If the body is the predicate of a global constraint, the
item records which one, because its definition has to be included.
-/

namespace MiniZincModels

/-- The strength of the propagation which a constraint asks for. -/
inductive Propagation
  | bounds
  | boundsZ
  | boundsR
  | boundsD
  | domain
  | valuePropagation
deriving DecidableEq

namespace Propagation

def text : Propagation → String
  | bounds => "bounds"
  | boundsZ => "boundsZ"
  | boundsR => "boundsR"
  | boundsD => "boundsD"
  | domain => "domain"
  | valuePropagation => "value_propagation"

def all : List Propagation := [bounds, boundsZ, boundsR, boundsD, domain, valuePropagation]

end Propagation

/-- A constraint item. -/
structure Constraint where
  body : Expr
  global : Option Global
  propagation : Option Propagation
  redundant : Bool

namespace Constraint

/-- The constraint that a condition holds. -/
def ofCondition (body : Expr) : Constraint :=
  ⟨body, none, none, false⟩

/-- A global constraint applied to its arguments. -/
def ofGlobal (global : Global) (arguments : List Expr) : Constraint :=
  ⟨.predicate global arguments, some global, none, false⟩

def withPropagation (constraint : Constraint) (strength : Propagation) : Constraint :=
  { constraint with propagation := some strength }

def markRedundant (constraint : Constraint) : Constraint :=
  { constraint with redundant := true }

/-- The body together with the propagation strength, if there is one. -/
def bodyText (constraint : Constraint) : String :=
  match constraint.propagation with
  | some strength => constraint.body.text ++ " :: " ++ strength.text
  | none => constraint.body.text

/-- The constraint item. -/
def text (constraint : Constraint) : String :=
  if constraint.redundant then "constraint redundant_constraint(" ++ constraint.bodyText ++ ");"
  else "constraint " ++ constraint.bodyText ++ ";"

end Constraint

/-- What can be posted as a constraint: a finished item, a condition, or text. -/
inductive Postable
  | item (constraint : Constraint)
  | expr (body : Expr)
  | text (body : String)

namespace Postable

/-- The constraint item for something that is posted.  An expression has to be a
condition; text is taken as it is, but may not be blank. -/
def toConstraint : Postable → Except ModelError Constraint
  | item constraint => .ok constraint
  | expr body =>
    if body.kind = .bool then .ok (.ofCondition body)
    else .error (.constraint (.notCondition body.kind))
  | text body =>
    if Text.allBlank body.toList then .error (.constraint .blankText)
    else .ok (.ofCondition (.raw body))

end Postable

end MiniZincModels
