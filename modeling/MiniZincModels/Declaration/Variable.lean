import MiniZincModels.Declaration.Domain
import MiniZincModels.Expr.Basic

/-!
# Variables

A decision variable is a name with a domain.  It stands in expressions as its
name, with the kind of its domain.
-/

namespace MiniZincModels

/-- A declared decision variable. -/
structure Variable where
  name : String
  domain : Domain
deriving DecidableEq

namespace Variable

def kind (declared : Variable) : Kind :=
  declared.domain.kind

/-- The variable as an expression. -/
def toExpr (declared : Variable) : Expr :=
  .identifier declared.name declared.kind

/-- The item which declares the variable. -/
def declaration (declared : Variable) : String :=
  "var " ++ declared.domain.text ++ ": " ++ declared.name ++ ";"

/-- The variable of a given name which a definition describes. -/
def define (name : String) (definition : Definition) : Except ModelError Variable :=
  match definition.resolve with
  | .ok domain => .ok ⟨name, domain⟩
  | .error fault => .error (.domain name fault)

end Variable

end MiniZincModels
