import MiniZincModels.Constraint.Library
import MiniZincModels.Expr.Operators
import MiniZincModels.Model.Basic

/-!
# Queens

Places a queen in every column of a square board so that no two attack each
other.  The variable of a column is the row of its queen.  Adding and subtracting
the column gives the same number exactly for queens on one diagonal.
-/

namespace MiniZincModels.Gallery.Queens

/-- The columns of the board. -/
def columns (size : Nat) : List Nat :=
  List.range size

def column (index : Nat) : Expr :=
  .int (Int64.ofNat index)

/-- The row of every queen, moved by its column in one direction. -/
def diagonals (queens : Collection) (shift : Expr → Expr → Except Misuse Expr) (size : Nat) :
    Except Misuse (List Expr) :=
  (columns size).mapM fun index => do
    let queen ← queens.item (.single index)
    shift queen.toExpr (column index)

/-- The model for a board of a given size. -/
def build (size : Nat) : Except Failure Model := do
  let n := Int64.ofNat size
  let (_, model) ← Model.empty.addConstant "n" (.scalar (.int n))
  let keys := (columns size).map IndexKey.single
  let (queens, model) ← model.addVariables "q" keys (.ofInterval 0 (n - 1))
  let rows ← Constraint.allDifferent queens.exprs
  let model ← model.post [.item rows] false
  let rising ← diagonals queens Expr.plus size
  let rising ← Constraint.allDifferent rising
  let model ← model.post [.item rising] false
  let falling ← diagonals queens Expr.minus size
  let falling ← Constraint.allDifferent falling
  let model ← model.post [.item falling] false
  let search ← Branching.create .int queens.vars .firstFail .indomainMin
  return (model.setSearch (.branching search)).satisfy

end MiniZincModels.Gallery.Queens
