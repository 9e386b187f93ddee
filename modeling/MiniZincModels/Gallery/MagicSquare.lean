import MiniZincModels.Constraint.Library
import MiniZincModels.Expr.Operators
import MiniZincModels.Gallery.Count
import MiniZincModels.Gallery.Grid
import MiniZincModels.Model.Basic

/-!
# Magic squares

Fills a square with the numbers from 1 on, each once, so that all rows, columns
and both diagonals have the same sum.  That sum is known beforehand, because the
rows share out all numbers among them.
-/

namespace MiniZincModels.Gallery.MagicSquare

/-- The sum of every line: half the product of the size and the number after the
largest one. -/
def magicSum (n : Int64) : Except Misuse Int64 := do
  let largest ← Count.multiply n n
  let next ← Count.add largest 1
  let doubled ← Count.multiply n next
  return doubled / 2

/-- The lines of equal sum: every row followed by the column of the same number,
then the two diagonals. -/
def lines (size : Nat) : List (List Cell) :=
  (List.range size).flatMap (fun line => [Grid.row size line, Grid.column size line])
    ++ [(List.range size).map fun i => (i, i), (List.range size).map fun i => (i, size - 1 - i)]

/-- Posts that the cells of a line add up to the magic sum. -/
def postLine (square : Collection) (total : Expr) (model : Model) (line : List Cell) :
    Except Failure Model := do
  let members ← Grid.lookUp square line
  let sum ← Expr.sum members
  let equation ← sum.compared .equal total
  model.post [.expr equation] false

/-- The model for a square of a given size. -/
def build (size : Nat) : Except Failure Model := do
  let n := Int64.ofNat size
  let lineSum ← magicSum n
  let (magicConstant, model) ← Model.empty.addConstant "magic_sum" (.scalar (.int lineSum))
  let total ← magicConstant.toExpr
  let largest ← Count.multiply n n
  let keys := (Grid.cells size size).map Grid.key
  let (square, model) ← model.addVariables "square" keys (.ofInterval 1 largest)
  let distinct ← Constraint.allDifferent square.exprs
  let model ← model.post [.item distinct] false
  let model ← (lines size).foldlM (postLine square total) model
  let sum ← Expr.sum square.exprs
  let allLines ← Count.multiply n lineSum
  let equation ← sum.compared .equal (.int allLines)
  let model ← model.post [.expr equation] true
  let search ← Branching.create .int square.vars .firstFail .indomainSplit
  let model := model.setSearch (.branching search)
  let model ← model.setRestart (.luby 250)
  return model.satisfy

end MiniZincModels.Gallery.MagicSquare
