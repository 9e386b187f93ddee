import MiniZincModels.Expr.Logic
import MiniZincModels.Expr.Operators
import MiniZincModels.Gallery.Grid
import MiniZincModels.Model.Basic

/-!
# Block designs

Finds a balanced incomplete block design: objects are put into blocks so that
every object is in the same number of blocks, every block has the same number of
objects, and every two objects share the same number of blocks.
-/

namespace MiniZincModels.Gallery.BlockDesign

def objects : Nat := 7

def blocks : Nat := 7

/-- The number of blocks of every object. -/
def blocksPerObject : Int64 := 3

/-- The number of objects of every block. -/
def objectsPerBlock : Int64 := 3

/-- The number of blocks shared by every two objects. -/
def sharedBlocks : Int64 := 1

/-- All pairs of different objects, the smaller one first. -/
def objectPairs : List (Nat × Nat) :=
  (List.range objects).flatMap fun first =>
    ((List.range objects).filter (first < ·)).map fun second => (first, second)

/-- Posts that a number of conditions hold among the given ones. -/
def postCount (model : Model) (conditions : List Expr) (total : Int64) : Except Failure Model := do
  let sum ← Expr.sum conditions
  let equation ← sum.compared .equal (.int total)
  model.post [.expr equation] false

/-- Posts the number of blocks which two objects share. -/
def postPair (incidence : Collection) (model : Model) (pair : Nat × Nat) :
    Except Failure Model := do
  let shared ← (List.range blocks).mapM fun block => (do
    let first ← incidence.item (Grid.key (pair.1, block))
    let second ← incidence.item (Grid.key (pair.2, block))
    Expr.joinTwo .and first.toExpr second.toExpr : Except Failure Expr)
  postCount model shared sharedBlocks

/-- Posts the number of incidences in a row or column of the incidence matrix. -/
def postLine (incidence : Collection) (total : Int64) (model : Model) (line : List Cell) :
    Except Failure Model := do
  let members ← Grid.lookUp incidence line
  postCount model members total

def build : Except Failure Model := do
  let keys := (Grid.cells objects blocks).map Grid.key
  let (incidence, model) ← Model.empty.addVariables "incidence" keys (.ofKind .bool)
  let rows := (List.range objects).map (Grid.row blocks)
  let model ← rows.foldlM (postLine incidence blocksPerObject) model
  let columns := (List.range blocks).map (Grid.column objects)
  let model ← columns.foldlM (postLine incidence objectsPerBlock) model
  let model ← objectPairs.foldlM (postPair incidence) model
  let search ← Branching.create .bool incidence.vars .inputOrder .indomainMax
  return (model.setSearch (.branching search)).satisfy

end MiniZincModels.Gallery.BlockDesign
