import MiniZincModels.Constraint.Library
import MiniZincModels.Gallery.Grid
import MiniZincModels.Model.Basic

/-!
# Sudoku

Fills a grid so that every row, every column and every box holds each number
once.  A grid with boxes of three by three cells starts from a given puzzle, all
others are empty.
-/

namespace MiniZincModels.Gallery.Sudoku

/-- The given cells of the puzzle; zero marks an empty cell. -/
def puzzle : List (List Int64) :=
  [[5, 3, 0, 0, 7, 0, 0, 0, 0],
   [6, 0, 0, 1, 9, 5, 0, 0, 0],
   [0, 9, 8, 0, 0, 0, 0, 6, 0],
   [8, 0, 0, 0, 6, 0, 0, 0, 3],
   [4, 0, 0, 8, 0, 3, 0, 0, 1],
   [7, 0, 0, 0, 2, 0, 0, 0, 6],
   [0, 6, 0, 0, 0, 0, 2, 8, 0],
   [0, 0, 0, 4, 1, 9, 0, 0, 5],
   [0, 0, 0, 0, 8, 0, 0, 7, 9]]

/-- The number given for a cell of the puzzle, or zero. -/
def given (cell : Cell) : Int64 :=
  ((puzzle[cell.1]?.getD [])[cell.2]?).getD 0

/-- The definition of a cell in a grid with `width` cells to the side. -/
def cellDefinition (width : Nat) (cell : Cell) : Definition :=
  if width = 9 ∧ 0 < (given cell).toInt then (Definition.ofKind .int).withValues [given cell]
  else .ofInterval 1 (Int64.ofNat width)

/-- The box at a place among the boxes, row by row. -/
def box (size : Nat) (place : Cell) : List Cell :=
  (Grid.cells size size).map fun cell => (place.1 * size + cell.1, place.2 * size + cell.2)

/-- The groups of cells that hold different numbers: every row followed by the column
of the same number, then the boxes. -/
def groups (size : Nat) : List (List Cell) :=
  let width := size * size
  (List.range width).flatMap (fun line => [Grid.row width line, Grid.column width line])
    ++ (Grid.cells size size).map (box size)

/-- The model for boxes with `size` cells to the side. -/
def build (size : Nat) : Except Failure Model := do
  let width := size * size
  Grid.checkFirst "cell" width (cellDefinition width (0, 0))
  let definitions := (Grid.cells width width).map fun cell =>
    (Grid.key cell, cellDefinition width cell)
  let (cells, model) ← Model.empty.addVariablesWith "cell" definitions
  let constraints ← (groups size).mapM fun group => (do
    let members ← Grid.lookUp cells group
    let constraint ← Constraint.allDifferent members
    return constraint.withPropagation .domain : Except Failure Constraint)
  let model ← model.post (constraints.map .item) false
  return model.satisfy

end MiniZincModels.Gallery.Sudoku
