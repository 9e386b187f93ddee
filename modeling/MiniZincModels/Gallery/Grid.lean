import MiniZincModels.Declaration.Collection

/-!
# Grids of variables

Several models declare a variable for every cell of a square grid.  A cell is
given by its row and its column, and a line of the grid by its cells in order.
-/

namespace MiniZincModels.Gallery

/-- A cell as row and column. -/
abbrev Cell := Nat × Nat

namespace Grid

def key (cell : Cell) : IndexKey :=
  .pair cell.1 cell.2

/-- All cells of `rows` times `columns`, row by row. -/
def cells (rows columns : Nat) : List Cell :=
  (List.range rows).flatMap fun row => (List.range columns).map fun column => (row, column)

def row (size line : Nat) : List Cell :=
  (List.range size).map fun column => (line, column)

def column (size line : Nat) : List Cell :=
  (List.range size).map fun row => (row, line)

/-- Refuses a square grid whose first cell cannot be defined.  This is asked before the
cells are listed, of which there may be very many, and changes no outcome: without it
the same error would come from the declaration of the cells. -/
def checkFirst (base : String) (size : Nat) (definition : Definition) : Except ModelError Unit :=
  if size = 0 then .ok ()
  else (Variable.define ((key (0, 0)).variableName base) definition).map fun _ => ()

/-- The variables of some cells as expressions; each cell has to have one. -/
def lookUp (collection : Collection) (cells : List Cell) : Except Misuse (List Expr) :=
  cells.mapM fun cell => do
    let declared ← collection.item (key cell)
    return declared.toExpr

end Grid

end MiniZincModels.Gallery
