import MiniZincModels.Gallery.BinPacking
import MiniZincModels.Gallery.BlockDesign
import MiniZincModels.Gallery.Factorisation
import MiniZincModels.Gallery.MagicSquare
import MiniZincModels.Gallery.Queens
import MiniZincModels.Gallery.Sudoku

/-!
# The catalogue of demonstrations

The demonstration models by name.  Some come in sizes; each of these has a size
that is used when none is asked for.
-/

namespace MiniZincModels

/-- A demonstration model. -/
inductive Demonstration
  | queens
  | factorisation
  | sudoku
  | magicSquare
  | blockDesign
  | binPacking
deriving DecidableEq

namespace Demonstration

def name : Demonstration → String
  | queens => "queens"
  | factorisation => "integer-factorisation"
  | sudoku => "sudoku"
  | magicSquare => "magic-square"
  | blockDesign => "bibd"
  | binPacking => "bin-packing"

def all : List Demonstration :=
  [queens, factorisation, sudoku, magicSquare, blockDesign, binPacking]

def ofName? (text : String) : Option Demonstration :=
  all.find? fun demonstration => demonstration.name = text

def defaultSize : Demonstration → Nat
  | queens => 8
  | sudoku => 3
  | magicSquare => 3
  | binPacking => 6
  | factorisation => 0
  | blockDesign => 0

/-- The model of a demonstration.  Those with fixed data have no size. -/
def build (demonstration : Demonstration) (size : Option Nat) : Except Failure Model :=
  let size := size.getD demonstration.defaultSize
  match demonstration with
  | queens => Gallery.Queens.build size
  | factorisation => Gallery.Factorisation.build
  | sudoku => Gallery.Sudoku.build size
  | magicSquare => Gallery.MagicSquare.build size
  | blockDesign => Gallery.BlockDesign.build
  | binPacking => Gallery.BinPacking.build size

end Demonstration

end MiniZincModels
