import MiniZincModels.Constraint.Library
import MiniZincModels.Expr.Operators
import MiniZincModels.Gallery.Grid
import MiniZincModels.Model.Basic

/-!
# Bin packing

Packs items of given weights into as few bins of one capacity as possible.  There
are as many bins as items; those that are used come first.
-/

namespace MiniZincModels.Gallery.BinPacking

/-- The weights that are given to the items in turn. -/
def weightCycle : List Int64 := [4, 8, 1, 4, 2, 1, 7, 3, 6, 5]

/-- The total weight a bin can hold. -/
def capacityValue : Int64 := 10

/-- The weight of an item, counted from zero. -/
def weightOf (item : Nat) : Int64 :=
  (weightCycle[item % weightCycle.length]?).getD 0

def weights (items : Nat) : List Int64 :=
  (List.range items).map weightOf

/-- The least number of bins whose capacity exceeds no more than needed the weight of
all items. -/
def fewestBins (items : Nat) : Int64 :=
  ((weights items).foldl (· + ·) 0 + capacityValue - 1) / capacityValue

/-- Posts that an item lies in exactly one bin. -/
def postItem (inBin : Collection) (items : Nat) (model : Model) (item : Nat) :
    Except Failure Model := do
  let places ← Grid.lookUp inBin (Grid.column items item)
  let sum ← Expr.sum places
  let equation ← sum.compared .equal (.int 1)
  model.post [.expr equation] false

/-- The weight which an item adds to a bin. -/
def share (weight : Constant) (inBin : Collection) (bin item : Nat) : Except Failure Expr := do
  let weight ← weight.elementAt [item]
  let placed ← inBin.item (Grid.key (bin, item))
  weight.times placed.toExpr

/-- Posts that the items in a bin do not exceed its capacity, which is zero unless the
bin is used. -/
def postBin (weight capacity : Constant) (inBin used : Collection) (items : Nat) (model : Model)
    (bin : Nat) : Except Failure Model := do
  let load ← (List.range items).mapM (share weight inBin bin)
  let capacity ← capacity.toExpr
  let inUse ← used.item (.single bin)
  let limit ← capacity.times inUse.toExpr
  let total ← Expr.sum load
  let bound ← total.compared .lessOrEqual limit
  model.post [.expr bound] false

/-- The model for a given number of items. -/
def build (items : Nat) : Except Failure Model := do
  let values := (weights items).map fun weight => ConstantValue.scalar (.int weight)
  let (weight, model) ← Model.empty.addConstant "weight" (.array values)
  let (capacity, model) ← model.addConstant "capacity" (.scalar (.int capacityValue))
  let keys := (Grid.cells items items).map Grid.key
  let (inBin, model) ← model.addVariables "bin_item" keys (.ofKind .bool)
  let binKeys := (List.range items).map IndexKey.single
  let (used, model) ← model.addVariables "used" binKeys (.ofKind .bool)
  let model ← (List.range items).foldlM (postItem inBin items) model
  let model ← (List.range items).foldlM (postBin weight capacity inBin used items) model
  let usedFirst ← Constraint.decreasing used.exprs
  let model ← model.post [.item usedFirst] false
  let bins ← Expr.sum used.exprs
  let bound ← bins.compared .greaterOrEqual (.int (fewestBins items))
  let model ← model.post [.expr bound] true
  model.minimize bins

end MiniZincModels.Gallery.BinPacking
