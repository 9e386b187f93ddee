import MiniZincModels.Expr.Operators
import MiniZincModels.Model.Basic

/-!
# Factorisation

Finds the factors of the product of two primes, the larger one first.
-/

namespace MiniZincModels.Gallery.Factorisation

def firstPrime : Int64 := 7829

def secondPrime : Int64 := 6907

/-- The largest number that is tried as a factor. -/
def largestFactor : Int64 := 99999999

def build : Except Failure Model := do
  let (product, model) ←
    Model.empty.addConstant "product" (.scalar (.int (firstPrime * secondPrime)))
  let (x, model) ← model.addVariable "x" (.ofInterval 1 largestFactor)
  let (y, model) ← model.addVariable "y" (.ofInterval 1 largestFactor)
  let factors ← x.toExpr.times y.toExpr
  let product ← product.toExpr
  let split ← factors.compared .equal product
  let model ← model.post [.expr split] false
  let proper ← y.toExpr.compared .greater (.int 1)
  let model ← model.post [.expr proper] false
  let ordered ← x.toExpr.compared .greater y.toExpr
  let model ← model.post [.expr ordered] false
  return model.satisfy

end MiniZincModels.Gallery.Factorisation
