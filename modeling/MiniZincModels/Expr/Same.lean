import MiniZincModels.Expr.Basic

/-!
# Comparing expressions

Two expressions are the same if they are built alike from the same names and
values.  Float literals are compared as numbers: the two zeros are the same, and
a literal that is not a number differs from every expression, itself included.
-/

namespace MiniZincModels.Expr

mutual

def same : Expr → Expr → Bool
  | int left, int right => left = right
  | float left, float right => left.equals right
  | bool left, bool right => left = right
  | intSet left, intSet right => left = right
  | identifier left leftKind, identifier right rightKind => left = right && leftKind = rightKind
  | raw left, raw right => left = right
  | arithmetic leftOp a b, arithmetic rightOp c d => leftOp = rightOp && a.same c && b.same d
  | comparison leftOp a b, comparison rightOp c d => leftOp = rightOp && a.same c && b.same d
  | connective leftOp as, connective rightOp bs => leftOp = rightOp && sameAll as bs
  | negation a, negation b => a.same b
  | power a b, power c d => a.same c && b.same d
  | absolute a, absolute b => a.same b
  | reduction f as, reduction g bs => f = g && sameAll as bs
  | setMeasure f a, setMeasure g b => f = g && a.same b
  | array as, array bs => sameAll as bs
  | predicate p as, predicate q bs => p = q && sameAll as bs
  | conditional a b c, conditional d e f => a.same d && b.same e && c.same f
  | access left leftKind as, access right rightKind bs =>
    left = right && leftKind = rightKind && sameAll as bs
  | membership a b, membership c d => a.same c && b.same d
  | intersection a b, intersection c d => a.same c && b.same d
  | _, _ => false

def sameAll : List Expr → List Expr → Bool
  | [], [] => true
  | a :: as, b :: bs => a.same b && sameAll as bs
  | _, _ => false

end

end MiniZincModels.Expr
