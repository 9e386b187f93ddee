import Mathlib.Algebra.BigOperators.Group.List.Basic
import Mathlib.Algebra.Ring.Int.Defs
import Mathlib.Data.List.Nodup
import MiniZincModels.Constraint.Basic
import MiniZincModels.Declaration.Constant

/-!
# The integers that expressions stand for

Where names stand for integers, so do the expressions which the modelling language builds
from them with arithmetic, comparisons, reductions, the elements of constants and the
predicates on a single array.  A condition stands for 1 if it holds and for 0 if it does
not.  A float, a set, text and whatever is built on them stand for no integer, nor does a
quotient by zero or an element that is out of bounds.
-/

namespace MiniZincModels

/-- The number that stands for a condition. -/
def truthValue (p : Prop) [Decidable p] : Int :=
  if p then 1 else 0

theorem truthValue_eq_one {p : Prop} [Decidable p] : truthValue p = 1 ↔ p := by
  rw [truthValue]
  split <;> simp_all

namespace ArithmeticOp

/-- Division rounds towards zero, and the remainder has the sign of the dividend. -/
def result? : ArithmeticOp → Int → Int → Option Int
  | add, left, right => some (left + right)
  | sub, left, right => some (left - right)
  | mul, left, right => some (left * right)
  | intDiv, left, right => if right = 0 then none else some (left.tdiv right)
  | modulo, left, right => if right = 0 then none else some (left.tmod right)
  | divide, _, _ => none

end ArithmeticOp

namespace ComparisonOp

def Holds : ComparisonOp → Int → Int → Prop
  | equal, left, right => left = right
  | notEqual, left, right => left ≠ right
  | less, left, right => left < right
  | lessOrEqual, left, right => left ≤ right
  | greater, left, right => left > right
  | greaterOrEqual, left, right => left ≥ right

instance (op : ComparisonOp) (left right : Int) : Decidable (op.Holds left right) := by
  cases op <;> unfold Holds <;> infer_instance

end ComparisonOp

/-- The minimum and the maximum of no numbers are undefined. -/
def Reduction.result? : Reduction → List Int → Option Int
  | sum, values => some values.sum
  | product, values => some values.prod
  | minimum, values => values.min?
  | maximum, values => values.max?

namespace Global

/-- What the predicates on a single array say about its elements. -/
def holds? : Global → List (List Int) → Option Int
  | allDifferent, [values] => some (truthValue values.Nodup)
  | allEqual, [values] => some (truthValue (values.Pairwise (· = ·)))
  | increasing, [values] => some (truthValue (values.Pairwise (· ≤ ·)))
  | decreasing, [values] => some (truthValue (values.Pairwise (· ≥ ·)))
  | _, _ => none

end Global

/-- The integer of a scalar; a boolean counts as 0 or 1. -/
def Scalar.integer? : Scalar → Option Int
  | int value => some value.toInt
  | bool value => some (truthValue value)
  | float _ => none

/-- The integer at zero-based indices. -/
def Constant.integerAt? (constant : Constant) (indices : List Nat) : Option Int :=
  (constant.valueAt? indices).bind Scalar.integer?

/-- What names stand for: constants are given by their declarations, all other names by an
assignment. -/
structure Interpretation where
  constants : List Constant
  assignment : String → Int

namespace Interpretation

def constant? (given : Interpretation) (name : String) : Option Constant :=
  given.constants.find? fun constant => constant.name = name

def name? (given : Interpretation) (name : String) : Option Int :=
  match given.constant? name with
  | some constant => constant.integerAt? []
  | none => some (given.assignment name)

/-- The zero-based index for one that counts from one. -/
def zeroBased? (index : Int) : Option Nat :=
  if 1 ≤ index then some (index - 1).toNat else none

theorem mapM_zeroBased? (indices : List Nat) :
    (indices.map fun index : Nat => (index : Int) + 1).mapM zeroBased? = some indices := by
  induction indices with
  | nil => rfl
  | cons index indices ih =>
    have hfirst : zeroBased? ((index : Int) + 1) = some index := by
      rw [zeroBased?, if_pos (by omega), Int.add_sub_cancel, Int.toNat_natCast]
    rw [List.map_cons, List.mapM_cons, hfirst, ih]
    rfl

/-- The element of an array constant at indices that count from one. -/
def element? (given : Interpretation) (array : String) (indices : List Int) : Option Int := do
  let constant ← given.constant? array
  let indices ← indices.mapM zeroBased?
  constant.integerAt? indices

end Interpretation

namespace Expr

mutual

/-- The integer that an expression stands for. -/
def value? (given : Interpretation) : Expr → Option Int
  | int value => some value.toInt
  | bool value => some (truthValue value)
  | identifier name kind => if kind = .int ∨ kind = .bool then given.name? name else none
  | access name _ indices => (values? given indices).bind (given.element? name)
  | arithmetic op left right =>
    (value? given left).bind fun left => (value? given right).bind (op.result? left)
  | comparison op left right =>
    (value? given left).bind fun left =>
      (value? given right).map fun right => truthValue (op.Holds left right)
  | reduction function operands => (values? given operands).bind function.result?
  | predicate global arguments => (arrays? given arguments).bind global.holds?
  | _ => none

def values? (given : Interpretation) : List Expr → Option (List Int)
  | [] => some []
  | first :: rest =>
    (value? given first).bind fun first => (values? given rest).map (first :: ·)

/-- The integers in each of the arguments, if all of these are arrays. -/
def arrays? (given : Interpretation) : List Expr → Option (List (List Int))
  | [] => some []
  | array elements :: rest =>
    (values? given elements).bind fun first => (arrays? given rest).map (first :: ·)
  | _ => none

end

variable {given : Interpretation} {left right : Expr} {leftValue rightValue : Int}

theorem value?_comparison {op : ComparisonOp} (hleft : value? given left = some leftValue)
    (hright : value? given right = some rightValue) :
    value? given (comparison op left right) =
      some (truthValue (op.Holds leftValue rightValue)) := by
  simp [value?, hleft, hright]

theorem value?_arithmetic {op : ArithmeticOp} (hleft : value? given left = some leftValue)
    (hright : value? given right = some rightValue) :
    value? given (arithmetic op left right) = op.result? leftValue rightValue := by
  simp [value?, hleft, hright]

/-- The integers of a list of expressions that is given by a function. -/
theorem values?_map {α : Type} {expr : α → Expr} {value : α → Int} {items : List α}
    (h : ∀ item ∈ items, value? given (expr item) = some (value item)) :
    values? given (items.map expr) = some (items.map value) := by
  induction items with
  | nil => rfl
  | cons first rest ih =>
    rw [List.forall_mem_cons] at h
    simp [values?, h.1, ih h.2]

/-- Indices that count from one lead to the element at the zero-based ones. -/
theorem value?_access {constant : Constant}
    (hconstant : given.constant? constant.name = some constant) (indices : List Nat)
    (hindices : ∀ index ∈ indices, index + 1 < 2 ^ 63) :
    value? given (constant.access (indices.map fun index => .int (Int64.ofNat (index + 1)))) =
      constant.integerAt? indices := by
  have hvalues : values? given (indices.map fun index => .int (Int64.ofNat (index + 1))) =
      some (indices.map fun index : Nat => (index : Int) + 1) :=
    values?_map fun index hmem => congrArg some (Int64.toInt_ofNat_of_lt (hindices index hmem))
  rw [Constant.access, value?, hvalues, Option.bind_some, Interpretation.element?, hconstant,
    Interpretation.mapM_zeroBased?]
  rfl

section Lists

variable {α : Type} {expr : α → Expr} {value : α → Int} {items : List α}
  (h : ∀ item ∈ items, value? given (expr item) = some (value item))
include h

theorem value?_sum :
    value? given (reduction .sum (items.map expr)) = some (items.map value).sum := by
  simp [value?, values?_map h, Reduction.result?]

theorem value?_onArray (global : Global) :
    value? given (predicate global [array (items.map expr)]) = global.holds? [items.map value] := by
  simp [value?, arrays?, values?_map h]

end Lists

end Expr

namespace Constraint

/-- The condition in the body of the item holds. -/
def Holds (given : Interpretation) (constraint : Constraint) : Prop :=
  constraint.body.value? given = some 1

variable {given : Interpretation}

theorem holds_comparison {op : ComparisonOp} {left right : Expr} {leftValue rightValue : Int}
    (hleft : left.value? given = some leftValue) (hright : right.value? given = some rightValue)
    (redundant : Bool) :
    Holds given ⟨.comparison op left right, none, none, redundant⟩ ↔
      op.Holds leftValue rightValue := by
  rw [Holds, Expr.value?_comparison hleft hright, Option.some_inj, truthValue_eq_one]

section Lists

variable {α : Type} {expr : α → Expr} {value : α → Int} {items : List α}
  (h : ∀ item ∈ items, (expr item).value? given = some (value item))
include h

/-- Different elements of an array take different values. -/
theorem holds_allDifferent (hnodup : items.Nodup) :
    Holds given (.ofGlobal .allDifferent [.array (items.map expr)]) ↔
      ∀ left ∈ items, ∀ right ∈ items, value left = value right → left = right := by
  rw [Holds, ofGlobal, Expr.value?_onArray h, ← List.nodup_map_iff_inj_on hnodup, Global.holds?,
    Option.some_inj, truthValue_eq_one]

theorem holds_decreasing :
    Holds given (.ofGlobal .decreasing [.array (items.map expr)]) ↔
      items.Pairwise fun left right => value right ≤ value left := by
  rw [Holds, ofGlobal, Expr.value?_onArray h, Global.holds?, Option.some_inj, truthValue_eq_one,
    List.pairwise_map]

end Lists

end Constraint

end MiniZincModels
