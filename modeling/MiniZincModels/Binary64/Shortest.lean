import MiniZincModels.Binary64.Basic

/-!
# The shortest decimal of a double

A double is written with the fewest decimal digits that read back as the same
double.  The numbers which round to it form an interval; the coarsest grid of
multiples of a power of ten that meets this interval has the fewest digits.  On
that grid the point nearest to the double is taken, and of two equally near
ones the larger.  Everything is compared in exact integers, in quarters of a
unit, where the ends of the interval are whole numbers.
-/

namespace MiniZincModels

/-- The positive decimal number `digits * 10 ^ exponent`. -/
structure Decimal where
  digits : Nat
  exponent : Int
deriving DecidableEq

namespace Magnitude

/-- The lower end of the rounding interval in quarter units.  Below a power of
two the neighbours are twice as dense. -/
def lowerEnd (magnitude : Magnitude) : Nat :=
  let step := if magnitude.significand = leadingBit ∧ magnitude.shift ≠ 0 then 1 else 2
  4 * magnitude.units - step * Nat.pow 2 magnitude.shift

/-- The upper end of the rounding interval in quarter units. -/
def upperEnd (magnitude : Magnitude) : Nat :=
  4 * magnitude.units + 2 * Nat.pow 2 magnitude.shift

/-- Whether `digits * 10 ^ exponent` rounds to the magnitude.  The ends of the
interval do so exactly if the significand is even. -/
def admits (magnitude : Magnitude) (decimal : Decimal) : Bool :=
  let place := decimal.digits * (Nat.pow 10 decimal.exponent.toNat * (4 * unitsPerOne))
  let scale := Nat.pow 10 (-decimal.exponent).toNat
  if magnitude.significand % 2 = 0 then
    magnitude.lowerEnd * scale ≤ place && place ≤ magnitude.upperEnd * scale
  else magnitude.lowerEnd * scale < place && place < magnitude.upperEnd * scale

/-- The point nearest to the magnitude among the multiples of `10 ^ exponent`
that round to it, the larger of two equally near ones. -/
def nearestMultiple? (magnitude : Magnitude) (exponent : Int) : Option Nat :=
  let grid := Nat.pow 10 exponent.toNat * (4 * unitsPerOne)
  let place := 4 * magnitude.units * Nat.pow 10 (-exponent).toNat
  let floor := place / grid
  match magnitude.admits ⟨floor, exponent⟩, magnitude.admits ⟨floor + 1, exponent⟩ with
  | true, true => some (if 2 * (place % grid) < grid then floor else floor + 1)
  | true, false => some floor
  | false, true => some (floor + 1)
  | false, false => none

/-- The first hit when the grid is refined from `10 ^ exponent` on, `steps` times
at most. -/
def searchShortest (magnitude : Magnitude) (exponent : Int) : Nat → Option Decimal
  | 0 => none
  | steps + 1 =>
    match magnitude.nearestMultiple? exponent with
    | some digits => some ⟨digits, exponent⟩
    | none => magnitude.searchShortest (exponent - 1) steps

/-- An exponent so large that the power of ten lies above the magnitude. -/
def coarsestExponent (magnitude : Magnitude) : Int :=
  let bits : Int := (magnitude.units.log2 : Int) + 2 - 1074
  if 0 ≤ bits then bits / 3 + 1 else -(-bits / 4)

/-- The shortest decimal of a positive magnitude.  The grid of `10 ^ (-1074)` holds
every magnitude exactly, so the search ends there at the latest. -/
def shortest (magnitude : Magnitude) : Decimal :=
  let start := magnitude.coarsestExponent
  (magnitude.searchShortest start (start + 1075).toNat).getD
    ⟨magnitude.units * Nat.pow 5 1074, -1074⟩

end Magnitude

end MiniZincModels
