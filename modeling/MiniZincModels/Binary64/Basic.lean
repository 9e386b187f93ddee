/-!
# Double-precision numbers

The floating point numbers of the modelling language are IEEE 754 binary64
values.  The project never computes with them: it compares them, rounds exact
numbers to them and writes them as decimals.  All of this is done here on exact
integers, so nothing depends on machine arithmetic.

The unit of the whole format is `2 ^ (-1074)`, the least positive value; every
finite value is a whole number of units.
-/

namespace MiniZincModels

/-- The number of units in one, `2 ^ 1074`. -/
def unitsPerOne : Nat := Nat.pow 2 1074

/-- All significands lie below `2 ^ 53`. -/
def significandLimit : Nat := 9007199254740992

/-- The least significand with 53 bits, `2 ^ 52`. -/
def leadingBit : Nat := 4503599627370496

/-- The absolute value of a finite double, `significand * 2 ^ shift` units.  The
bounds make the representation unique: the significand has 53 bits unless the
shift is already zero. -/
structure Magnitude where
  significand : Nat
  shift : Nat
  canonical :
    significand < significandLimit ∧ shift ≤ 2045 ∧ (shift = 0 ∨ leadingBit ≤ significand)
deriving DecidableEq

namespace Magnitude

def zero : Magnitude := ⟨0, 0, by decide⟩

/-- The magnitude as a number of units. -/
def units (magnitude : Magnitude) : Nat :=
  magnitude.significand * Nat.pow 2 magnitude.shift

end Magnitude

/-- A double-precision number.  All not-a-number values count as one, because
neither their sign nor their payload is ever shown. -/
inductive Binary64
  | nan
  | infinity (negative : Bool)
  | finite (negative : Bool) (magnitude : Magnitude)
deriving DecidableEq

namespace Binary64

instance : Inhabited Binary64 := ⟨finite false Magnitude.zero⟩

def isFinite : Binary64 → Bool
  | finite _ _ => true
  | _ => false

/-- The place of infinity, `2 ^ 2099` units; every finite value lies below `2 ^ 2098`. -/
def beyondFinite : Int := Nat.pow 2 2099

/-- The place on the number line in units, the infinities beyond every finite
value; a not-a-number has no place.  Both zeros have the place zero. -/
def position? : Binary64 → Option Int
  | nan => none
  | infinity negative => some (if negative then -beyondFinite else beyondFinite)
  | finite negative magnitude => some (if negative then -magnitude.units else magnitude.units)

/-- Numerical order; false as soon as one side is not a number. -/
def less (left right : Binary64) : Bool :=
  match left.position?, right.position? with
  | some leftPlace, some rightPlace => leftPlace < rightPlace
  | _, _ => false

/-- Numerical equality: the two zeros are equal, a not-a-number equals nothing. -/
def equals (left right : Binary64) : Bool :=
  match left.position?, right.position? with
  | some leftPlace, some rightPlace => leftPlace = rightPlace
  | _, _ => false

/-- The value with the given sign and parts; infinity where the parts overflow. -/
def ofParts (negative : Bool) (significand shift : Nat) : Binary64 :=
  if h : significand < significandLimit ∧ shift ≤ 2045 ∧
      (shift = 0 ∨ leadingBit ≤ significand) then
    finite negative ⟨significand, shift, h⟩
  else infinity negative

/-- The double nearest to `numerator / denominator` units.  A number halfway
between two neighbours goes to the one with the even significand, and what lies
beyond the largest double by half a step or more becomes infinite. -/
def roundUnits (negative : Bool) (numerator denominator : Nat) : Binary64 :=
  let shift := (numerator / denominator).log2 - 52
  let step := denominator * Nat.pow 2 shift
  let floor := numerator / step
  let remainder := numerator % step
  let significand :=
    if step < 2 * remainder ∨ (2 * remainder = step ∧ floor % 2 = 1) then floor + 1 else floor
  if significand = significandLimit then ofParts negative leadingBit (shift + 1)
  else ofParts negative significand shift

/-- The double nearest to a machine integer, ties to even. -/
def ofInt64 (value : Int64) : Binary64 :=
  roundUnits (value.toInt < 0) (value.toInt.natAbs * unitsPerOne) 1

/-- The double nearest to `digits * 10 ^ exponent`, with a sign that a zero keeps.
Far outside the range of doubles the powers of ten are not computed. -/
def ofDecimal (negative : Bool) (digits : Nat) (exponent : Int) : Binary64 :=
  let leading := exponent + (Nat.toDigits 10 digits).length
  if digits = 0 ∨ leading < -330 then finite negative Magnitude.zero
  else if 310 < leading then infinity negative
  else
    roundUnits negative (digits * Nat.pow 10 exponent.toNat * unitsPerOne)
      (Nat.pow 10 (-exponent).toNat)

end Binary64

end MiniZincModels
