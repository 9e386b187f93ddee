import MiniZincModels.Proofs.Binary64.Rounding

/-!
# Finite doubles

Rounding a number gives a finite double unless the number is far too large, which no
machine integer is.  A double above another one is finite or the positive infinity.
-/

namespace MiniZincModels.Binary64

variable {negative : Bool} {numerator denominator shift : Nat}

theorem isFinite_ofParts {significand : Nat} (hlimit : significand < significandLimit)
    (hshift : shift ≤ 2045) (hleading : shift = 0 ∨ leadingBit ≤ significand) :
    (ofParts negative significand shift).isFinite = true := by
  rw [ofParts, dif_pos ⟨hlimit, hshift, hleading⟩]
  rfl

/-- The leading digits of a quotient in base two, as many as a significand has. -/
theorem leadingBits_bounds {quotient : Nat} (hshift : shift = quotient.log2 - 52) :
    quotient / 2 ^ shift < 2 ^ 53 ∧ (shift = 0 ∨ 2 ^ 52 ≤ quotient / 2 ^ shift) := by
  by_cases hzero : quotient = 0
  · subst hzero
    have hnone : shift = 0 := by simpa using hshift
    simp [hnone]
  · have hbounds := (Nat.log2_eq_iff hzero).mp rfl
    have hpower : 0 < 2 ^ shift := Nat.two_pow_pos shift
    constructor
    · rw [Nat.div_lt_iff_lt_mul hpower, ← Nat.pow_add]
      exact Nat.lt_of_lt_of_le hbounds.2 (Nat.pow_le_pow_right (by decide) (by omega))
    · by_cases hlarge : 52 ≤ quotient.log2
      · have hlog : 52 + shift = quotient.log2 := by omega
        right
        rw [Nat.le_div_iff_mul_le hpower, ← Nat.pow_add, hlog]
        exact hbounds.1
      · left
        omega

theorem roundedQuotient_le_succ (numerator step : Nat) :
    numerator / step ≤ roundedQuotient numerator step ∧
      roundedQuotient numerator step ≤ numerator / step + 1 := by
  rw [roundedQuotient]
  split <;> omega

/-- Only a number beyond all doubles is rounded to an infinity. -/
theorem isFinite_roundUnits (hsmall : (numerator / denominator).log2 < 2097) :
    (roundUnits negative numerator denominator).isFinite = true := by
  generalize hshift : (numerator / denominator).log2 - 52 = shift
  have hround : roundUnits negative numerator denominator =
      if roundedQuotient numerator (denominator * 2 ^ shift) = significandLimit then
        ofParts negative leadingBit (shift + 1)
      else ofParts negative (roundedQuotient numerator (denominator * 2 ^ shift)) shift := by
    rw [roundUnits, hshift, Nat.pow_eq]
    rfl
  obtain ⟨hbelow, hleading⟩ := leadingBits_bounds hshift.symm
  rw [Nat.div_div_eq_div_mul] at hbelow hleading
  obtain ⟨hlower, hupper⟩ := roundedQuotient_le_succ numerator (denominator * 2 ^ shift)
  have hlimit : significandLimit = 2 ^ 53 := by decide
  have hbit : leadingBit = 2 ^ 52 := by decide
  rw [hround]
  split
  · exact isFinite_ofParts (by decide) (by omega) (.inr (Nat.le_refl _))
  · exact isFinite_ofParts (by omega) (by omega) (by omega)

section Powers

variable {factor scale low high limit : Nat}

theorem mul_lt_two_pow (hfactor : factor ≤ 2 ^ low) (hscale : scale = Nat.pow 2 high)
    (hlimit : low + high < limit) : factor * scale < 2 ^ limit := by
  rw [hscale, Nat.pow_eq]
  calc factor * 2 ^ high ≤ 2 ^ low * 2 ^ high := Nat.mul_le_mul_right _ hfactor
    _ = 2 ^ (low + high) := (Nat.pow_add 2 low high).symm
    _ < 2 ^ limit := Nat.pow_lt_pow_right (by decide) hlimit

theorem log2_mul_lt (hfactor : factor ≤ 2 ^ low) (hscale : scale = Nat.pow 2 high)
    (hlimit : low + high < limit) : (factor * scale).log2 < limit := by
  by_cases hzero : factor * scale = 0
  · rw [hzero, Nat.log2_zero]
    omega
  · exact (Nat.log2_lt hzero).mpr (mul_lt_two_pow hfactor hscale hlimit)

theorem mul_le_place {place : Int} (hfactor : factor ≤ 2 ^ low) (hscale : scale = Nat.pow 2 high)
    (hplace : place = (Nat.pow 2 limit : Nat)) (hlimit : low + high < limit) :
    (factor * scale : Nat) ≤ place := by
  rw [hplace, Nat.pow_eq]
  exact Int.ofNat_le.mpr (Nat.le_of_lt (mul_lt_two_pow hfactor hscale hlimit))

end Powers

theorem isFinite_ofInt64 (value : Int64) : (ofInt64 value).isFinite = true := by
  have hmagnitude : value.toInt.natAbs ≤ 2 ^ 63 := by
    have hlow := value.le_toInt
    have hhigh := value.toInt_lt
    omega
  apply isFinite_roundUnits
  rw [Nat.div_one]
  have hunits := Magnitude.unitsPerOne_eq
  generalize hpower : 1074 = power at hunits
  exact log2_mul_lt hmagnitude hunits (by omega)

/-- Every place on the number line lies between the infinities. -/
theorem neg_beyondFinite_le {value : Binary64} {place : Int} (h : value.position? = some place) :
    -beyondFinite ≤ place := by
  have hbeyond : 0 ≤ beyondFinite := Int.natCast_nonneg _
  cases value with
  | nan => cases h
  | infinity negative =>
    cases h
    split <;> omega
  | finite negative magnitude =>
    obtain ⟨hlimit, hshift, -⟩ := magnitude.canonical
    have hfactor : magnitude.significand ≤ 2 ^ 53 := Nat.le_of_lt hlimit
    have hplace : (magnitude.units : Int) ≤ beyondFinite :=
      mul_le_place hfactor rfl beyondFinite.eq_1 (by omega)
    cases h
    split <;> omega

/-- What lies above something is a number, and it is not the negative infinity. -/
theorem eq_infinity_of_less {bound value : Binary64} (hless : bound.less value = true)
    (hvalue : value.isFinite = false) : value = infinity false := by
  rw [less] at hless
  cases hbound : bound.position? with
  | none => simp [hbound] at hless
  | some place =>
    rw [hbound] at hless
    cases value with
    | nan => cases hless
    | infinity negative =>
      cases negative with
      | false => rfl
      | true =>
        have hplace := neg_beyondFinite_le hbound
        have hbelow : place < -beyondFinite := of_decide_eq_true hless
        omega
    | finite negative magnitude => cases hvalue

end MiniZincModels.Binary64
