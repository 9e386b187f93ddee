import Mathlib.Tactic.Linarith
import Mathlib.Tactic.Ring
import MiniZincModels.Binary64.Shortest

/-!
# Rounding back

A number in the rounding interval of a double is rounded to that double.  The
interval is closed if the significand is even, so a tie at one of its ends goes
the right way, and it is narrower below a power of two, where the step of the
rounding is half as large.
-/

namespace MiniZincModels

/-- The quotient rounded to a whole number, a tie to the even one. -/
def roundedQuotient (numerator step : Nat) : Nat :=
  if step < 2 * (numerator % step) ∨
      (2 * (numerator % step) = step ∧ numerator / step % 2 = 1) then numerator / step + 1
  else numerator / step

/-- A number at most half a step away from a multiple is rounded to that multiple, if
the multiple is even or the number is nearer than half a step. -/
theorem roundedQuotient_eq {numerator step multiple : Nat} (hstep : 0 < step)
    (hlower : 2 * (multiple * step) ≤ 2 * numerator + step)
    (hupper : 2 * numerator ≤ 2 * (multiple * step) + step)
    (hodd : multiple % 2 = 1 →
      2 * (multiple * step) < 2 * numerator + step ∧
        2 * numerator < 2 * (multiple * step) + step) :
    roundedQuotient numerator step = multiple := by
  have hparts : step * (numerator / step) + numerator % step = numerator :=
    Nat.div_add_mod numerator step
  have hremainder : numerator % step < step := Nat.mod_lt numerator hstep
  have hfloor : numerator / step = multiple ∨ numerator / step + 1 = multiple := by
    have hle : numerator / step ≤ multiple := by
      by_contra hlt
      have hproduct : step * (multiple + 1) ≤ step * (numerator / step) :=
        Nat.mul_le_mul_left step (by omega)
      rw [Nat.mul_succ, Nat.mul_comm step multiple] at hproduct
      omega
    have hge : multiple ≤ numerator / step + 1 := by
      by_contra hlt
      have hproduct : step * (numerator / step + 2) ≤ step * multiple :=
        Nat.mul_le_mul_left step (by omega)
      rw [Nat.mul_add, Nat.mul_comm step multiple] at hproduct
      omega
    omega
  rw [roundedQuotient]
  rcases hfloor with heq | heq
  · rw [heq, Nat.mul_comm] at hparts
    rw [heq, if_neg (by omega)]
  · have hproduct : multiple * step = step * (numerator / step) + step := by
      rw [← heq, Nat.succ_mul, Nat.mul_comm]
    rw [if_pos (by omega), heq]

namespace Magnitude

/-- Whether `numerator / denominator` units lie in the rounding interval. -/
def Admits (magnitude : Magnitude) (numerator denominator : Nat) : Prop :=
  if magnitude.significand % 2 = 0 then
    magnitude.lowerEnd * denominator ≤ 4 * numerator ∧
      4 * numerator ≤ magnitude.upperEnd * denominator
  else
    magnitude.lowerEnd * denominator < 4 * numerator ∧
      4 * numerator < magnitude.upperEnd * denominator

variable {magnitude : Magnitude} {numerator denominator factor : Nat}

theorem admits_iff {digits : Nat} {exponent : Int} :
    magnitude.admits ⟨digits, exponent⟩ = true ↔
      magnitude.Admits (digits * 10 ^ exponent.toNat * unitsPerOne)
        (10 ^ (-exponent).toNat) := by
  have hplace : digits * (Nat.pow 10 exponent.toNat * (4 * unitsPerOne)) =
      4 * (digits * 10 ^ exponent.toNat * unitsPerOne) := by
    rw [Nat.pow_eq]
    ring
  rw [admits, Admits, hplace, Nat.pow_eq]
  split <;> simp

/-- The interval does not depend on how a number is written as a fraction. -/
theorem admits_mul (hfactor : 0 < factor) :
    magnitude.Admits (numerator * factor) (denominator * factor) ↔
      magnitude.Admits numerator denominator := by
  have hnumerator : 4 * (numerator * factor) = 4 * numerator * factor := by ring
  rw [Admits, Admits, hnumerator, ← Nat.mul_assoc, ← Nat.mul_assoc,
    Nat.mul_le_mul_right_iff hfactor, Nat.mul_le_mul_right_iff hfactor,
    Nat.mul_lt_mul_right hfactor, Nat.mul_lt_mul_right hfactor]

/-- The lower end lies half a step below the magnitude, a quarter if there is a power
of two. -/
theorem lowerEnd_mul (hpositive : magnitude.significand ≠ 0) (denominator : Nat) :
    magnitude.lowerEnd * denominator +
        (if magnitude.significand = leadingBit ∧ magnitude.shift ≠ 0 then 1 else 2) *
          (2 ^ magnitude.shift * denominator) =
      4 * (magnitude.significand * (2 ^ magnitude.shift * denominator)) := by
  have hle : 2 ^ magnitude.shift ≤ magnitude.significand * 2 ^ magnitude.shift :=
    Nat.le_mul_of_pos_left _ (Nat.pos_of_ne_zero hpositive)
  have hend : magnitude.lowerEnd +
      (if magnitude.significand = leadingBit ∧ magnitude.shift ≠ 0 then 1 else 2) *
        2 ^ magnitude.shift = 4 * (magnitude.significand * 2 ^ magnitude.shift) := by
    rw [lowerEnd, units, Nat.pow_eq]
    split <;> omega
  calc magnitude.lowerEnd * denominator +
        (if magnitude.significand = leadingBit ∧ magnitude.shift ≠ 0 then 1 else 2) *
          (2 ^ magnitude.shift * denominator)
      = (magnitude.lowerEnd +
          (if magnitude.significand = leadingBit ∧ magnitude.shift ≠ 0 then 1 else 2) *
            2 ^ magnitude.shift) * denominator := by ring
    _ = 4 * (magnitude.significand * (2 ^ magnitude.shift * denominator)) := by
      rw [hend]
      ring

theorem upperEnd_mul (magnitude : Magnitude) (denominator : Nat) :
    magnitude.upperEnd * denominator =
      4 * (magnitude.significand * (2 ^ magnitude.shift * denominator)) +
        2 * (2 ^ magnitude.shift * denominator) := by
  rw [upperEnd, units, Nat.pow_eq]
  ring

section Bounds

variable {step : Nat}

theorem Admits.lower (h : magnitude.Admits numerator denominator)
    (hpositive : magnitude.significand ≠ 0) (hstep : step = 2 ^ magnitude.shift * denominator) :
    2 * (magnitude.significand * step) ≤ 2 * numerator + step := by
  have hend := lowerEnd_mul hpositive denominator
  rw [← hstep] at hend
  rw [Admits] at h
  split at hend <;> split at h <;> omega

theorem Admits.upper (h : magnitude.Admits numerator denominator)
    (hstep : step = 2 ^ magnitude.shift * denominator) :
    2 * numerator ≤ 2 * (magnitude.significand * step) + step := by
  have hend := upperEnd_mul magnitude denominator
  rw [← hstep] at hend
  rw [Admits] at h
  split at h <;> omega

theorem Admits.strict (h : magnitude.Admits numerator denominator)
    (hpositive : magnitude.significand ≠ 0) (hstep : step = 2 ^ magnitude.shift * denominator)
    (hodd : magnitude.significand % 2 = 1) :
    2 * (magnitude.significand * step) < 2 * numerator + step ∧
      2 * numerator < 2 * (magnitude.significand * step) + step := by
  have hlower := lowerEnd_mul hpositive denominator
  have hupper := upperEnd_mul magnitude denominator
  rw [← hstep] at hlower hupper
  rw [Admits, if_neg (by omega)] at h
  split at hlower <;> omega

/-- Below a power of two the interval ends a quarter of a step away. -/
theorem Admits.lower_of_leadingBit (h : magnitude.Admits numerator denominator)
    (hstep : step = 2 ^ magnitude.shift * denominator)
    (hleading : magnitude.significand = leadingBit) (hshift : magnitude.shift ≠ 0) :
    4 * (magnitude.significand * step) ≤ 4 * numerator + step := by
  have hend := lowerEnd_mul (by rw [hleading]; decide) denominator
  rw [← hstep, if_pos ⟨hleading, hshift⟩] at hend
  rw [Admits] at h
  split at h <;> omega

end Bounds

end Magnitude

namespace Binary64

variable {magnitude : Magnitude} {numerator denominator : Nat}

theorem log2_div {exponent : Nat} (hdenominator : 0 < denominator)
    (hlower : 2 ^ exponent * denominator ≤ numerator)
    (hupper : numerator < 2 ^ (exponent + 1) * denominator) :
    (numerator / denominator).log2 = exponent := by
  have hle : 2 ^ exponent ≤ numerator / denominator :=
    (Nat.le_div_iff_mul_le hdenominator).mpr hlower
  have hlt : numerator / denominator < 2 ^ (exponent + 1) :=
    (Nat.div_lt_iff_lt_mul hdenominator).mpr hupper
  have hne : numerator / denominator ≠ 0 := by
    have hpositive : 0 < 2 ^ exponent := Nat.two_pow_pos exponent
    omega
  exact (Nat.log2_eq_iff hne).mpr ⟨hle, hlt⟩

theorem ofParts_magnitude (negative : Bool) (magnitude : Magnitude) :
    ofParts negative magnitude.significand magnitude.shift = finite negative magnitude := by
  rw [ofParts, dif_pos magnitude.canonical]

/-- What is rounded with the shift of a magnitude to its significand is rounded to the
magnitude. -/
theorem roundUnits_of_shift {negative : Bool}
    (hshift : (numerator / denominator).log2 - 52 = magnitude.shift)
    (hquotient : roundedQuotient numerator (denominator * 2 ^ magnitude.shift) =
      magnitude.significand) :
    roundUnits negative numerator denominator = finite negative magnitude := by
  have hlimit : magnitude.significand ≠ significandLimit := Nat.ne_of_lt magnitude.canonical.1
  rw [roundedQuotient] at hquotient
  rw [roundUnits, hshift, Nat.pow_eq]
  simp only [hquotient, if_neg hlimit]
  exact ofParts_magnitude negative magnitude

theorem roundedQuotient_of_admits (h : magnitude.Admits numerator denominator)
    (hpositive : magnitude.significand ≠ 0) (hdenominator : 0 < denominator) :
    roundedQuotient numerator (denominator * 2 ^ magnitude.shift) = magnitude.significand := by
  have hstep : denominator * 2 ^ magnitude.shift = 2 ^ magnitude.shift * denominator :=
    Nat.mul_comm _ _
  have hpower : 0 < 2 ^ magnitude.shift := Nat.two_pow_pos _
  exact roundedQuotient_eq (Nat.mul_pos hdenominator hpower) (h.lower hpositive hstep)
    (h.upper hstep) (h.strict hpositive hstep)

/-- The significands with 53 bits, times a step. -/
theorem mul_step_bounds {significand : Nat} (step : Nat)
    (hlimit : significand < significandLimit) :
    significand * step + step ≤ 2 ^ 53 * step := by
  rw [significandLimit] at hlimit
  calc significand * step + step = (significand + 1) * step := (Nat.succ_mul _ _).symm
    _ ≤ 2 ^ 53 * step := Nat.mul_le_mul_right step (by omega)

theorem roundUnits_of_unshifted {negative : Bool} (h : magnitude.Admits numerator denominator)
    (hpositive : magnitude.significand ≠ 0) (hdenominator : 0 < denominator)
    (hshift : magnitude.shift = 0) :
    roundUnits negative numerator denominator = finite negative magnitude := by
  apply roundUnits_of_shift _ (roundedQuotient_of_admits h hpositive hdenominator)
  have hupper : 2 * numerator ≤ 2 * (magnitude.significand * denominator) + denominator :=
    h.upper (by rw [hshift]; simp)
  have hbound := mul_step_bounds denominator magnitude.canonical.1
  have hquotient : numerator / denominator < 2 ^ 53 :=
    (Nat.div_lt_iff_lt_mul hdenominator).mpr (by omega)
  rw [hshift]
  by_cases hzero : numerator / denominator = 0
  · rw [hzero]
    rfl
  · have hlog := (Nat.log2_lt hzero).mpr hquotient
    omega

/-- A number not below its power of two has as many bits as the magnitude. -/
theorem roundUnits_of_not_below {negative : Bool} (h : magnitude.Admits numerator denominator)
    (hpositive : magnitude.significand ≠ 0) (hdenominator : 0 < denominator)
    (hnumerator : leadingBit * (2 ^ magnitude.shift * denominator) ≤ numerator) :
    roundUnits negative numerator denominator = finite negative magnitude := by
  apply roundUnits_of_shift _ (roundedQuotient_of_admits h hpositive hdenominator)
  have hupper := h.upper rfl
  have hbound := mul_step_bounds (2 ^ magnitude.shift * denominator) magnitude.canonical.1
  have hstep : 0 < 2 ^ magnitude.shift * denominator :=
    Nat.mul_pos (Nat.two_pow_pos _) hdenominator
  have hlog : (numerator / denominator).log2 = 52 + magnitude.shift := by
    apply log2_div hdenominator
    · calc 2 ^ (52 + magnitude.shift) * denominator
          = leadingBit * (2 ^ magnitude.shift * denominator) := by
            rw [leadingBit, Nat.pow_add, Nat.mul_assoc]
        _ ≤ numerator := hnumerator
    · calc numerator < 2 ^ 53 * (2 ^ magnitude.shift * denominator) := by omega
        _ = 2 ^ (52 + magnitude.shift + 1) * denominator := by
            rw [← Nat.mul_assoc, ← Nat.pow_add]
            congr 2
            omega
  omega

/-- A number just below a power of two is first rounded with half the step, and then
goes up to the power. -/
theorem roundUnits_of_below {negative : Bool} (h : magnitude.Admits numerator denominator)
    (hdenominator : 0 < denominator) (hleading : magnitude.significand = leadingBit)
    (hshift : magnitude.shift ≠ 0)
    (hnumerator : numerator < leadingBit * (2 ^ magnitude.shift * denominator)) :
    roundUnits negative numerator denominator = finite negative magnitude := by
  obtain ⟨shift, hsucc⟩ := Nat.exists_eq_succ_of_ne_zero hshift
  have hlower := h.lower_of_leadingBit rfl hleading hshift
  have hdouble : 2 ^ magnitude.shift * denominator = 2 * (denominator * 2 ^ shift) := by
    rw [hsucc, Nat.pow_succ]
    ring
  have hstep : 0 < denominator * 2 ^ shift := Nat.mul_pos hdenominator (Nat.two_pow_pos _)
  rw [hleading, hdouble] at hlower
  rw [hdouble] at hnumerator
  rw [leadingBit] at hlower hnumerator
  have hlog : (numerator / denominator).log2 - 52 = shift := by
    have hexact : (numerator / denominator).log2 = 52 + shift := by
      apply log2_div hdenominator
      · calc 2 ^ (52 + shift) * denominator = 2 ^ 52 * (denominator * 2 ^ shift) := by
              rw [Nat.pow_add]
              ring
          _ ≤ numerator := by omega
      · calc numerator < 2 ^ 53 * (denominator * 2 ^ shift) := by omega
          _ = 2 ^ (52 + shift + 1) * denominator := by
              rw [Nat.pow_add, Nat.pow_add]
              ring
    omega
  have hquotient : roundedQuotient numerator (denominator * 2 ^ shift) = significandLimit := by
    apply roundedQuotient_eq hstep
    · rw [significandLimit]
      omega
    · rw [significandLimit]
      omega
    · intro hodd
      exact absurd hodd (by decide)
  rw [roundedQuotient] at hquotient
  rw [roundUnits, hlog, Nat.pow_eq]
  simp only [hquotient, if_true]
  rw [← hleading, ← Nat.succ_eq_add_one, ← hsucc]
  exact ofParts_magnitude negative magnitude

/-- Every number in the rounding interval of a magnitude is rounded to it. -/
theorem roundUnits_of_admits (negative : Bool) (h : magnitude.Admits numerator denominator)
    (hpositive : magnitude.significand ≠ 0) (hdenominator : 0 < denominator) :
    roundUnits negative numerator denominator = finite negative magnitude := by
  by_cases hshift : magnitude.shift = 0
  · exact roundUnits_of_unshifted h hpositive hdenominator hshift
  · by_cases hnumerator : leadingBit * (2 ^ magnitude.shift * denominator) ≤ numerator
    · exact roundUnits_of_not_below h hpositive hdenominator hnumerator
    · rw [Nat.not_le] at hnumerator
      have hleading : magnitude.significand = leadingBit := by
        have hcanonical := magnitude.canonical.2.2
        have hlower := h.lower hpositive rfl
        by_contra hne
        have hproduct : (leadingBit + 1) * (2 ^ magnitude.shift * denominator) ≤
            magnitude.significand * (2 ^ magnitude.shift * denominator) :=
          Nat.mul_le_mul_right _ (by omega)
        rw [Nat.succ_mul] at hproduct
        omega
      exact roundUnits_of_below h hdenominator hleading hshift hnumerator

end Binary64

namespace Magnitude

variable {magnitude : Magnitude}

theorem admits_of_nearestMultiple? {exponent : Int} {digits : Nat}
    (h : magnitude.nearestMultiple? exponent = some digits) :
    magnitude.admits ⟨digits, exponent⟩ = true := by
  rw [nearestMultiple?] at h
  split at h
  · rename_i hfloor hnext
    split at h
    · cases h
      exact hfloor
    · cases h
      exact hnext
  · rename_i hfloor _
    cases h
    exact hfloor
  · rename_i _ hnext
    cases h
    exact hnext
  · cases h

theorem admits_of_searchShortest {steps : Nat} {exponent : Int} {decimal : Decimal}
    (h : magnitude.searchShortest exponent steps = some decimal) :
    magnitude.admits decimal = true := by
  induction steps generalizing exponent with
  | zero => cases h
  | succ steps ih =>
    rw [searchShortest] at h
    split at h
    · rename_i digits hdigits
      cases h
      exact admits_of_nearestMultiple? hdigits
    · exact ih h

/-- A positive magnitude lies inside its own interval. -/
theorem admits_units (hpositive : magnitude.significand ≠ 0) :
    magnitude.Admits magnitude.units 1 := by
  have hpower : 0 < 2 ^ magnitude.shift := Nat.two_pow_pos _
  have hlower := lowerEnd_mul hpositive 1
  have hupper := upperEnd_mul magnitude 1
  have hunits : magnitude.units = magnitude.significand * (2 ^ magnitude.shift * 1) := by
    rw [units, Nat.pow_eq, Nat.mul_one]
  rw [Admits, hunits]
  split at hlower <;> split <;> omega

theorem ten_pow_pos (exponent : Nat) : 0 < 10 ^ exponent :=
  Nat.pow_pos (by decide)

theorem unitsPerOne_eq : unitsPerOne = Nat.pow 2 1074 := by
  delta unitsPerOne
  exact Eq.refl _

theorem five_pow_mul {exponent power : Nat} (hpower : power = Nat.pow 2 exponent) :
    Nat.pow 5 exponent * power = 10 ^ exponent := by
  rw [hpower, Nat.pow_eq, Nat.pow_eq, ← Nat.mul_pow]

/-- On the grid of the unit every magnitude has its exact decimal. -/
theorem admits_exact {power : Nat} {exponent : Int} (hunits : unitsPerOne = Nat.pow 2 power)
    (hexponent : exponent.toNat = 0 ∧ (-exponent).toNat = power)
    (hpositive : magnitude.significand ≠ 0) :
    magnitude.admits ⟨magnitude.units * Nat.pow 5 power, exponent⟩ = true := by
  have hten := five_pow_mul hunits
  have hscaled := (admits_mul (ten_pow_pos power)).mpr (admits_units hpositive)
  rw [admits_iff, hexponent.1, hexponent.2, Nat.pow_zero, Nat.mul_one, Nat.mul_assoc, hten]
  rwa [Nat.one_mul] at hscaled

/-- The shortest decimal of a magnitude lies in its rounding interval. -/
theorem admits_shortest (hpositive : magnitude.significand ≠ 0) :
    magnitude.admits magnitude.shortest = true := by
  rw [shortest]
  cases hfound : magnitude.searchShortest magnitude.coarsestExponent
      (magnitude.coarsestExponent + 1075).toNat with
  | none =>
    have hunits := unitsPerOne_eq
    -- The power is a variable here, for nobody is to compute it.
    generalize hpower : 1074 = power at hunits ⊢
    exact admits_exact hunits (by omega) hpositive
  | some decimal => exact admits_of_searchShortest hfound

end Magnitude

namespace Binary64

variable {magnitude : Magnitude} {digits : Nat} {exponent : Int}

theorem two_pow_le {low high : Nat} (h : low ≤ high) : 2 ^ low ≤ 2 ^ high :=
  Nat.pow_le_pow_right (by decide) h

theorem mul_ten_pow_lt {low high exponent : Nat} (h : low < high) :
    low * 10 ^ exponent < high * 10 ^ exponent :=
  Nat.mul_lt_mul_of_pos_right h (Magnitude.ten_pow_pos exponent)

theorem lt_pow_length_toDigits (digits : Nat) :
    digits < 10 ^ (Nat.toDigits 10 digits).length :=
  (Nat.length_toDigits_le_iff (by decide) Nat.length_toDigits_pos).mp (Nat.le_refl _)

theorem pow_length_toDigits_le (hdigits : digits ≠ 0) :
    10 ^ ((Nat.toDigits 10 digits).length - 1) ≤ digits := by
  by_cases hone : (Nat.toDigits 10 digits).length - 1 = 0
  · rw [hone]
    omega
  · rw [← Nat.not_lt, ← Nat.length_toDigits_le_iff (by decide) (by omega)]
    omega

theorem digits_ne_zero_of_admits (h : magnitude.admits ⟨digits, exponent⟩ = true)
    (hpositive : magnitude.significand ≠ 0) : digits ≠ 0 := by
  rintro rfl
  have hlower := (Magnitude.admits_iff.mp h).lower hpositive rfl
  have hstep : 0 < 2 ^ magnitude.shift * 10 ^ (-exponent).toNat :=
    Nat.mul_pos (Nat.two_pow_pos _) (Magnitude.ten_pow_pos _)
  have hproduct := Nat.mul_le_mul_right (2 ^ magnitude.shift * 10 ^ (-exponent).toNat)
    (Nat.pos_of_ne_zero hpositive)
  simp only [Nat.zero_mul] at hlower
  omega

/-- A decimal in the interval of a positive magnitude is not so small that it is read as
zero. -/
theorem not_small_of_admits (h : magnitude.admits ⟨digits, exponent⟩ = true)
    (hpositive : magnitude.significand ≠ 0) :
    ¬ exponent + (Nat.toDigits 10 digits).length < -330 := by
  intro hsmall
  have hlower := (Magnitude.admits_iff.mp h).lower hpositive rfl
  have hpower : 1 ≤ 2 ^ magnitude.shift := Nat.one_le_two_pow
  have hexponent : exponent.toNat = 0 := by omega
  have hten : 10 ^ (-exponent).toNat ≤ 2 ^ magnitude.shift * 10 ^ (-exponent).toNat :=
    Nat.le_mul_of_pos_left _ hpower
  have hproduct := Nat.mul_le_mul_right (2 ^ magnitude.shift * 10 ^ (-exponent).toNat)
    (Nat.pos_of_ne_zero hpositive)
  simp only [hexponent, Nat.pow_zero, Nat.mul_one] at hlower
  have hunits : 2 * unitsPerOne ≤ 10 ^ 330 := by decide +kernel
  have hlarge : 2 * (digits * unitsPerOne) < 10 ^ (-exponent).toNat :=
    calc 2 * (digits * unitsPerOne) = digits * (2 * unitsPerOne) := by ring
      _ ≤ digits * 10 ^ 330 := Nat.mul_le_mul_left _ hunits
      _ < 10 ^ (Nat.toDigits 10 digits).length * 10 ^ 330 :=
        mul_ten_pow_lt (lt_pow_length_toDigits digits)
      _ = 10 ^ ((Nat.toDigits 10 digits).length + 330) := by
        rw [Nat.pow_add 10 (Nat.toDigits 10 digits).length 330]
      _ ≤ 10 ^ (-exponent).toNat := Nat.pow_le_pow_right (by decide) (by omega)
  omega

/-- A decimal with many digits in front of its point is as large as the power of ten. -/
theorem ten_pow_mul_le {bound : Nat} (scale : Nat) (hdigits : digits ≠ 0)
    (hlarge : bound < exponent + (Nat.toDigits 10 digits).length) :
    10 ^ bound * scale * 10 ^ (-exponent).toNat ≤ digits * 10 ^ exponent.toNat * scale :=
  calc 10 ^ bound * scale * 10 ^ (-exponent).toNat
      = 10 ^ (bound + (-exponent).toNat) * scale := by
        rw [Nat.pow_add 10 bound (-exponent).toNat]
        exact Nat.mul_right_comm _ _ _
    _ ≤ 10 ^ ((Nat.toDigits 10 digits).length - 1 + exponent.toNat) * scale :=
        Nat.mul_le_mul_right _ (Nat.pow_le_pow_right (by decide) (by omega))
    _ = 10 ^ ((Nat.toDigits 10 digits).length - 1) * 10 ^ exponent.toNat * scale := by
        rw [Nat.pow_add]
    _ ≤ digits * 10 ^ exponent.toNat * scale :=
        Nat.mul_le_mul_right _ (Nat.mul_le_mul_right _ (pow_length_toDigits_le hdigits))

/-- A decimal in the interval of a magnitude is not so large that it is read as
infinity. -/
theorem not_large_of_admits (h : magnitude.admits ⟨digits, exponent⟩ = true)
    (hpositive : magnitude.significand ≠ 0) :
    ¬ 310 < exponent + (Nat.toDigits 10 digits).length := by
  intro hlarge
  have hupper := (Magnitude.admits_iff.mp h).upper rfl
  have hbound := mul_step_bounds (2 ^ magnitude.shift * 10 ^ (-exponent).toNat)
    magnitude.canonical.1
  have hpower : 2 ^ magnitude.shift ≤ 2 ^ 2045 := two_pow_le magnitude.canonical.2.1
  have hshift := Nat.mul_le_mul_right (10 ^ (-exponent).toNat) hpower
  have hunits : 2 ^ 53 * 2 ^ 2045 < 10 ^ 310 * unitsPerOne := by decide +kernel
  have hten : 0 < 10 ^ (-exponent).toNat := Magnitude.ten_pow_pos _
  generalize hbeyond : 310 = beyond at hunits
  have hcontradiction :=
    calc 10 ^ beyond * unitsPerOne * 10 ^ (-exponent).toNat
        ≤ digits * 10 ^ exponent.toNat * unitsPerOne :=
          ten_pow_mul_le unitsPerOne (digits_ne_zero_of_admits h hpositive) (by omega)
      _ ≤ 2 ^ 53 * (2 ^ magnitude.shift * 10 ^ (-exponent).toNat) := by
          omega
      _ ≤ 2 ^ 53 * (2 ^ 2045 * 10 ^ (-exponent).toNat) := Nat.mul_le_mul_left _ hshift
      _ = 2 ^ 53 * 2 ^ 2045 * 10 ^ (-exponent).toNat := (Nat.mul_assoc ..).symm
  exact absurd hcontradiction (Nat.not_le_of_gt (Nat.mul_lt_mul_of_pos_right hunits hten))

/-- A decimal in the rounding interval of a magnitude is read as that magnitude. -/
theorem ofDecimal_of_admits {negative : Bool} (h : magnitude.admits ⟨digits, exponent⟩ = true)
    (hpositive : magnitude.significand ≠ 0) :
    ofDecimal negative digits exponent = finite negative magnitude := by
  have hzero := digits_ne_zero_of_admits h hpositive
  have hsmall := not_small_of_admits h hpositive
  have hlarge := not_large_of_admits h hpositive
  have hadmits := Magnitude.admits_iff.mp h
  have hround := roundUnits_of_admits negative hadmits hpositive (Magnitude.ten_pow_pos _)
  rw [ofDecimal, if_neg (by simp only [hzero, hsmall, or_self, not_false_eq_true]), if_neg hlarge,
    Nat.pow_eq, Nat.pow_eq]
  exact hround

end Binary64

end MiniZincModels
