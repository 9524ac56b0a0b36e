import HalfMatrix.Binary.Rounded
import Mathlib.Algebra.Group.Nat.Defs

/-!
# What rounding gives back

The finite numbers of a precision are the values that rounding leaves as they
are.  A ratio is rounded by its value alone, so two ways to write one value with
digits and a power of ten come to the same number.
-/

set_option autoImplicit false

namespace HalfMatrix

namespace Rounding

theorem nearest_mul_left {factor : Nat} (positive : 0 < factor) (numerator denominator : Nat) :
    nearest (factor * numerator) (factor * denominator) = nearest numerator denominator := by
  have rest : 2 * (factor * (numerator % denominator)) =
      factor * (2 * (numerator % denominator)) := Nat.mul_left_comm 2 factor _
  simp only [nearest, Nat.mul_div_mul_left _ _ positive, Nat.mul_mod_mul_left, rest,
    Nat.mul_lt_mul_left positive, Nat.mul_right_inj (Nat.ne_of_gt positive)]

end Rounding

namespace Precision

theorem binade_pos (precision : Precision) : 0 < precision.binade := by
  cases precision <;> decide

theorem infinity_lt_signBit (precision : Precision) : precision.infinity < precision.signBit := by
  cases precision <;> decide

theorem two_pow_width (precision : Precision) : 2 ^ precision.width = 2 * precision.signBit := by
  cases precision <;> decide

theorem two_binades (precision : Precision) :
    2 ^ precision.significantBits = 2 * precision.binade := by
  cases precision <;> decide

end Precision

namespace Binary

variable {precision : Precision}

/-! ## Words -/

theorem ofMagnitude_magnitude (number : Binary precision) :
    ofMagnitude number.isNegative number.magnitude = number := by
  obtain ⟨bits⟩ := number
  have word : bits.toNat < 2 * precision.signBit := precision.two_pow_width ▸ bits.isLt
  have parts : bits.toNat % precision.signBit +
      (if decide (precision.signBit ≤ bits.toNat) then precision.signBit else 0) =
        bits.toNat := by
    by_cases negative : precision.signBit ≤ bits.toNat
    · rw [Nat.mod_eq_sub_mod negative, Nat.mod_eq_of_lt (by omega)]
      simp only [negative, decide_true, if_true]
      omega
    · rw [Nat.mod_eq_of_lt (by omega)]
      simp [negative]
  have same := congrArg (BitVec.ofNat precision.width) parts
  rw [BitVec.ofNat_toNat, BitVec.setWidth_eq] at same
  exact congrArg Binary.mk same

theorem magnitude_ofMagnitude (negative : Bool) {magnitude : Nat}
    (bound : magnitude < precision.signBit) :
    (ofMagnitude negative magnitude : Binary precision).magnitude = magnitude := by
  have width := precision.two_pow_width
  have word : magnitude + (if negative then precision.signBit else 0) < 2 ^ precision.width := by
    split <;> omega
  simp only [ofMagnitude, Binary.magnitude, BitVec.toNat_ofNat, Nat.mod_eq_of_lt word]
  cases negative with
  | false => exact Nat.mod_eq_of_lt bound
  | true => simp [Nat.mod_eq_of_lt bound]

theorem not_isInfinite_of_isFinite {number : Binary precision} (finite : number.isFinite) :
    number.isInfinite = false := by
  simp only [isFinite, decide_eq_true_eq] at finite
  simp only [isInfinite, decide_eq_false_iff_not]
  omega

/-! ## Ratios -/

theorem magnitudeOfRatio_mul_left {factor : Nat} (positive : 0 < factor)
    (numerator denominator : Nat) :
    magnitudeOfRatio precision (factor * numerator) (factor * denominator) =
      magnitudeOfRatio precision numerator denominator := by
  simp only [magnitudeOfRatio, Nat.mul_div_mul_left _ _ positive, Nat.mul_assoc,
    Rounding.nearest_mul_left positive]

/-- The significand of a magnitude beyond the first two exponents has as many
bits as a significand may have, and one binade is left over for each power of
two of the scale. -/
theorem significand_bounds {magnitude : Nat} (beyond : 2 * precision.binade ≤ magnitude) :
    precision.binade ≤ magnitude - scaleOf precision magnitude * precision.binade ∧
      magnitude - scaleOf precision magnitude * precision.binade < 2 * precision.binade ∧
        scaleOf precision magnitude * precision.binade ≤ magnitude := by
  have positive := precision.binade_pos
  have quotient : 2 ≤ magnitude / precision.binade :=
    (Nat.le_div_iff_mul_le positive).mpr beyond
  obtain ⟨scale, scaleEq⟩ : ∃ scale, magnitude / precision.binade = scale + 1 :=
    ⟨magnitude / precision.binade - 1, by omega⟩
  have parts := Nat.div_add_mod magnitude precision.binade
  have rest := Nat.mod_lt magnitude positive
  simp only [scaleOf, scaleEq, Nat.add_sub_cancel]
  rw [scaleEq, Nat.mul_add, Nat.mul_one, Nat.mul_comm] at parts
  omega

theorem scaleOf_eq_zero {magnitude : Nat} (within : magnitude < 2 * precision.binade) :
    scaleOf precision magnitude = 0 := by
  have quotient : magnitude / precision.binade < 2 :=
    (Nat.div_lt_iff_lt_mul precision.binade_pos).mpr within
  simp only [scaleOf]
  omega

theorem scale_of_units {magnitude : Nat} :
    (unitsOf precision magnitude).log2 + 1 - precision.significantBits =
      scaleOf precision magnitude := by
  have twice := precision.two_binades
  by_cases within : magnitude < 2 * precision.binade
  · have scale := scaleOf_eq_zero within
    have units : unitsOf precision magnitude = magnitude := by simp [unitsOf, scale]
    rw [units, scale]
    by_cases zero : magnitude = 0
    · subst zero
      cases precision <;> decide
    · have bits := (Nat.log2_lt zero).mpr (twice ▸ within)
      omega
  · obtain ⟨least, most, _⟩ := significand_bounds (Nat.le_of_not_lt within)
    have positive := precision.binade_pos
    have one : 1 ≤ precision.significantBits := by cases precision <;> decide
    have log : (unitsOf precision magnitude).log2 =
        precision.significantBits - 1 + scaleOf precision magnitude := by
      have scalePositive := Nat.two_pow_pos (scaleOf precision magnitude)
      have nonzero : unitsOf precision magnitude ≠ 0 :=
        Nat.mul_ne_zero (by omega) (Nat.ne_of_gt scalePositive)
      apply (Nat.log2_eq_iff nonzero).mpr
      constructor
      · rw [Nat.pow_add]
        exact Nat.mul_le_mul_right _ least
      · have next : precision.significantBits - 1 + scaleOf precision magnitude + 1 =
            precision.significantBits + scaleOf precision magnitude := by omega
        rw [next, Nat.pow_add, twice]
        exact Nat.mul_lt_mul_of_pos_right most scalePositive
    omega

/-- A number of units that a magnitude amounts to is rounded to that magnitude. -/
theorem magnitudeOfRatio_unitsOf {magnitude : Nat} (bound : magnitude ≤ precision.infinity) :
    magnitudeOfRatio precision (unitsOf precision magnitude) 1 = magnitude := by
  have whole : scaleOf precision magnitude * precision.binade ≤ magnitude := by
    by_cases within : magnitude < 2 * precision.binade
    · simp [scaleOf_eq_zero within]
    · exact (significand_bounds (Nat.le_of_not_lt within)).2.2
  simp only [magnitudeOfRatio, Nat.div_one, scale_of_units, Nat.one_mul]
  have rounded : Rounding.nearest (unitsOf precision magnitude)
      (Nat.pow 2 (scaleOf precision magnitude)) =
        magnitude - scaleOf precision magnitude * precision.binade :=
    Rounding.nearest_mul_cancel _ _ (Nat.two_pow_pos _)
  rw [rounded]
  omega

theorem ofRatio_congr (negative : Bool) {numerator denominator numerator' denominator' : Nat}
    (positive : 0 < denominator) (positive' : 0 < denominator')
    (same : numerator * denominator' = numerator' * denominator) :
    (ofRatio negative numerator denominator : Binary precision) =
      ofRatio negative numerator' denominator' := by
  have cross : denominator' * (numerator * Nat.pow 2 precision.unitExponent) =
      denominator * (numerator' * Nat.pow 2 precision.unitExponent) := by
    rw [← Nat.mul_assoc, ← Nat.mul_assoc, Nat.mul_comm denominator', same,
      Nat.mul_comm denominator]
  simp only [ofRatio]
  rw [← magnitudeOfRatio_mul_left positive', cross, Nat.mul_comm denominator' denominator,
    magnitudeOfRatio_mul_left positive]

/-- A ratio whose value is that of a finite number is rounded to it. -/
theorem ofRatio_eq_self {number : Binary precision} (finite : number.isFinite)
    {numerator denominator : Nat} (positive : 0 < denominator)
    (value : numerator * Nat.pow 2 precision.unitExponent = denominator * number.units) :
    ofRatio number.isNegative numerator denominator = number := by
  simp only [isFinite, decide_eq_true_eq] at finite
  have rounded : magnitudeOfRatio precision (denominator * number.units) (denominator * 1) = _ :=
    magnitudeOfRatio_mul_left positive number.units 1
  simp only [Nat.mul_one, units, magnitudeOfRatio_unitsOf (Nat.le_of_lt finite)] at rounded
  simp only [ofRatio, value, units, rounded, ofMagnitude_magnitude]

/-! ## Digits and powers of ten -/

theorem length_toDigits_eq_iff {value length : Nat} (positive : 0 < value) :
    (Nat.toDigits 10 value).length = length + 1 ↔
      10 ^ length ≤ value ∧ value < 10 ^ (length + 1) := by
  have upper := Nat.length_toDigits_le_iff (n := value) (k := length + 1) (b := 10)
    (by decide) (Nat.succ_pos _)
  have atLeastOne : 0 < (Nat.toDigits 10 value).length := Nat.length_toDigits_pos
  cases length with
  | zero =>
      simp only [Nat.pow_zero]
      omega
  | succ length =>
      have lower := Nat.length_toDigits_le_iff (n := value) (k := length + 1) (b := 10)
        (by decide) (Nat.succ_pos _)
      omega

theorem length_toDigits_mul_pow {digits : Nat} (positive : 0 < digits) (zeros : Nat) :
    (Nat.toDigits 10 (digits * 10 ^ zeros)).length = (Nat.toDigits 10 digits).length + zeros := by
  have atLeastOne : 0 < (Nat.toDigits 10 digits).length := Nat.length_toDigits_pos
  obtain ⟨length, lengthEq⟩ : ∃ length, (Nat.toDigits 10 digits).length = length + 1 :=
    ⟨(Nat.toDigits 10 digits).length - 1, by omega⟩
  obtain ⟨least, most⟩ := (length_toDigits_eq_iff positive).mp lengthEq
  have powerPositive : 0 < 10 ^ zeros := Nat.pow_pos (by decide)
  have shifted : (Nat.toDigits 10 (digits * 10 ^ zeros)).length = length + zeros + 1 := by
    apply (length_toDigits_eq_iff (Nat.mul_pos positive powerPositive)).mpr
    have next : length + zeros + 1 = length + 1 + zeros := by omega
    rw [next, Nat.pow_add, Nat.pow_add]
    exact ⟨Nat.mul_le_mul_right _ least, Nat.mul_lt_mul_of_pos_right most powerPositive⟩
  omega

theorem ofDecimal_eq_ofRatio {negative : Bool} {digits : Nat} {exponent : Int}
    (nonzero : digits ≠ 0)
    (least : -decimalReach ≤ (Nat.toDigits 10 digits).length + exponent)
    (most : (Nat.toDigits 10 digits).length + exponent ≤ decimalReach) :
    (ofDecimal negative digits exponent : Binary precision) =
      ofRatio negative (digits * 10 ^ exponent.toNat) (10 ^ (-exponent).toNat) := by
  have inReach : ¬ (digits = 0 ∨
      (Nat.toDigits 10 digits).length + exponent < -decimalReach) := by omega
  simp only [ofDecimal, if_neg inReach, if_neg (Int.not_lt.mpr most)]
  cases exponent with
  | ofNat power =>
      have none : (-Int.ofNat power).toNat = 0 := by simp
      rw [none]
      rfl
  | negSucc power =>
      simp only [Int.toNat_negSucc, Int.neg_negSucc, Nat.pow_zero, Nat.mul_one]
      rfl

/-- Zeros at the end of the digits can be made up for by the power of ten. -/
theorem ofDecimal_shift (negative : Bool) {digits : Nat} (nonzero : digits ≠ 0)
    (exponent : Int) (zeros : Nat) :
    (ofDecimal negative (digits * 10 ^ zeros) (exponent - zeros) : Binary precision) =
      ofDecimal negative digits exponent := by
  have positive : 0 < digits := Nat.pos_of_ne_zero nonzero
  have powerPositive : 0 < 10 ^ zeros := Nat.pow_pos (by decide)
  have nonzero' : digits * 10 ^ zeros ≠ 0 := Nat.ne_of_gt (Nat.mul_pos positive powerPositive)
  have leading : ((Nat.toDigits 10 (digits * 10 ^ zeros)).length : Int) + (exponent - zeros) =
      (Nat.toDigits 10 digits).length + exponent := by
    rw [length_toDigits_mul_pow positive]
    omega
  by_cases least : -decimalReach ≤ (Nat.toDigits 10 digits).length + exponent
  · by_cases most : (Nat.toDigits 10 digits).length + exponent ≤ decimalReach
    · rw [ofDecimal_eq_ofRatio nonzero least most,
        ofDecimal_eq_ofRatio nonzero' (leading ▸ least) (leading ▸ most)]
      apply ofRatio_congr negative (Nat.pow_pos (by decide)) (Nat.pow_pos (by decide))
      have exponents : zeros + (exponent - zeros).toNat + (-exponent).toNat =
          exponent.toNat + (-(exponent - zeros)).toNat := by omega
      simp only [Nat.mul_assoc, ← Nat.pow_add]
      rw [← exponents, Nat.add_assoc]
    · have beyond := Int.not_le.mp most
      simp only [ofDecimal, leading, nonzero, nonzero', false_or, beyond, if_true]
  · have below := Int.not_le.mp least
    simp only [ofDecimal, leading, nonzero, nonzero', false_or, below, if_true]

end Binary

end HalfMatrix
