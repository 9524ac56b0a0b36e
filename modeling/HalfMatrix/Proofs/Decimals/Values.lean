import HalfMatrix.Proofs.Decimals.Rounding
import Mathlib.Algebra.Order.AbsoluteValue.Basic
import Mathlib.Algebra.Order.Field.Rat
import Mathlib.Algebra.Order.Field.Power
import Mathlib.Tactic.FieldSimp
import Mathlib.Tactic.Linarith
import Mathlib.Tactic.NormNum
import Mathlib.Tactic.Ring

/-!
# The value of a floating-point number

The word of a number has a sign bit, an exponent field and a fraction field.
`value` is the number that the format assigns to these fields, as a fraction of
whole numbers; `abs_value` says that it is a whole number of units, and how
many.  The largest exponent field is that of the infinities and of what is not
a number.
-/

set_option autoImplicit false

namespace HalfMatrix

namespace Precision

def bias (precision : Precision) : Nat := 2 ^ (precision.exponentBits - 1) - 1

def fractionBits (precision : Precision) : Nat := precision.significantBits - 1

def topField (precision : Precision) : Nat := 2 ^ precision.exponentBits - 1

theorem signBit_eq (precision : Precision) :
    precision.signBit = precision.binade * 2 ^ precision.exponentBits := by
  cases precision <;> decide

theorem unitExponent_eq (precision : Precision) :
    precision.unitExponent + 1 = precision.bias + precision.fractionBits := by
  cases precision <;> decide

end Precision

namespace Binary

variable {precision : Precision}

def exponentField (number : Binary precision) : Nat :=
  number.bits.toNat / 2 ^ precision.fractionBits % 2 ^ precision.exponentBits

def fractionField (number : Binary precision) : Nat :=
  number.bits.toNat % 2 ^ precision.fractionBits

/-- The value of a finite number.  Below the least exponent the significand has
no leading one. -/
def value (number : Binary precision) : ℚ :=
  let sign : ℚ := if number.isNegative then -1 else 1
  if number.exponentField = 0 then
    sign * number.fractionField * 2 ^ (1 - precision.bias - precision.fractionBits : ℤ)
  else
    sign * (2 ^ precision.fractionBits + number.fractionField) *
      2 ^ (number.exponentField - precision.bias - precision.fractionBits : ℤ)

theorem fractionField_lt (number : Binary precision) :
    number.fractionField < precision.binade :=
  Nat.mod_lt _ precision.binade_pos

theorem magnitude_div_binade (number : Binary precision) :
    number.magnitude / precision.binade = number.exponentField := by
  rw [magnitude, precision.signBit_eq, Nat.mod_mul_right_div_self]
  rfl

theorem magnitude_mod_binade (number : Binary precision) :
    number.magnitude % precision.binade = number.fractionField := by
  rw [magnitude, precision.signBit_eq, Nat.mod_mul_right_mod]
  rfl

theorem magnitude_eq (number : Binary precision) :
    number.magnitude = number.exponentField * precision.binade + number.fractionField := by
  rw [← magnitude_div_binade, ← magnitude_mod_binade]
  exact (Nat.div_add_mod' number.magnitude precision.binade).symm

theorem exponentField_lt (number : Binary precision) :
    number.exponentField < 2 ^ precision.exponentBits :=
  Nat.mod_lt _ (Nat.two_pow_pos _)

/-- The words with the largest exponent field begin at the infinities. -/
theorem exponentField_cases (number : Binary precision) :
    (number.exponentField ≠ precision.topField ∧
        number.exponentField * precision.binade + precision.binade ≤ precision.infinity) ∨
      (number.exponentField = precision.topField ∧
        number.exponentField * precision.binade = precision.infinity) := by
  have infinity : precision.infinity = precision.topField * precision.binade := rfl
  have bound : number.exponentField < 2 ^ precision.exponentBits := number.exponentField_lt
  have top : precision.topField = 2 ^ precision.exponentBits - 1 := rfl
  rcases Nat.lt_or_ge number.exponentField precision.topField with below | above
  · refine Or.inl ⟨Nat.ne_of_lt below, ?_⟩
    rw [infinity, ← Nat.succ_mul]
    exact Nat.mul_le_mul_right _ below
  · have same : number.exponentField = precision.topField := by omega
    exact Or.inr ⟨same, by rw [same, infinity]⟩

theorem isFinite_iff_fields (number : Binary precision) :
    number.isFinite = true ↔ number.exponentField ≠ precision.topField := by
  have fraction := number.fractionField_lt
  rw [isFinite, decide_eq_true_eq, magnitude_eq]
  rcases number.exponentField_cases with ⟨apart, below⟩ | ⟨top, reached⟩
  · exact iff_of_true (by omega) apart
  · exact iff_of_false (by omega) (not_not_intro top)

theorem isInfinite_iff_fields (number : Binary precision) :
    number.isInfinite = true ↔
      number.exponentField = precision.topField ∧ number.fractionField = 0 := by
  have fraction := number.fractionField_lt
  rw [isInfinite, decide_eq_true_eq, magnitude_eq]
  rcases number.exponentField_cases with ⟨apart, below⟩ | ⟨top, reached⟩
  · exact iff_of_false (by omega) fun both => apart both.1
  · rw [reached, and_iff_right top]
    omega

theorem isNaN_iff_fields (number : Binary precision) :
    number.isNaN = true ↔
      number.exponentField = precision.topField ∧ number.fractionField ≠ 0 := by
  have fraction := number.fractionField_lt
  rw [isNaN, decide_eq_true_eq, magnitude_eq]
  rcases number.exponentField_cases with ⟨apart, below⟩ | ⟨top, reached⟩
  · exact iff_of_false (by omega) fun both => apart both.1
  · rw [reached, and_iff_right top]
    omega

/-! ## Units -/

theorem units_eq (number : Binary precision) :
    number.units =
      if number.exponentField = 0 then number.fractionField
      else (precision.binade + number.fractionField) * 2 ^ (number.exponentField - 1) := by
  have scale : scaleOf precision number.magnitude = number.exponentField - 1 := by
    rw [scaleOf, magnitude_div_binade]
  rw [units, unitsOf, scale, magnitude_eq]
  split
  · rename_i least
    simp [least]
  · rename_i normal
    obtain ⟨exponent, above⟩ := Nat.exists_eq_succ_of_ne_zero normal
    rw [above, Nat.succ_mul, Nat.succ_sub_one, Nat.add_assoc, Nat.add_sub_cancel_left]
    rfl

theorem abs_sign (number : Binary precision) :
    |(if number.isNegative then -1 else 1 : ℚ)| = 1 := by
  split <;> simp

theorem abs_value (number : Binary precision) :
    |number.value| = number.units / 2 ^ precision.unitExponent := by
  have two : (2 : ℚ) ≠ 0 := two_ne_zero
  have unit : (precision.unitExponent : ℤ) + 1 = precision.bias + precision.fractionBits :=
    mod_cast precision.unitExponent_eq
  have binade : (precision.binade : ℚ) = 2 ^ precision.fractionBits := by
    rw [Precision.binade, Nat.pow_eq, Nat.cast_pow]
    rfl
  rw [units_eq, value]
  split
  · have least : (1 - precision.bias - precision.fractionBits : ℤ) = -precision.unitExponent := by
      omega
    rw [abs_mul, abs_mul, abs_sign, one_mul, Nat.abs_cast, abs_of_pos (zpow_pos two_pos _), least,
      zpow_neg, zpow_natCast]
    rfl
  · rename_i normal
    have exponent : (number.exponentField - precision.bias - precision.fractionBits : ℤ) =
        (number.exponentField - 1 : Nat) - (precision.unitExponent : ℤ) := by
      omega
    have significand : (0 : ℚ) ≤ 2 ^ precision.fractionBits + number.fractionField := by
      positivity
    rw [abs_mul, abs_mul, abs_sign, one_mul, abs_of_nonneg significand,
      abs_of_pos (zpow_pos two_pos _), exponent, zpow_sub₀ two, zpow_natCast, zpow_natCast,
      Nat.cast_mul, Nat.cast_add, Nat.cast_pow, binade, mul_div_assoc]
    rfl

end Binary

end HalfMatrix
