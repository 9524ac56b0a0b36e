import HalfMatrix.Proofs.Decimals.ReadBack
import HalfMatrix.Proofs.Decimals.Values

/-!
# Equality of floating-point numbers

Two words stand for one number if they are the same infinity, or finite and of
one value.  `equals_iff` says that this is what `Binary.equals` decides: a value
has one word, but for zero, which has one with each sign.  What is not a number
equals nothing, not even itself.
-/

set_option autoImplicit false

namespace HalfMatrix.Binary

variable {precision : Precision} {left right : Binary precision}

inductive SameNumber (left right : Binary precision) : Prop
  | infinite (first : left.isInfinite) (second : right.isInfinite)
      (sign : left.isNegative = right.isNegative) : SameNumber left right
  | finite (first : left.isFinite) (second : right.isFinite) (value : left.value = right.value) :
      SameNumber left right

theorem SameNumber.symm (same : SameNumber left right) : SameNumber right left := by
  cases same with
  | infinite first second sign => exact .infinite second first sign.symm
  | finite first second value => exact .finite second first value.symm

/-! ## Kinds of numbers -/

theorem isInfinite_or_isNaN {number : Binary precision} (other : number.isFinite = false) :
    number.isInfinite = true ∨ number.isNaN = true := by
  simp only [isFinite, isInfinite, isNaN, decide_eq_true_eq, decide_eq_false_iff_not] at *
  omega

theorem isNaN_of_isFinite (finite : left.isFinite) : left.isNaN = false := by
  simp only [isFinite, isNaN, decide_eq_true_eq, decide_eq_false_iff_not] at *
  omega

theorem isNaN_of_isInfinite (infinite : left.isInfinite) : left.isNaN = false := by
  simp only [isInfinite, isNaN, decide_eq_true_eq, decide_eq_false_iff_not] at *
  omega

theorem magnitude_of_isInfinite (infinite : left.isInfinite) :
    left.magnitude = precision.infinity := by
  simpa [isInfinite] using infinite

theorem isFinite_of_magnitude_eq_zero (zero : left.magnitude = 0) : left.isFinite = true := by
  rw [isFinite, decide_eq_true_eq, zero]
  cases precision <;> decide

theorem eq_of_sign_of_magnitude (sign : left.isNegative = right.isNegative)
    (magnitude : left.magnitude = right.magnitude) : left = right := by
  rw [← ofMagnitude_magnitude left, ← ofMagnitude_magnitude right, sign, magnitude]

/-! ## Values -/

theorem magnitude_eq_of_units (finite : left.isFinite) (finite' : right.isFinite)
    (units : left.units = right.units) : left.magnitude = right.magnitude := by
  simp only [isFinite, decide_eq_true_eq] at finite finite'
  rw [← magnitudeOfRatio_unitsOf (Nat.le_of_lt finite),
    ← magnitudeOfRatio_unitsOf (Nat.le_of_lt finite')]
  exact congrArg (magnitudeOfRatio precision · 1) units

theorem value_eq (number : Binary precision) :
    number.value =
      (if number.isNegative then -1 else 1) * (number.units / 2 ^ precision.unitExponent : ℚ) := by
  obtain ⟨size, nonneg, signed⟩ : ∃ size : ℚ, 0 ≤ size ∧
      number.value = (if number.isNegative then -1 else 1) * size := by
    by_cases least : number.exponentField = 0
    · refine ⟨number.fractionField * 2 ^ (1 - precision.bias - precision.fractionBits : ℤ),
        by positivity, ?_⟩
      rw [value, if_pos least, mul_assoc]
    · refine ⟨(2 ^ precision.fractionBits + number.fractionField) *
        2 ^ (number.exponentField - precision.bias - precision.fractionBits : ℤ),
        by positivity, ?_⟩
      rw [value, if_neg least, mul_assoc]
  have units := number.abs_value
  rw [signed, abs_mul, abs_sign, one_mul, abs_of_nonneg nonneg] at units
  rw [signed, units]

theorem value_eq_zero (zero : left.magnitude = 0) : left.value = 0 := by
  have none : left.units = 0 := by simp [units, unitsOf, zero]
  rw [value_eq, none, Nat.cast_zero, zero_div, mul_zero]

theorem units_eq_of_value (value : left.value = right.value) : left.units = right.units := by
  have sizes : (left.units / 2 ^ precision.unitExponent : ℚ) =
      right.units / 2 ^ precision.unitExponent := by
    rw [← abs_value, ← abs_value, value]
  have positive : (0 : ℚ) < 2 ^ precision.unitExponent := pow_pos two_pos _
  exact mod_cast (div_left_inj' positive.ne').mp sizes

theorem isNegative_eq_of_value (value : left.value = right.value)
    (nonzero : left.magnitude ≠ 0) : left.isNegative = right.isNegative := by
  have units : (0 : ℚ) < left.units := mod_cast units_pos nonzero
  have size : (0 : ℚ) < left.units / 2 ^ precision.unitExponent := div_pos units (pow_pos two_pos _)
  have signed := value
  rw [value_eq, value_eq, ← units_eq_of_value value] at signed
  cases sign : left.isNegative <;> cases sign' : right.isNegative <;>
    simp only [sign, sign', Bool.false_eq_true, if_true, if_false] at signed ⊢ <;> linarith

/-- A value has one word, and zero has two. -/
theorem value_eq_value_iff (finite : left.isFinite) (finite' : right.isFinite) :
    left.value = right.value ↔ left = right ∨ (left.magnitude = 0 ∧ right.magnitude = 0) := by
  constructor
  · intro value
    have magnitude := magnitude_eq_of_units finite finite' (units_eq_of_value value)
    by_cases zero : left.magnitude = 0
    · exact Or.inr ⟨zero, magnitude.symm.trans zero⟩
    · exact Or.inl (eq_of_sign_of_magnitude (isNegative_eq_of_value value zero) magnitude)
  · rintro (rfl | ⟨zero, zero'⟩)
    · rfl
    · rw [value_eq_zero zero, value_eq_zero zero']

/-! ## Equality -/

/-- Numbers are equal in a program if their words stand for one number. -/
theorem equals_iff : left.equals right = true ↔ SameNumber left right := by
  have decided : left.equals right = true ↔ (left.isNaN = false ∧ right.isNaN = false) ∧
      (left = right ∨ (left.magnitude = 0 ∧ right.magnitude = 0)) := by
    simp [equals]
  rw [decided]
  constructor
  · rintro ⟨⟨number, number'⟩, rfl | ⟨zero, zero'⟩⟩
    · cases finite : left.isFinite with
      | true => exact .finite finite finite rfl
      | false =>
          have infinite : left.isInfinite = true :=
            (isInfinite_or_isNaN finite).resolve_right (Bool.eq_false_iff.mp number)
          exact .infinite infinite infinite rfl
    · have finite := isFinite_of_magnitude_eq_zero zero
      have finite' := isFinite_of_magnitude_eq_zero zero'
      exact .finite finite finite' ((value_eq_value_iff finite finite').mpr (Or.inr ⟨zero, zero'⟩))
  · rintro (⟨infinite, infinite', sign⟩ | ⟨finite, finite', value⟩)
    · have magnitude := (magnitude_of_isInfinite infinite).trans
        (magnitude_of_isInfinite infinite').symm
      have same := eq_of_sign_of_magnitude sign magnitude
      exact ⟨⟨isNaN_of_isInfinite infinite, isNaN_of_isInfinite infinite'⟩, Or.inl same⟩
    · exact ⟨⟨isNaN_of_isFinite finite, isNaN_of_isFinite finite'⟩,
        (value_eq_value_iff finite finite').mp value⟩

end HalfMatrix.Binary
