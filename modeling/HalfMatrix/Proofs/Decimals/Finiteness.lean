import HalfMatrix.Json.Number
import HalfMatrix.Proofs.Decimals.Rounding

/-!
# What is read is finite

Rounding never leaves the words of the finite numbers and the infinities, and a
number that a document spells is refused if it is rounded to an infinity.  Whole
numbers that fit a word are far from the infinities of both precisions, also
where they are rounded to double precision first.
-/

set_option autoImplicit false

namespace HalfMatrix

theorem Rounding.nearest_le (numerator denominator : Nat) :
    nearest numerator denominator ≤ numerator / denominator + 1 := by
  unfold nearest
  dsimp only
  split <;> omega

namespace Binary

variable {precision : Precision}

/-! ## Magnitudes -/

theorem magnitude_ofRatio (negative : Bool) (numerator denominator : Nat) :
    (ofRatio negative numerator denominator : Binary precision).magnitude =
      magnitudeOfRatio precision (numerator * Nat.pow 2 precision.unitExponent) denominator :=
  magnitude_ofMagnitude negative
    (Nat.lt_of_le_of_lt (Nat.min_le_right _ _) precision.infinity_lt_signBit)

theorem magnitudeOfRatio_le {numerator denominator bits : Nat} (positive : 0 < denominator)
    (bound : numerator < 2 ^ bits * denominator) :
    magnitudeOfRatio precision numerator denominator ≤
      (bits - precision.significantBits + 2) * precision.binade := by
  have quotient : numerator / denominator < 2 ^ bits :=
    (Nat.div_lt_iff_lt_mul positive).mpr bound
  have one : 1 ≤ precision.significantBits := by cases precision <;> decide
  obtain ⟨scale, scaleEq⟩ : ∃ scale,
      (numerator / denominator).log2 + 1 - precision.significantBits = scale := ⟨_, rfl⟩
  have small : scale ≤ bits - precision.significantBits := by
    by_cases zero : numerator / denominator = 0
    · rw [zero, Nat.log2_zero] at scaleEq
      omega
    · have log := (Nat.log2_lt zero).mpr quotient
      omega
  have significand : numerator / (denominator * 2 ^ scale) < 2 ^ precision.significantBits := by
    rw [← Nat.div_div_eq_div_mul, Nat.div_lt_iff_lt_mul (Nat.two_pow_pos scale), ← Nat.pow_add]
    exact Nat.lt_of_lt_of_le Nat.lt_log2_self (Nat.pow_le_pow_right (by decide) (by omega))
  have rounded := Rounding.nearest_le numerator (denominator * 2 ^ scale)
  rw [precision.two_binades] at significand
  have scaled : scale * precision.binade ≤
      (bits - precision.significantBits) * precision.binade := Nat.mul_le_mul_right _ small
  calc
    magnitudeOfRatio precision numerator denominator
      ≤ scale * precision.binade +
          Rounding.nearest numerator (denominator * 2 ^ scale) := by
        simp only [magnitudeOfRatio, scaleEq]
        exact Nat.min_le_left _ _
    _ ≤ (bits - precision.significantBits) * precision.binade + 2 * precision.binade := by omega
    _ = (bits - precision.significantBits + 2) * precision.binade := (Nat.add_mul _ _ _).symm

theorem units_lt {number : Binary precision} {k : Nat}
    (bound : number.magnitude ≤ (k + 1) * precision.binade) :
    number.units < 2 ^ (precision.significantBits + k) := by
  have positive := precision.binade_pos
  have scale : scaleOf precision number.magnitude ≤ k := by
    have quotient : number.magnitude / precision.binade ≤ k + 1 := by
      rw [← Nat.mul_div_cancel (k + 1) positive]
      exact Nat.div_le_div_right bound
    simp only [scaleOf]
    omega
  have significand : number.magnitude - scaleOf precision number.magnitude * precision.binade <
      2 ^ precision.significantBits := by
    rw [precision.two_binades]
    by_cases within : number.magnitude < 2 * precision.binade
    · rw [scaleOf_eq_zero within]
      omega
    · exact (significand_bounds (Nat.le_of_not_lt within)).2.1
  calc
    number.units
      < 2 ^ precision.significantBits * 2 ^ scaleOf precision number.magnitude :=
        Nat.mul_lt_mul_of_pos_right significand (Nat.two_pow_pos _)
    _ ≤ 2 ^ (precision.significantBits + k) := by
        rw [← Nat.pow_add]
        exact Nat.pow_le_pow_right (by decide) (Nat.add_le_add_left scale _)

/-! ## Finite numbers -/

theorem isFinite_of_magnitude_le {number : Binary precision}
    (bound : number.magnitude ≤ precision.infinity) (finite : number.isInfinite = false) :
    number.isFinite := by
  simp only [isInfinite, decide_eq_false_iff_not] at finite
  simp only [isFinite, decide_eq_true_eq]
  omega

theorem isFinite_ofMagnitude_zero (negative : Bool) :
    (ofMagnitude negative 0 : Binary precision).isFinite := by
  cases precision <;> cases negative <;> decide

/-- Neither precision has an infinity that is less than `2 ^ 65`. -/
theorem isFinite_ofRatio (negative : Bool) {numerator denominator : Nat}
    (positive : 0 < denominator) (bound : numerator < 2 ^ 65 * denominator) :
    (ofRatio negative numerator denominator : Binary precision).isFinite := by
  have unitPositive : 0 < 2 ^ precision.unitExponent := Nat.two_pow_pos _
  have scaled : numerator * 2 ^ precision.unitExponent <
      2 ^ (65 + precision.unitExponent) * denominator := by
    rw [Nat.pow_add, Nat.mul_right_comm]
    exact Nat.mul_lt_mul_of_pos_right bound unitPositive
  have below : magnitudeOfRatio precision _ _ ≤ _ := magnitudeOfRatio_le positive scaled
  have binades : (65 + precision.unitExponent - precision.significantBits + 2) *
      precision.binade < precision.infinity :=
    Nat.mul_lt_mul_of_pos_right (by cases precision <;> decide) precision.binade_pos
  simp only [isFinite, decide_eq_true_eq, magnitude_ofRatio]
  exact Nat.lt_of_le_of_lt below binades

theorem units_ofRatio_word_lt (negative : Bool) {value : Nat} (word : value < Word.modulus) :
    (ofRatio negative value 1 : Binary precision).units <
      2 ^ 65 * 2 ^ precision.unitExponent := by
  have scaled : value * 2 ^ precision.unitExponent <
      2 ^ (64 + precision.unitExponent) * 1 := by
    rw [Nat.pow_add, Nat.mul_one]
    exact Nat.mul_lt_mul_of_pos_right word (Nat.two_pow_pos _)
  have few : precision.significantBits ≤ 64 + precision.unitExponent := by
    cases precision <;> decide
  have exponents : 65 + precision.unitExponent = precision.significantBits +
      (64 + precision.unitExponent - precision.significantBits + 1) := by omega
  rw [← Nat.pow_add, exponents]
  apply units_lt
  rw [magnitude_ofRatio]
  exact magnitudeOfRatio_le Nat.one_pos scaled

theorem isFinite_convert {target : Precision} {number : Binary precision}
    (finite : number.isFinite) (bound : number.units < 2 ^ 65 * 2 ^ precision.unitExponent) :
    (convert target number).isFinite := by
  have notNaN : number.isNaN = false := by
    simp only [isFinite, decide_eq_true_eq] at finite
    simp only [isNaN, decide_eq_false_iff_not]
    omega
  simp only [convert, notNaN, not_isInfinite_of_isFinite finite, Bool.false_eq_true, if_false]
  exact isFinite_ofRatio _ (Nat.two_pow_pos _) bound

theorem magnitude_ofDecimal_le (negative : Bool) (digits : Nat) (exponent : Int) :
    (ofDecimal negative digits exponent : Binary precision).magnitude ≤ precision.infinity := by
  have rounded : ∀ numerator denominator : Nat,
      (ofRatio negative numerator denominator : Binary precision).magnitude ≤
        precision.infinity := by
    intro numerator denominator
    rw [magnitude_ofRatio]
    exact Nat.min_le_right _ _
  unfold ofDecimal
  dsimp only
  split
  · rw [magnitude_ofMagnitude negative (Nat.two_pow_pos _)]
    exact Nat.zero_le _
  · split
    · exact Nat.le_of_eq (magnitude_ofMagnitude negative precision.infinity_lt_signBit)
    · cases exponent with
      | ofNat power => exact rounded _ _
      | negSucc power => exact rounded _ _

end Binary

/-! ## Numbers in documents -/

namespace Json.Number

variable {precision : Precision}

theorem magnitude_round_le (spelling : Decimal.Spelling) :
    (round precision spelling).magnitude ≤ precision.infinity := by
  unfold round
  dsimp only
  split <;> exact Binary.magnitude_ofDecimal_le _ _ _

theorem isFinite_ofWhole {negated : Bool} {value : Nat} {number : Number precision}
    (kept : ofWhole precision negated value = some number) : number.toBinary.isFinite := by
  have modulus : Word.modulus = 2 ^ 64 := rfl
  unfold ofWhole at kept
  split at kept
  · cases kept
  · rename_i word
    have word := Nat.lt_of_not_le word
    split at kept
    · cases kept
      exact Binary.isFinite_ofRatio false Nat.one_pos (by omega)
    · split at kept
      · cases kept
        exact Binary.isFinite_ofMagnitude_zero true
      · split at kept
        · cases kept
          exact Binary.isFinite_ofRatio true Nat.one_pos (by omega)
        · -- The number is rounded twice, to double precision first.
          cases kept
          exact Binary.isFinite_convert (Binary.isFinite_ofRatio true Nat.one_pos (by omega))
            (Binary.units_ofRatio_word_lt true word)

/-- A number that is read from a document is finite. -/
theorem isFinite_ofSpelling {spelling : Decimal.Spelling} {number : Number precision}
    (read : ofSpelling precision spelling = .ok number) : number.toBinary.isFinite := by
  unfold ofSpelling at read
  dsimp only at read
  split at read
  · rename_i kept found
    cases read
    split at found
    · exact isFinite_ofWhole found
    · cases found
  · split at read
    · cases read
    · rename_i finite
      cases read
      exact Binary.isFinite_of_magnitude_le (magnitude_round_le spelling)
        (Bool.eq_false_iff.mpr finite)

end Json.Number

end HalfMatrix
