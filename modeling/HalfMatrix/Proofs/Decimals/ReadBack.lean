import HalfMatrix.Json.Number
import HalfMatrix.Proofs.Decimals.Rounding

/-!
# Shortest decimals read back

Whatever decimal `shortest` finds for a finite number rounds to that number
again: what it finds on a grid has been tried, and else it takes the exact
value.  The digits are so few that a reader of documents reads all of them.
-/

set_option autoImplicit false

namespace HalfMatrix

namespace Binary

variable {precision : Precision}

theorem exists_significand {number : Binary precision} (finite : number.isFinite) :
    ∃ significand scale, number.units = significand * 2 ^ scale ∧
      significand < 2 ^ precision.significantBits ∧ scale < 2 ^ precision.exponentBits := by
  simp only [isFinite, decide_eq_true_eq] at finite
  refine ⟨number.magnitude - scaleOf precision number.magnitude * precision.binade,
    scaleOf precision number.magnitude, rfl, ?_, ?_⟩
  · rw [precision.two_binades]
    by_cases within : number.magnitude < 2 * precision.binade
    · rw [scaleOf_eq_zero within]
      omega
    · exact (significand_bounds (Nat.le_of_not_lt within)).2.1
  · have quotient : number.magnitude / precision.binade < 2 ^ precision.exponentBits - 1 :=
      (Nat.div_lt_iff_lt_mul precision.binade_pos).mpr finite
    have some : 0 < 2 ^ precision.exponentBits := Nat.two_pow_pos _
    simp only [scaleOf]
    omega

theorem units_pos {number : Binary precision} (nonzero : number.magnitude ≠ 0) :
    0 < number.units := by
  have positive := precision.binade_pos
  apply Nat.mul_pos _ (Nat.two_pow_pos _)
  by_cases within : number.magnitude < 2 * precision.binade
  · rw [scaleOf_eq_zero within]
    omega
  · exact Nat.lt_of_lt_of_le positive (significand_bounds (Nat.le_of_not_lt within)).1

end Binary

namespace Decimal

variable {precision : Precision} {number : Binary precision}

/-! ## Stripping zeros -/

theorem toBinary_stripped (negative : Bool) (decimal : Decimal) :
    (decimal.stripped.toBinary negative : Binary precision) = decimal.toBinary negative := by
  fun_induction stripped decimal with
  | case1 decimal divisible ih =>
      have split : decimal.digits / 10 * 10 ^ 1 = decimal.digits := by omega
      have shift : decimal.exponent + 1 - (1 : Nat) = decimal.exponent := by omega
      have shorter : decimal.digits / 10 ≠ 0 := by omega
      rw [ih]
      have same : (Binary.ofDecimal negative (decimal.digits / 10 * 10 ^ 1)
          (decimal.exponent + 1 - (1 : Nat)) : Binary precision) = _ :=
        Binary.ofDecimal_shift negative shorter (decimal.exponent + 1) 1
      rw [split, shift] at same
      exact same.symm
  | case2 => rfl

theorem stripped_digits_le (decimal : Decimal) : decimal.stripped.digits ≤ decimal.digits := by
  fun_induction stripped decimal with
  | case1 decimal divisible ih =>
      simp only at ih
      omega
  | case2 => exact Nat.le_refl _

/-- No zero that a power of ten brings in is kept. -/
theorem stripped_mul_pow_le (digits zeros : Nat) (exponent : Int) :
    (stripped ⟨digits * 10 ^ zeros, exponent⟩).digits ≤ digits := by
  induction zeros generalizing exponent with
  | zero =>
      rw [Nat.pow_zero, Nat.mul_one]
      exact stripped_digits_le ⟨digits, exponent⟩
  | succ zeros ih =>
      by_cases nonzero : digits * 10 ^ (zeros + 1) = 0
      · rw [nonzero, stripped, if_neg (by simp)]
        exact Nat.zero_le _
      · have tenfold : digits * 10 ^ (zeros + 1) = digits * 10 ^ zeros * 10 := by
          rw [Nat.pow_succ, Nat.mul_assoc]
        have divisible : digits * 10 ^ (zeros + 1) % 10 = 0 := by omega
        have quotient : digits * 10 ^ (zeros + 1) / 10 = digits * 10 ^ zeros := by omega
        rw [stripped, if_pos ⟨nonzero, divisible⟩, quotient]
        exact ih (exponent + 1)

/-! ## Candidates on a grid -/

theorem scaled_eq (number : Binary precision) (exponent : Int) :
    scaled number exponent =
      (number.units * 10 ^ (-exponent).toNat,
        2 ^ precision.unitExponent * 10 ^ exponent.toNat) := by
  cases exponent with
  | ofNat power =>
      have none : (-Int.ofNat power).toNat = 0 := by simp
      rw [none, Nat.pow_zero, Nat.mul_one]
      rfl
  | negSucc power =>
      simp only [Int.toNat_negSucc, Int.neg_negSucc, Nat.pow_zero, Nat.mul_one]
      rfl

theorem units_lt_leading (nonzero : number.magnitude ≠ 0) :
    number.units * 10 ^ (-(leading number + 1)).toNat <
      2 ^ precision.unitExponent * 10 ^ (leading number + 1).toNat := by
  have positive := Binary.units_pos nonzero
  have unitPositive : 0 < 2 ^ precision.unitExponent := Nat.two_pow_pos _
  by_cases large : 2 ^ precision.unitExponent ≤ number.units
  · have leadingEq : leading number + 1 =
        (Nat.toDigits 10 (number.units / 2 ^ precision.unitExponent)).length := by
      simp only [leading, Nat.pow_eq, if_pos large]
      omega
    have below := (Nat.length_toDigits_le_iff (b := 10) (by decide)
      Nat.length_toDigits_pos).mp (Nat.le_refl
        (Nat.toDigits 10 (number.units / 2 ^ precision.unitExponent)).length)
    rw [leadingEq, Int.toNat_natCast, Int.toNat_neg_natCast, Nat.pow_zero, Nat.mul_one]
    rw [Nat.mul_comm]
    exact (Nat.div_lt_iff_lt_mul unitPositive).mp below
  · generalize quotient : (2 ^ precision.unitExponent - 1) / number.units = inverse
    have atLeastOne : 0 < (Nat.toDigits 10 inverse).length := Nat.length_toDigits_pos
    have inversePositive : 0 < inverse := by
      rw [← quotient]
      exact Nat.div_pos (by omega) positive
    obtain ⟨length, lengthEq⟩ : ∃ length, (Nat.toDigits 10 inverse).length = length + 1 :=
      ⟨(Nat.toDigits 10 inverse).length - 1, by omega⟩
    have leadingEq : leading number + 1 = -(length : Int) := by
      simp only [leading, Nat.pow_eq, if_neg large, quotient, lengthEq]
      omega
    have least := ((Binary.length_toDigits_eq_iff inversePositive).mp lengthEq).1
    rw [leadingEq, Int.neg_neg, Int.toNat_natCast, Int.toNat_neg_natCast, Nat.pow_zero,
      Nat.mul_one]
    have product : 10 ^ length * number.units ≤ 2 ^ precision.unitExponent - 1 :=
      (Nat.le_div_iff_mul_le positive).mp (quotient ▸ least)
    rw [Nat.mul_comm]
    omega

/-- On the grid that goes `further` digits beyond the leading one, a number
stands below a multiple of so many digits. -/
theorem below_lt_pow (nonzero : number.magnitude ≠ 0) (further : Nat) :
    (scaled number (leading number - further)).1 / (scaled number (leading number - further)).2 <
      10 ^ (further + 1) := by
  have unitPositive : 0 < 2 ^ precision.unitExponent := Nat.two_pow_pos _
  have bound := units_lt_leading nonzero
  generalize leading number = first at bound ⊢
  simp only [scaled_eq]
  apply (Nat.div_lt_iff_lt_mul (Nat.mul_pos unitPositive (Nat.pow_pos (by decide)))).mpr
  apply Nat.lt_of_mul_lt_mul_right (a := 10 ^ (-(first + 1)).toNat)
  have exponents : further + 1 + (first - further).toNat + (-(first + 1)).toNat =
      (first + 1).toNat + (-(first - further)).toNat := by omega
  calc number.units * 10 ^ (-(first - further)).toNat * 10 ^ (-(first + 1)).toNat
      = number.units * 10 ^ (-(first + 1)).toNat * 10 ^ (-(first - further)).toNat :=
        Nat.mul_right_comm _ _ _
    _ < 2 ^ precision.unitExponent * 10 ^ (first + 1).toNat * 10 ^ (-(first - further)).toNat :=
        Nat.mul_lt_mul_of_pos_right bound (Nat.pow_pos (by decide))
    _ = 10 ^ (further + 1) * (2 ^ precision.unitExponent * 10 ^ (first - further).toNat) *
          10 ^ (-(first + 1)).toNat := by
        rw [Nat.mul_assoc, ← Nat.pow_add, ← exponents, Nat.mul_left_comm (10 ^ (further + 1)),
          ← Nat.pow_add, Nat.mul_assoc, ← Nat.pow_add]

theorem onGrid?_spec {tie : Tie} {exponent : Int} {decimal : Decimal}
    (found : onGrid? tie number exponent = some decimal) :
    decimal.toBinary number.isNegative = number ∧
      decimal.digits ≤ (scaled number exponent).1 / (scaled number exponent).2 + 1 := by
  simp only [onGrid?] at found
  split at found
  · rename_i below above
    simp only [decide_eq_true_eq] at below above
    cases found
    simp only
    split
    · exact ⟨below, Nat.le_succ _⟩
    · exact ⟨above, Nat.le_refl _⟩
  · rename_i below _
    cases found
    exact ⟨of_decide_eq_true below, Nat.le_succ _⟩
  · rename_i above
    cases found
    exact ⟨of_decide_eq_true above, Nat.le_refl _⟩
  · cases found

/-! ## The exact value -/

theorem exact_digits_bounds (finite : number.isFinite) (nonzero : number.magnitude ≠ 0) :
    10 ^ (precision.unitExponent - 400) ≤ (exact number).digits ∧
      (exact number).digits < 10 ^ (precision.unitExponent + 400) := by
  obtain ⟨significand, scale, units, significandBound, scaleBound⟩ :=
    Binary.exists_significand finite
  constructor
  · apply Nat.le_trans _ (Nat.le_mul_of_pos_left _ (Binary.units_pos nonzero))
    cases precision <;> decide +kernel
  · have scalePower : 2 ^ scale ≤ 2 ^ 2 ^ precision.exponentBits :=
      Nat.pow_le_pow_right (by decide) (Nat.le_of_lt scaleBound)
    have product : number.units ≤
        2 ^ precision.significantBits * 2 ^ 2 ^ precision.exponentBits :=
      units ▸ Nat.mul_le_mul (Nat.le_of_lt significandBound) scalePower
    apply Nat.lt_of_le_of_lt (Nat.mul_le_mul_right _ product)
    cases precision <;> decide +kernel

/-- The exact value of a number is neither too large nor too small to be
rounded. -/
theorem exact_in_reach (finite : number.isFinite) (nonzero : number.magnitude ≠ 0) :
    -Binary.decimalReach ≤
        (Nat.toDigits 10 (exact number).digits).length + (exact number).exponent ∧
      (Nat.toDigits 10 (exact number).digits).length + (exact number).exponent ≤
        Binary.decimalReach := by
  obtain ⟨least, most⟩ := exact_digits_bounds finite nonzero
  have exponent : (exact number).exponent = -precision.unitExponent := rfl
  have lengthMost := (Nat.length_toDigits_le_iff (b := 10) (by decide) (by omega)).mpr most
  have lengthLeast : precision.unitExponent - 400 ≤
      (Nat.toDigits 10 (exact number).digits).length := by
    apply Nat.le_of_not_lt
    intro short
    have below := (Nat.length_toDigits_le_iff (b := 10) (by decide) (by omega)).mp
      (Nat.le_of_lt short)
    omega
  simp only [Binary.decimalReach, exponent]
  omega

theorem toBinary_exact (finite : number.isFinite) (nonzero : number.magnitude ≠ 0) :
    (exact number).toBinary number.isNegative = number := by
  obtain ⟨least, most⟩ := exact_in_reach finite nonzero
  have digitsPositive : (exact number).digits ≠ 0 :=
    Nat.ne_of_gt (Nat.mul_pos (Binary.units_pos nonzero) (Nat.pow_pos (by decide)))
  have exponent : (exact number).exponent = -precision.unitExponent := rfl
  have digits : (exact number).digits = number.units * 5 ^ precision.unitExponent := rfl
  rw [toBinary, Binary.ofDecimal_eq_ofRatio digitsPositive least most]
  apply Binary.ofRatio_eq_self finite (Nat.pow_pos (by decide))
  rw [exponent, digits, Int.toNat_neg_natCast, Int.neg_neg, Int.toNat_natCast, Nat.pow_zero,
    Nat.mul_one, Nat.mul_assoc, Nat.pow_eq, ← Nat.mul_pow, Nat.mul_comm]

/-- Of the twos of the scale and the fives of the unit, as many as there are of
both are zeros at the end of the exact value. -/
theorem exact_digits_eq (finite : number.isFinite) :
    ∃ significand rest zeros, (exact number).digits = significand * rest * 10 ^ zeros ∧
      significand < 2 ^ precision.significantBits ∧ rest ≤ 5 ^ precision.unitExponent := by
  obtain ⟨significand, scale, units, significandBound, scaleBound⟩ :=
    Binary.exists_significand finite
  have scaleLimit : 2 ^ precision.exponentBits ≤ 2 * precision.unitExponent := by
    cases precision <;> decide
  have digits : (exact number).digits = number.units * 5 ^ precision.unitExponent := rfl
  by_cases small : scale ≤ precision.unitExponent
  · obtain ⟨more, unitEq⟩ := Nat.exists_eq_add_of_le small
    refine ⟨significand, 5 ^ more, scale, ?_, significandBound, ?_⟩
    · rw [digits, units, unitEq, Nat.pow_add, show 10 = 2 * 5 from rfl, Nat.mul_pow]
      simp only [Nat.mul_assoc, Nat.mul_left_comm, Nat.mul_comm]
    · exact Nat.pow_le_pow_right (by decide) (by omega)
  · obtain ⟨more, scaleEq⟩ := Nat.exists_eq_add_of_le (Nat.le_of_not_le small)
    refine ⟨significand, 2 ^ more, precision.unitExponent, ?_, significandBound, ?_⟩
    · rw [digits, units, scaleEq, Nat.pow_add, show 10 = 2 * 5 from rfl, Nat.mul_pow]
      simp only [Nat.mul_assoc, Nat.mul_left_comm]
    · exact Nat.le_trans (Nat.pow_le_pow_left (by decide) more)
        (Nat.pow_le_pow_right (by decide) (by omega))

theorem stripped_exact_lt (finite : number.isFinite) :
    (exact number).stripped.digits < 10 ^ Json.Number.digitsRead precision := by
  obtain ⟨significand, rest, zeros, digits, significandBound, restBound⟩ := exact_digits_eq finite
  have value : exact number = ⟨significand * rest * 10 ^ zeros, (exact number).exponent⟩ := by
    rw [← digits]
  have most : significand * 5 ^ precision.unitExponent < 10 ^ Json.Number.digitsRead precision := by
    apply Nat.lt_trans (Nat.mul_lt_mul_of_pos_right significandBound (Nat.pow_pos (by decide)))
    cases precision <;> decide +kernel
  calc (exact number).stripped.digits
      ≤ significand * rest := by
        rw [value]
        exact stripped_mul_pow_le _ _ _
    _ ≤ significand * 5 ^ precision.unitExponent := Nat.mul_le_mul_left _ restBound
    _ < 10 ^ Json.Number.digitsRead precision := most

/-! ## The shortest decimal -/

theorem shortest_cases (tie : Tie) (number : Binary precision) :
    shortest tie number = (exact number).stripped ∨
      ∃ further decimal, further < enoughDigits precision ∧
        onGrid? tie number (leading number - (further : Nat)) = some decimal ∧
          shortest tie number = decimal.stripped := by
  simp only [shortest]
  cases found : (List.range (enoughDigits precision)).findSome? fun (further : Nat) =>
      onGrid? tie number (leading number - further) with
  | none => exact .inl rfl
  | some decimal =>
      obtain ⟨further, inRange, candidate⟩ := List.exists_of_findSome?_eq_some found
      exact .inr ⟨further, decimal, List.mem_range.mp inRange, candidate, rfl⟩

/-- The shortest decimal of a finite number reads back as that number. -/
theorem toBinary_shortest (tie : Tie) (finite : number.isFinite)
    (nonzero : number.magnitude ≠ 0) :
    (shortest tie number).toBinary number.isNegative = number := by
  obtain exactly | ⟨further, decimal, _, found, shortestEq⟩ := shortest_cases tie number
  · rw [exactly, toBinary_stripped, toBinary_exact finite nonzero]
  · rw [shortestEq, toBinary_stripped, (onGrid?_spec found).1]

theorem shortest_digits_lt (tie : Tie) (finite : number.isFinite)
    (nonzero : number.magnitude ≠ 0) :
    (shortest tie number).digits < 10 ^ Json.Number.digitsRead precision := by
  obtain exactly | ⟨further, decimal, few, found, shortestEq⟩ := shortest_cases tie number
  · rw [exactly]
    exact stripped_exact_lt finite
  · rw [shortestEq]
    have below := below_lt_pow nonzero further
    have candidate := (onGrid?_spec found).2
    have enough : 10 ^ (further + 1) ≤ 10 ^ enoughDigits precision :=
      Nat.pow_le_pow_right (by decide) few
    have room : 10 ^ enoughDigits precision < 10 ^ Json.Number.digitsRead precision := by
      cases precision <;> decide +kernel
    have stripped := stripped_digits_le decimal
    omega

theorem shortest_digits_ne_zero (tie : Tie) (finite : number.isFinite)
    (nonzero : number.magnitude ≠ 0) : (shortest tie number).digits ≠ 0 := by
  intro zero
  have back := toBinary_shortest tie finite nonzero
  simp only [toBinary, zero, Binary.ofDecimal, true_or, if_true] at back
  apply nonzero
  rw [← back]
  exact Binary.magnitude_ofMagnitude _ (Nat.lt_of_le_of_lt (Nat.zero_le _)
    precision.infinity_lt_signBit)

end Decimal

end HalfMatrix
