import HalfMatrix.Decimal.Fixed
import HalfMatrix.Proofs.Decimals.Spellings
import HalfMatrix.Proofs.Decimals.Values
import Mathlib.Algebra.Group.Nat.Even
import Mathlib.Algebra.Order.Field.Basic
import Mathlib.Data.List.Induction

/-!
# Numbers with fixed decimal places

A number with fixed places is the plain spelling, with its sign, of the whole
number nearest to its exact value times a power of ten.  `isFixed_iff` says
that this is what `Decimal.fixed` writes and nothing else: there is one nearest
whole number, the middle between two being rounded to the even one, and it has
one plain spelling with so many places.
-/

set_option autoImplicit false

namespace HalfMatrix

/-! ## The nearest whole number -/

namespace Rounding

/-- The whole number is nearest to the exact one, and even if another is as near. -/
def NearestEven (exact : ℚ) (whole : Nat) : Prop :=
  |exact - whole| ≤ 1 / 2 ∧ (|exact - whole| = 1 / 2 → Even whole)

theorem nearestEven_nearest (numerator : Nat) {denominator : Nat} (positive : 0 < denominator) :
    NearestEven (numerator / denominator) (nearest numerator denominator) := by
  have parts : (denominator * (numerator / denominator : Nat) +
      (numerator % denominator : Nat) : ℚ) = numerator :=
    mod_cast Nat.div_add_mod numerator denominator
  have positive' : (0 : ℚ) < denominator := mod_cast positive
  have exact : (numerator / denominator : ℚ) =
      (numerator / denominator : Nat) + (numerator % denominator : Nat) / denominator := by
    rw [← parts]
    field_simp
  have below : ((numerator % denominator : Nat) / denominator : ℚ) < 1 :=
    (div_lt_one positive').mpr (mod_cast Nat.mod_lt numerator positive)
  have nonneg : (0 : ℚ) ≤ (numerator % denominator : Nat) / denominator :=
    div_nonneg (Nat.cast_nonneg _) positive'.le
  have lower : ((numerator % denominator : Nat) / denominator : ℚ) < 1 / 2 ↔
      2 * (numerator % denominator) < denominator := by
    rw [div_lt_div_iff₀ positive' two_pos, mul_comm _ (2 : ℚ), one_mul]
    norm_cast
  have middle : ((numerator % denominator : Nat) / denominator : ℚ) = 1 / 2 ↔
      2 * (numerator % denominator) = denominator := by
    rw [div_eq_div_iff positive'.ne' two_ne_zero, mul_comm _ (2 : ℚ), one_mul]
    norm_cast
  rw [NearestEven, exact, nearest]
  generalize ((numerator % denominator : Nat) / denominator : ℚ) = part at *
  split
  · rename_i down
    rw [add_sub_cancel_left, abs_of_nonneg nonneg]
    constructor
    · rcases down with down | ⟨tie, _⟩
      · exact (lower.mpr down).le
      · exact (middle.mpr tie).le
    · intro tie
      have tied := middle.mp tie
      rcases down with down | ⟨_, even⟩
      · exact absurd tied (Nat.ne_of_lt down)
      · exact Nat.even_iff.mpr even
  · rename_i up
    have distance : |((numerator / denominator : Nat) + part -
        (numerator / denominator + 1 : Nat) : ℚ)| = 1 - part := by
      rw [Nat.cast_add, Nat.cast_one, add_sub_add_left_eq_sub, abs_sub_comm,
        abs_of_nonneg (by linarith)]
    rw [distance]
    constructor
    · have least := not_lt.mp (lower.not.mpr fun down => up (Or.inl down))
      linarith
    · intro tie
      have tied := middle.mp (by linarith)
      have odd : ¬ Even (numerator / denominator) :=
        fun even => up (Or.inr ⟨tied, Nat.even_iff.mp even⟩)
      exact Nat.even_add_one.mpr odd

theorem NearestEven.unique {exact : ℚ} {whole other : Nat} (nearest : NearestEven exact whole)
    (nearest' : NearestEven exact other) : whole = other := by
  wlog less : whole < other
  · rcases Nat.lt_or_ge other whole with more | same
    · exact (this nearest' nearest more).symm
    · exact Nat.le_antisymm same (Nat.le_of_not_lt less)
  -- Both are half a step away, the one below and the other above.
  have step : (whole : ℚ) + 1 ≤ other := mod_cast less
  have below := abs_le.mp nearest.1
  have above := abs_le.mp nearest'.1
  have tie : exact - whole = 1 / 2 := by linarith
  have tie' : exact - other = -(1 / 2) := by linarith
  have even : Even whole := nearest.2 (by rw [tie]; norm_num)
  have even' : Even other := nearest'.2 (by rw [tie']; norm_num)
  have next : other = whole + 1 := by
    have same : (other : ℚ) = (whole + 1 : Nat) := by
      rw [Nat.cast_add, Nat.cast_one]
      linarith
    exact mod_cast same
  rw [next] at even'
  exact absurd even (Nat.even_add_one.mp even')

end Rounding

namespace Decimal

/-! ## Digits and their value -/

theorem exists_digitChar {char : Char} (isDigit : char.isDigit) :
    ∃ digit < 10, char = Nat.digitChar digit := by
  rw [Char.isDigit_iff_toNat] at isDigit
  obtain ⟨least, most⟩ : 48 ≤ char.toNat ∧ char.toNat ≤ 57 := isDigit
  refine ⟨char.toNat - 48, by omega, ?_⟩
  apply Char.toNat_inj.mp
  rw [Nat.toNat_digitChar_of_lt_ten (by omega)]
  omega

theorem ofDigitChars_concat (front : List Char) {digit : Nat} (single : digit < 10) :
    Nat.ofDigitChars 10 (front ++ [Nat.digitChar digit]) 0 =
      10 * Nat.ofDigitChars 10 front 0 + digit := by
  rw [Nat.ofDigitChars_append, Nat.ofDigitChars_cons_digitChar_of_lt_ten single,
    Nat.ofDigitChars_nil]

theorem toDigits_ofDigitChars {chars : List Char} (nonempty : chars ≠ [])
    (isDigit : ∀ char ∈ chars, char.isDigit)
    (noNeedlessZero : chars.head? = some '0' → chars.length ≤ 1) :
    Nat.toDigits 10 (Nat.ofDigitChars 10 chars 0) = chars := by
  induction chars using List.reverseRecOn with
  | nil => exact absurd rfl nonempty
  | append_singleton front last ih =>
      obtain ⟨digit, single, rfl⟩ := exists_digitChar (isDigit last (by simp))
      rw [ofDigitChars_concat front single]
      by_cases alone : front = []
      · rw [alone, Nat.ofDigitChars_nil, Nat.mul_zero, Nat.zero_add,
          Nat.toDigits_of_lt_base single, List.nil_append]
      · have noZero : front.head? ≠ some '0' := by
          intro zero
          have short := noNeedlessZero (by rw [List.head?_append_of_ne_nil _ alone, zero])
          rw [List.length_append, List.length_singleton] at short
          exact alone (List.eq_nil_of_length_eq_zero (by omega))
        have before := ih alone (fun char mem => isDigit char (List.mem_append_left _ mem))
          fun zero => absurd zero noZero
        have positive : Nat.ofDigitChars 10 front 0 ≠ 0 := by
          intro zero
          rw [zero] at before
          exact noZero (before ▸ rfl)
        rw [Nat.toDigits_eq_if (by decide), if_neg (by omega),
          show (10 * Nat.ofDigitChars 10 front 0 + digit) / 10 = Nat.ofDigitChars 10 front 0 by omega,
          show (10 * Nat.ofDigitChars 10 front 0 + digit) % 10 = digit by omega, before]

theorem ofDigitChars_lt {chars : List Char} (isDigit : ∀ char ∈ chars, char.isDigit) :
    Nat.ofDigitChars 10 chars 0 < 10 ^ chars.length := by
  induction chars using List.reverseRecOn with
  | nil => exact Nat.one_pos
  | append_singleton front last ih =>
      obtain ⟨digit, single, rfl⟩ := exists_digitChar (isDigit last (by simp))
      have before := ih fun char mem => isDigit char (List.mem_append_left _ mem)
      rw [ofDigitChars_concat front single, List.length_append, List.length_singleton, Nat.pow_succ]
      omega

theorem eq_of_ofDigitChars_eq {left right : List Char} (isDigit : ∀ char ∈ left, char.isDigit)
    (isDigit' : ∀ char ∈ right, char.isDigit) (length : left.length = right.length)
    (value : Nat.ofDigitChars 10 left 0 = Nat.ofDigitChars 10 right 0) : left = right := by
  -- A one in front makes zeros at the beginning count.
  have same : Nat.ofDigitChars 10 ('1' :: left) 0 = Nat.ofDigitChars 10 ('1' :: right) 0 := by
    rw [Nat.ofDigitChars_cons, Nat.ofDigitChars_cons, Nat.ofDigitChars_eq_ofDigitChars_zero,
      Nat.ofDigitChars_eq_ofDigitChars_zero (l := right), length, value]
  have digits : ∀ chars : List Char, (∀ char ∈ chars, char.isDigit) →
      Nat.toDigits 10 (Nat.ofDigitChars 10 ('1' :: chars) 0) = '1' :: chars := by
    intro chars isDigit
    refine toDigits_ofDigitChars (List.cons_ne_nil _ _) ?_ fun zero => ?_
    · exact List.forall_mem_cons.mpr ⟨rfl, isDigit⟩
    · cases zero
  have both := congrArg (Nat.toDigits 10) same
  rw [digits left isDigit, digits right isDigit'] at both
  exact (List.cons.inj both).2

/-! ## Plain spellings -/

theorem Spelling.WellFormed.toDigits_whole {spelling : Spelling}
    (wellFormed : spelling.WellFormed) :
    Nat.toDigits 10 (Nat.ofDigitChars 10 spelling.whole 0) = spelling.whole :=
  toDigits_ofDigitChars wellFormed.whole_ne_nil wellFormed.whole_isDigit wellFormed.noNeedlessZero

structure Spelling.Plain (count : Nat) (spelling : Spelling) : Prop where
  wellFormed : spelling.WellFormed
  power : spelling.power = none
  places : spelling.places.length = count

theorem Spelling.Plain.digits_eq {count : Nat} {spelling : Spelling}
    (plain : spelling.Plain count) :
    spelling.digits = 10 ^ count * Nat.ofDigitChars 10 spelling.whole 0 +
      Nat.ofDigitChars 10 spelling.places 0 := by
  rw [Spelling.digits, Nat.ofDigitChars_append, Nat.ofDigitChars_eq_ofDigitChars_zero,
    plain.places]

theorem Spelling.Plain.unique {count : Nat} {left right : Spelling} (plain : left.Plain count)
    (plain' : right.Plain count) (negative : left.negative = right.negative)
    (digits : left.digits = right.digits) : left = right := by
  have small := ofDigitChars_lt plain.wellFormed.places_isDigit
  have small' := ofDigitChars_lt plain'.wellFormed.places_isDigit
  rw [plain.places] at small
  rw [plain'.places] at small'
  rw [plain.digits_eq, plain'.digits_eq] at digits
  have value := congrArg (· / 10 ^ count) digits
  have rest := congrArg (· % 10 ^ count) digits
  have power : 0 < 10 ^ count := Nat.pow_pos (by decide)
  simp only [Nat.mul_add_div power, Nat.div_eq_of_lt small, Nat.div_eq_of_lt small',
    Nat.add_zero] at value
  simp only [Nat.mul_add_mod, Nat.mod_eq_of_lt small, Nat.mod_eq_of_lt small'] at rest
  have whole : left.whole = right.whole := by
    rw [← plain.wellFormed.toDigits_whole, value, plain'.wellFormed.toDigits_whole]
  have places : left.places = right.places :=
    eq_of_ofDigitChars_eq plain.wellFormed.places_isDigit plain'.wellFormed.places_isDigit
      (plain.places.trans plain'.places.symm) rest
  have power : left.power = right.power := plain.power.trans plain'.power.symm
  cases left
  cases right
  rw [Spelling.mk.injEq]
  exact ⟨negative, whole, places, power⟩

theorem length_paddedDigits {count value : Nat} (positive : 0 < count) (small : value < 10 ^ count) :
    (paddedDigits count value).length = count := by
  have few := (Nat.length_toDigits_le_iff (by decide) positive).mpr small
  simp only [paddedDigits, List.length_append, List.length_replicate]
  omega

theorem ofDigitChars_paddedDigits (count value : Nat) :
    Nat.ofDigitChars 10 (paddedDigits count value) 0 = value := by
  rw [paddedDigits, Nat.ofDigitChars_append, Nat.ofDigitChars_replicate_zero, Nat.mul_zero,
    Nat.ofDigitChars_ten_toDigits]

theorem isDigit_of_mem_paddedDigits (count value : Nat) :
    ∀ char ∈ paddedDigits count value, char.isDigit := by
  intro char mem
  rcases List.mem_append.mp mem with mem | mem
  · exact isDigit_of_mem_zeros char mem
  · exact isDigit_of_mem_toDigits value char mem

def Spelling.ofScaled (negative : Bool) (count value : Nat) : Spelling where
  negative := negative
  whole := Nat.toDigits 10 (value / 10 ^ count)
  places := if count = 0 then [] else paddedDigits count (value % 10 ^ count)
  power := none

theorem Spelling.plain_ofScaled (negative : Bool) (count value : Nat) :
    (Spelling.ofScaled negative count value).Plain count := by
  have whole := Spelling.wellFormed_ofNat (value / 10 ^ count)
  refine ⟨⟨whole.whole_ne_nil, whole.whole_isDigit, whole.noNeedlessZero, ?_, ?_, ?_⟩, rfl, ?_⟩
  · intro char mem
    simp only [ofScaled] at mem
    split at mem
    · exact (List.not_mem_nil mem).elim
    · exact isDigit_of_mem_paddedDigits _ _ char mem
  · intro power none
    cases none
  · intro power none
    cases none
  · simp only [ofScaled]
    split
    · rename_i none
      exact none.symm
    · rename_i some
      exact length_paddedDigits (Nat.pos_of_ne_zero some) (Nat.mod_lt _ (Nat.pow_pos (by decide)))

theorem Spelling.digits_ofScaled (negative : Bool) (count value : Nat) :
    (Spelling.ofScaled negative count value).digits = value := by
  have places : Nat.ofDigitChars 10 (Spelling.ofScaled negative count value).places 0 =
      value % 10 ^ count := by
    simp only [ofScaled]
    split
    · rename_i none
      rw [none, Nat.pow_zero, Nat.mod_one, Nat.ofDigitChars_nil]
    · exact ofDigitChars_paddedDigits _ _
  rw [(Spelling.plain_ofScaled negative count value).digits_eq, places, ofScaled,
    Nat.ofDigitChars_ten_toDigits]
  exact Nat.div_add_mod value (10 ^ count)

theorem Spelling.text_ofScaled (negative : Bool) (count value : Nat) :
    (Spelling.ofScaled negative count value).text = sign negative ++ pointed count value := by
  by_cases none : count = 0
  · simp [Spelling.text, ofScaled, pointed, sign, none]
  · have some : paddedDigits count (value % 10 ^ count) ≠ [] := by
      intro empty
      have length := length_paddedDigits (Nat.pos_of_ne_zero none)
        (Nat.mod_lt value (Nat.pow_pos (n := count) (show 0 < 10 by decide)))
      rw [empty] at length
      exact none length.symm
    simp [Spelling.text, ofScaled, pointed, sign, none, some]

/-! ## What is written for a number -/

/-- What is written for a number with so many places: its exact value rounded
to them, the half to the even neighbour, in plain notation with the sign of the
number, or a word without places. -/
inductive IsFixed {precision : Precision} (count : Nat) (number : Binary precision) :
    List Char → Prop where
  | nan (top : number.exponentField = precision.topField) (fraction : number.fractionField ≠ 0) :
      IsFixed count number ['N', 'a', 'N']
  | infinite (top : number.exponentField = precision.topField)
      (fraction : number.fractionField = 0) :
      IsFixed count number (sign number.isNegative ++ ['i', 'n', 'f'])
  | finite {spelling : Spelling} (below : number.exponentField ≠ precision.topField)
      (plain : spelling.Plain count) (negative : spelling.negative = number.isNegative)
      (rounded : Rounding.NearestEven (|number.value| * 10 ^ count) spelling.digits) :
      IsFixed count number spelling.text

theorem nearestEven_units {precision : Precision} (count : Nat) (number : Binary precision) :
    Rounding.NearestEven (|number.value| * 10 ^ count)
      (Rounding.nearest (number.units * Nat.pow 10 count)
        (Nat.pow 2 precision.unitExponent)) := by
  have exact : |number.value| * 10 ^ count =
      ((number.units * Nat.pow 10 count : Nat) : ℚ) / (Nat.pow 2 precision.unitExponent : Nat) := by
    rw [Binary.abs_value, Nat.pow_eq, Nat.pow_eq, Nat.cast_mul, Nat.cast_pow, Nat.cast_pow,
      div_mul_eq_mul_div]
    rfl
  rw [exact]
  exact Rounding.nearestEven_nearest _ (Nat.two_pow_pos _)

theorem fixed_of_isNaN {precision : Precision} {number : Binary precision} (count : Nat)
    (nan : number.isNaN = true) : fixed count number = ['N', 'a', 'N'] :=
  if_pos nan

theorem fixed_of_isInfinite {precision : Precision} {number : Binary precision} (count : Nat)
    (infinite : number.isInfinite = true) :
    fixed count number = sign number.isNegative ++ ['i', 'n', 'f'] := by
  have number : number.isNaN = false := by
    simp only [Binary.isInfinite, decide_eq_true_eq] at infinite
    simp [Binary.isNaN, infinite]
  simp only [fixed, number, infinite, Bool.false_eq_true, if_false, if_true]
  rfl

theorem fixed_of_isFinite {precision : Precision} {number : Binary precision} (count : Nat)
    (finite : number.isFinite = true) :
    fixed count number = (Spelling.ofScaled number.isNegative count
      (Rounding.nearest (number.units * Nat.pow 10 count)
        (Nat.pow 2 precision.unitExponent))).text := by
  have number' : number.isNaN = false := by
    simp only [Binary.isFinite, decide_eq_true_eq] at finite
    simp only [Binary.isNaN, decide_eq_false_iff_not]
    omega
  simp only [fixed, number', Binary.not_isInfinite_of_isFinite finite, Bool.false_eq_true,
    if_false, Spelling.text_ofScaled]

theorem isFixed_fixed {precision : Precision} (count : Nat) (number : Binary precision) :
    IsFixed count number (fixed count number) := by
  by_cases finite : number.isFinite = true
  · rw [fixed_of_isFinite count finite]
    refine .finite ((Binary.isFinite_iff_fields number).mp finite)
      (Spelling.plain_ofScaled _ count _) rfl ?_
    rw [Spelling.digits_ofScaled]
    exact nearestEven_units count number
  · have top : number.exponentField = precision.topField :=
      not_not.mp ((Binary.isFinite_iff_fields number).not.mp finite)
    by_cases fraction : number.fractionField = 0
    · rw [fixed_of_isInfinite count ((Binary.isInfinite_iff_fields number).mpr ⟨top, fraction⟩)]
      exact .infinite top fraction
    · rw [fixed_of_isNaN count ((Binary.isNaN_iff_fields number).mpr ⟨top, fraction⟩)]
      exact .nan top fraction

/-- What is written for a number with fixed places is `Decimal.fixed` and nothing else. -/
theorem isFixed_iff {precision : Precision} {count : Nat} {number : Binary precision}
    {chars : List Char} : IsFixed count number chars ↔ chars = fixed count number := by
  constructor
  · intro written
    cases written with
    | nan top fraction =>
        exact (fixed_of_isNaN count ((Binary.isNaN_iff_fields number).mpr ⟨top, fraction⟩)).symm
    | infinite top fraction =>
        exact (fixed_of_isInfinite count
          ((Binary.isInfinite_iff_fields number).mpr ⟨top, fraction⟩)).symm
    | finite below plain negative rounded =>
        rw [fixed_of_isFinite count ((Binary.isFinite_iff_fields number).mpr below)]
        have digits := rounded.unique (nearestEven_units count number)
        rw [plain.unique (Spelling.plain_ofScaled number.isNegative count _) negative
          (digits.trans (Spelling.digits_ofScaled _ _ _).symm)]
  · rintro rfl
    exact isFixed_fixed count number

end Decimal

end HalfMatrix
