import HalfMatrix.Proofs.Decimals.ReadBack
import Mathlib.Data.List.Basic

/-!
# Spelled numbers are read back

The spelling of a finite number is the spelling of its shortest decimal, up to
zeros at its end, and is well formed.  A reader of documents therefore gets the
number itself, with its sign, and whole numbers are read as they were written.
-/

set_option autoImplicit false

namespace HalfMatrix.Decimal

variable {precision : Precision} {number : Binary precision} {layout : Layout}

/-! ## Lists of digits -/

theorem head?_toDigits {value : Nat} (nonzero : value ≠ 0) :
    (Nat.toDigits 10 value).head? ≠ some '0' := by
  induction value using Nat.strongRecOn with
  | ind value ih =>
      rw [Nat.toDigits_eq_if (by decide)]
      split
      · simpa using nonzero
      · rename_i large
        have shorter : value / 10 < value := by omega
        rw [List.head?_append_of_ne_nil _ Nat.toDigits_ne_nil]
        exact ih (value / 10) shorter (by omega)

theorem length_dropWhile_le {α : Type} {dropped : α → Bool} {front list : List α}
    (isFront : front <+: list) :
    (front.dropWhile dropped).length ≤ (list.dropWhile dropped).length := by
  obtain ⟨rest, rfl⟩ := isFront
  rw [List.dropWhile_append]
  split
  · rename_i nothing
    rw [List.isEmpty_iff.mp nothing]
    exact Nat.zero_le _
  · simp

theorem dropWhile_replicate_zero (count : Nat) (rest : List Char) :
    (List.replicate count '0' ++ rest).dropWhile (· == '0') = rest.dropWhile (· == '0') := by
  induction count with
  | zero => rfl
  | succ count ih => simp [List.replicate_succ, ih]

theorem length_significant_trimmed_le (spelling : Spelling) :
    spelling.trimmed.significant.length ≤ spelling.significant.length := by
  apply length_dropWhile_le
  apply (List.prefix_append_right_inj _).mpr
  have suffix := List.dropWhile_suffix (l := spelling.places.reverse) (· == '0')
  have front := List.reverse_prefix.mpr suffix
  rwa [List.reverse_reverse] at front

/-! ## Digits around a point -/

/-- Digits around a point stand for the same value as by themselves, up to
zeros at the end. -/
theorem aroundPoint_value (digits : List Char) (leading : Int) :
    ∃ zeros : Nat,
      Nat.ofDigitChars 10 ((aroundPoint digits leading).1 ++ (aroundPoint digits leading).2) 0 =
          Nat.ofDigitChars 10 digits 0 * 10 ^ zeros ∧
        -((aroundPoint digits leading).2.length : Int) = leading - digits.length + 1 - zeros := by
  cases leading with
  | ofNat power =>
      by_cases short : digits.length ≤ power + 1
      · have zeros : List.replicate (power + 1 - digits.length) '0' ++ ['0'] =
            List.replicate (power + 2 - digits.length) '0' := by
          rw [show power + 2 - digits.length = power + 1 - digits.length + 1 by omega,
            List.replicate_succ']
        refine ⟨power + 2 - digits.length, ?_, ?_⟩
        · simp only [aroundPoint, List.drop_eq_nil_of_le short, List.take_of_length_le short,
            if_true]
          rw [List.append_assoc, zeros, Nat.ofDigitChars_append, Nat.ofDigitChars_replicate_zero,
            Nat.mul_comm]
        · simp only [aroundPoint, List.drop_eq_nil_of_le short, if_true, List.length_singleton,
            Int.ofNat_eq_natCast]
          omega
      · have further : digits.drop (power + 1) ≠ [] := by
          simp only [ne_eq, List.drop_eq_nil_iff]
          exact short
        have none : power + 1 - digits.length = 0 := by omega
        refine ⟨0, ?_, ?_⟩
        · simp only [aroundPoint, if_neg further, none, List.replicate_zero, List.append_nil,
            List.take_append_drop, Nat.pow_zero, Nat.mul_one]
        · simp only [aroundPoint, if_neg further, List.length_drop, Int.ofNat_eq_natCast]
          omega
  | negSucc power =>
      refine ⟨0, ?_, ?_⟩
      · simp only [aroundPoint, Nat.pow_zero, Nat.mul_one]
        rw [← List.append_assoc, Nat.ofDigitChars_append,
          show ['0'] ++ List.replicate power '0' = List.replicate (power + 1) '0' from rfl,
          Nat.ofDigitChars_replicate_zero, Nat.mul_zero]
      · simp only [aroundPoint, List.length_append, List.length_replicate]
        omega

/-- The zeros that a point needs in front of the digits are not significant,
and those behind them reach to the point and the place after it. -/
theorem length_significant_aroundPoint (digits : List Char) (leading : Int) :
    (((aroundPoint digits leading).1 ++ (aroundPoint digits leading).2).dropWhile
      (· == '0')).length ≤ max digits.length (leading + 2).toNat := by
  have fewer : ∀ chars : List Char, (chars.dropWhile (· == '0')).length ≤ chars.length :=
    fun chars => (List.dropWhile_sublist _).length_le
  cases leading with
  | ofNat power =>
      apply Nat.le_trans (fewer _)
      have limit : (Int.ofNat power + 2).toNat = power + 2 := rfl
      rw [limit]
      by_cases short : digits.length ≤ power + 1
      · simp only [aroundPoint, List.drop_eq_nil_of_le short, List.take_of_length_le short,
          if_true, List.length_append, List.length_replicate, List.length_singleton]
        omega
      · have further : digits.drop (power + 1) ≠ [] := by
          simp only [ne_eq, List.drop_eq_nil_iff]
          exact short
        simp only [aroundPoint, if_neg further, List.length_append, List.length_replicate,
          List.length_take, List.length_drop]
        omega
  | negSucc power =>
      simp only [aroundPoint]
      rw [← List.append_assoc,
        show ['0'] ++ List.replicate power '0' = List.replicate (power + 1) '0' from rfl,
        dropWhile_replicate_zero]
      exact Nat.le_trans (fewer digits) (Nat.le_max_left _ _)

theorem aroundPoint_places_ne_nil {digits : List Char} (nonempty : digits ≠ []) (leading : Int) :
    (aroundPoint digits leading).2 ≠ [] := by
  cases leading with
  | ofNat power =>
      simp only [aroundPoint]
      split
      · simp
      · assumption
  | negSucc power => simp [aroundPoint, nonempty]

/-! ## Well-formed spellings -/

/-- What the grammar of documents asks of a spelling. -/
structure Spelling.WellFormed (spelling : Spelling) : Prop where
  whole_ne_nil : spelling.whole ≠ []
  whole_isDigit : ∀ char ∈ spelling.whole, char.isDigit
  noNeedlessZero : spelling.whole.head? = some '0' → spelling.whole.length ≤ 1
  places_isDigit : ∀ char ∈ spelling.places, char.isDigit
  power_ne_nil : ∀ power ∈ spelling.power, power.digits ≠ []
  power_isDigit : ∀ power ∈ spelling.power, ∀ char ∈ power.digits, char.isDigit

theorem isDigit_of_mem_toDigits (value : Nat) :
    ∀ char ∈ Nat.toDigits 10 value, char.isDigit :=
  fun _ member => Nat.isDigit_of_mem_toDigits (by decide) (by decide) member

theorem isDigit_of_mem_zeros {count : Nat} :
    ∀ char ∈ List.replicate count '0', char.isDigit := by
  intro char member
  rw [List.eq_of_mem_replicate member]
  rfl

theorem Spelling.wellFormed_ofNat (value : Nat) : (Spelling.ofNat value).WellFormed where
  whole_ne_nil := Nat.toDigits_ne_nil
  whole_isDigit := isDigit_of_mem_toDigits value
  noNeedlessZero := by
    intro zero
    by_cases nonzero : value = 0
    · subst nonzero
      decide
    · exact absurd zero (head?_toDigits nonzero)
  places_isDigit := by simp [Spelling.ofNat]
  power_ne_nil := by simp [Spelling.ofNat]
  power_isDigit := by simp [Spelling.ofNat]

theorem aroundPoint_whole {digits : List Char} (isDigit : ∀ char ∈ digits, char.isDigit)
    (nonempty : digits ≠ []) (noZero : digits.head? ≠ some '0') (leading : Int) :
    (aroundPoint digits leading).1 ≠ [] ∧
      (∀ char ∈ (aroundPoint digits leading).1, char.isDigit) ∧
        ((aroundPoint digits leading).1.head? = some '0' →
          (aroundPoint digits leading).1.length ≤ 1) := by
  cases leading with
  | ofNat power =>
      have front : digits.take (power + 1) ≠ [] := by simpa using nonempty
      refine ⟨by simp [aroundPoint, nonempty], ?_, ?_⟩
      · intro char member
        simp only [aroundPoint, List.mem_append] at member
        cases member with
        | inl member => exact isDigit char (List.mem_of_mem_take member)
        | inr member => exact isDigit_of_mem_zeros char member
      · intro zero
        simp only [aroundPoint] at zero
        rw [List.head?_append_of_ne_nil _ front, List.head?_take,
          if_neg (Nat.succ_ne_zero power)] at zero
        exact absurd zero noZero
  | negSucc power => simp [aroundPoint]

theorem isDigit_of_mem_places {digits : List Char} (isDigit : ∀ char ∈ digits, char.isDigit)
    (leading : Int) : ∀ char ∈ (aroundPoint digits leading).2, char.isDigit := by
  intro char member
  cases leading with
  | ofNat power =>
      simp only [aroundPoint] at member
      split at member
      · simp only [List.mem_singleton] at member
        subst member
        rfl
      · exact isDigit char (List.mem_of_mem_drop member)
  | negSucc power =>
      simp only [aroundPoint, List.mem_append] at member
      cases member with
      | inl member => exact isDigit_of_mem_zeros char member
      | inr member => exact isDigit char member

theorem Spelling.wellFormed_ofBinary (layout : Layout) (finite : number.isFinite) :
    (Spelling.ofBinary layout number).WellFormed := by
  by_cases zero : number.magnitude = 0
  · simp only [Spelling.ofBinary, if_pos zero]
    constructor <;> simp
  · have nonzero := shortest_digits_ne_zero layout.tie finite zero
    have noZero := head?_toDigits nonzero
    have nonempty : Nat.toDigits 10 (shortest layout.tie number).digits ≠ [] :=
      Nat.toDigits_ne_nil
    have isDigit := isDigit_of_mem_toDigits (shortest layout.tie number).digits
    simp only [Spelling.ofBinary, if_neg zero]
    generalize Nat.toDigits 10 (shortest layout.tie number).digits = digits at *
    split
    · obtain ⟨whole, wholeDigits, needless⟩ := aroundPoint_whole isDigit nonempty noZero
        ((shortest layout.tie number).exponent + digits.length - 1)
      exact ⟨whole, wholeDigits, needless, isDigit_of_mem_places isDigit _, by simp, by simp⟩
    · constructor
      · simpa using nonempty
      · exact fun char member => isDigit char (List.mem_of_mem_take member)
      · intro _
        exact List.length_take_le 1 digits
      · exact fun char member => isDigit char (List.mem_of_mem_drop member)
      · simp
      · intro power power_eq
        cases power_eq
        exact isDigit_of_mem_toDigits _

/-! ## What a reader gets -/

/-- A layout in which a reader finds the value that was spelled: its mark is not
that of negative powers, and it spells out no more zeros than are read. -/
structure Layout.Readable (precision : Precision) (layout : Layout) : Prop where
  mark : layout.mark ≠ .minus
  greatest : layout.greatest + 2 ≤ Json.Number.digitsRead precision

theorem Layout.readable_stored (precision : Precision) :
    (Layout.stored precision).Readable precision := by
  constructor <;> cases precision <;> decide

theorem Power.value_of_sign (mark : Mark) (notMinus : mark ≠ .minus) (leading : Int) :
    Power.value
      { mark := if leading < 0 then .minus else mark, digits := Nat.toDigits 10 leading.natAbs } =
        leading := by
  simp only [Power.value, Nat.ofDigitChars_ten_toDigits]
  by_cases negative : leading < 0
  · simp only [if_pos negative, if_true]
    omega
  · simp only [if_neg negative, if_neg notMinus]
    omega

theorem Spelling.ofBinary_value (notMinus : layout.mark ≠ .minus)
    (nonzero : number.magnitude ≠ 0) :
    ∃ zeros : Nat,
      (Spelling.ofBinary layout number).digits =
          (shortest layout.tie number).digits * 10 ^ zeros ∧
        (Spelling.ofBinary layout number).exponent =
          (shortest layout.tie number).exponent - zeros := by
  have value := Nat.ofDigitChars_ten_toDigits (n := (shortest layout.tie number).digits)
  have length := Nat.length_toDigits_pos (b := 10) (n := (shortest layout.tie number).digits)
  simp only [Spelling.ofBinary, if_neg nonzero]
  generalize Nat.toDigits 10 (shortest layout.tie number).digits = digits at *
  split
  · obtain ⟨zeros, digitsEq, places⟩ := aroundPoint_value digits
      ((shortest layout.tie number).exponent + digits.length - 1)
    refine ⟨zeros, value ▸ digitsEq, ?_⟩
    simp only [Spelling.exponent]
    omega
  · refine ⟨0, ?_, ?_⟩
    · simp only [Spelling.digits, List.take_append_drop, value, Nat.pow_zero, Nat.mul_one]
    · simp only [Spelling.exponent, Power.value_of_sign _ notMinus, List.length_drop]
      omega

theorem Spelling.length_significant_ofBinary (readable : layout.Readable precision)
    (finite : number.isFinite) (nonzero : number.magnitude ≠ 0) :
    (Spelling.ofBinary layout number).significant.length ≤ Json.Number.digitsRead precision := by
  have few : (Nat.toDigits 10 (shortest layout.tie number).digits).length ≤
      Json.Number.digitsRead precision :=
    (Nat.length_toDigits_le_iff (by decide) (by cases precision <;> decide)).mpr
      (shortest_digits_lt layout.tie finite nonzero)
  have greatest := readable.greatest
  simp only [Spelling.ofBinary, if_neg nonzero]
  generalize Nat.toDigits 10 (shortest layout.tie number).digits = digits at *
  split
  · rename_i positional
    simp only [Layout.positional, Bool.and_eq_true, decide_eq_true_eq] at positional
    have bound := length_significant_aroundPoint digits
      ((shortest layout.tie number).exponent + digits.length - 1)
    simp only [Spelling.significant]
    omega
  · simp only [Spelling.significant, List.take_append_drop]
    exact Nat.le_trans (List.dropWhile_sublist _).length_le few

/-- Rounding the spelling of a finite number gives the number back. -/
theorem round_ofBinary (readable : layout.Readable precision) (finite : number.isFinite) :
    Json.Number.round precision (Spelling.ofBinary layout number) = number := by
  by_cases zero : number.magnitude = 0
  · have positive : 0 < Json.Number.digitsRead precision := by cases precision <;> decide
    have none : (Spelling.ofBinary layout number).trimmed.significant = [] := by
      simp [Spelling.ofBinary, zero, Spelling.trimmed, Spelling.significant]
    have digits : (Spelling.ofBinary layout number).digits = 0 := by
      simp [Spelling.ofBinary, zero, Spelling.digits, Nat.ofDigitChars]
    have sign : (Spelling.ofBinary layout number).negative = number.isNegative := by
      simp [Spelling.ofBinary, zero]
    have surplus : 0 - Json.Number.digitsRead precision = 0 := Nat.zero_sub _
    simp only [Json.Number.round, none, List.length_nil, surplus, if_true, digits, sign,
      Binary.ofDecimal, true_or]
    rw [← zero, Binary.ofMagnitude_magnitude]
  · have few := Nat.le_trans (length_significant_trimmed_le _)
      (Spelling.length_significant_ofBinary readable finite zero)
    obtain ⟨zeros, digits, exponent⟩ := Spelling.ofBinary_value readable.mark zero
    have sign : (Spelling.ofBinary layout number).negative = number.isNegative := by
      simp only [Spelling.ofBinary, if_neg zero]
      split <;> rfl
    have nonzero := shortest_digits_ne_zero layout.tie finite zero
    simp only [Json.Number.round, Nat.sub_eq_zero_of_le few, if_true, sign, digits, exponent]
    rw [Binary.ofDecimal_shift _ nonzero]
    exact toBinary_shortest layout.tie finite zero

theorem Spelling.isWhole_ofBinary (layout : Layout) (number : Binary precision) :
    (Spelling.ofBinary layout number).isWhole = false := by
  by_cases zero : number.magnitude = 0
  · simp [Spelling.ofBinary, zero, Spelling.isWhole]
  · simp only [Spelling.ofBinary, if_neg zero]
    split
    · have places := aroundPoint_places_ne_nil
        (Nat.toDigits_ne_nil (n := (shortest layout.tie number).digits) (b := 10))
      simp [Spelling.isWhole, places]
    · simp [Spelling.isWhole]

theorem ofSpelling_ofBinary (readable : layout.Readable precision) (finite : number.isFinite) :
    Json.Number.ofSpelling precision (Spelling.ofBinary layout number) =
      .ok (.floating number) := by
  simp [Json.Number.ofSpelling, Spelling.isWhole_ofBinary, round_ofBinary readable finite,
    Binary.not_isInfinite_of_isFinite finite]

theorem ofSpelling_ofNat {value : Nat} (bound : value < Word.modulus) :
    Json.Number.ofSpelling precision (Spelling.ofNat value) = .ok (.word value) := by
  have digits : (Spelling.ofNat value).digits = value := by
    simp [Spelling.digits, Spelling.ofNat]
  have isWhole : (Spelling.ofNat value).isWhole = true := rfl
  have positive : (Spelling.ofNat value).negative = false := rfl
  simp [Json.Number.ofSpelling, isWhole, digits, positive, Json.Number.ofWhole,
    Nat.not_le.mpr bound]

end HalfMatrix.Decimal
