import HalfMatrix.Binary.Rounded

/-!
# The shortest decimals that read back

Of all decimals that round to a given number, `shortest` takes one with the
fewest digits, and of these the nearest to the number.  For each count of
digits only the two neighbours of the number on that decimal grid come into
question.
-/

set_option autoImplicit false

namespace HalfMatrix

structure Decimal where
  digits : Nat
  exponent : Int
  deriving DecidableEq, Repr

namespace Decimal

variable {precision : Precision}

def stripped (decimal : Decimal) : Decimal :=
  if decimal.digits ≠ 0 ∧ decimal.digits % 10 = 0 then
    stripped ⟨decimal.digits / 10, decimal.exponent + 1⟩
  else decimal
termination_by decimal.digits
decreasing_by
  all_goals rename_i divisible
  exact Nat.div_lt_self (Nat.pos_of_ne_zero divisible.1) (by decide)

def toBinary (negative : Bool) (decimal : Decimal) : Binary precision :=
  .ofDecimal negative decimal.digits decimal.exponent

/-- Which of two equally near decimals is taken. -/
inductive Tie where
  | even
  | up
  deriving DecidableEq, Repr

/-- How many digits are enough to tell all numbers of a precision apart. -/
def enoughDigits : Precision → Nat
  | .single => 9
  | .double => 17

/-- The power of ten of the leading digit of a number that is not zero. -/
def leading (number : Binary precision) : Int :=
  let unit := Nat.pow 2 precision.unitExponent
  if unit ≤ number.units then (Nat.toDigits 10 (number.units / unit)).length - 1
  else -(Nat.toDigits 10 ((unit - 1) / number.units)).length

def scaled (number : Binary precision) : Int → Nat × Nat
  | .ofNat power => (number.units, Nat.pow 2 precision.unitExponent * Nat.pow 10 power)
  | .negSucc power => (number.units * Nat.pow 10 (power + 1), Nat.pow 2 precision.unitExponent)

/-- The nearest multiple of `10 ^ exponent` that reads back as the number. -/
def onGrid? (tie : Tie) (number : Binary precision) (exponent : Int) : Option Decimal :=
  let (numerator, denominator) := scaled number exponent
  let below := numerator / denominator
  let twice := 2 * (numerator % denominator)
  let readsBack (digits : Nat) : Bool :=
    decide (toBinary number.isNegative ⟨digits, exponent⟩ = number)
  let belowIsNearer := twice < denominator ||
    (twice == denominator && tie == .even && below % 2 == 0)
  match readsBack below, readsBack (below + 1) with
  | true, true => some ⟨if belowIsNearer then below else below + 1, exponent⟩
  | true, false => some ⟨below, exponent⟩
  | false, true => some ⟨below + 1, exponent⟩
  | false, false => none

def exact (number : Binary precision) : Decimal :=
  ⟨number.units * Nat.pow 5 precision.unitExponent, -precision.unitExponent⟩

/-- The shortest decimal that reads back as a finite number other than zero. -/
def shortest (tie : Tie) (number : Binary precision) : Decimal :=
  let first := leading number
  let found := (List.range (enoughDigits precision)).findSome? fun (further : Nat) =>
    onGrid? tie number (first - further)
  (found.getD (exact number)).stripped

end Decimal

end HalfMatrix
