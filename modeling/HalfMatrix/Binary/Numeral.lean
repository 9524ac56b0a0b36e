import HalfMatrix.Binary.Rounded

/-!
# Exact numerals

A numeral names a number of either precision without rounding: a whole number
up to `2 ^ significantBits`, a special value, or else a word of so many bits.
-/

set_option autoImplicit false

namespace HalfMatrix

inductive Numeral where
  | nan
  | infinite (negative : Bool)
  | whole (value : Int)
  | bits (width word : Nat)
  deriving DecidableEq, Repr

namespace Numeral

def toBinary (precision : Precision) : Numeral → Binary precision
  | nan => .nan
  | infinite negative => .infinite negative
  | whole value => .ofInt value
  | bits _ word => ⟨BitVec.ofNat _ word⟩

/-- The numeral of a number.  Negative zero is no whole number. -/
def ofBinary {precision : Precision} (number : Binary precision) : Numeral :=
  let unit := Nat.pow 2 precision.unitExponent
  let whole := number.units / unit
  if number.isNaN then .nan
  else if number.isInfinite then .infinite number.isNegative
  else if number.isNegative && number.magnitude == 0 then .bits precision.width number.bits.toNat
  else if number.units % unit = 0 ∧ whole ≤ Nat.pow 2 precision.significantBits then
    .whole (if number.isNegative then -whole else whole)
  else .bits precision.width number.bits.toNat

end Numeral

end HalfMatrix
