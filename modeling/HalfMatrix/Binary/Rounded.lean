import HalfMatrix.Binary.Basic

/-!
# Rounding to floating point

`Rounding.nearest` rounds a ratio to a whole number, and the middle between two
of them to the even one.  With it a ratio is rounded to the nearest number of a
precision, the one with even magnitude if two are equally near.  Ratios too
large for the precision give infinity.
-/

set_option autoImplicit false

namespace HalfMatrix.Rounding

/-- The whole number nearest to `numerator / denominator`, the even one of two
equally near. -/
def nearest (numerator denominator : Nat) : Nat :=
  let floor := numerator / denominator
  let rest := numerator % denominator
  if 2 * rest < denominator ∨ (2 * rest = denominator ∧ floor % 2 = 0) then floor
  else floor + 1

@[simp] theorem nearest_mul_cancel (whole denominator : Nat) (positive : 0 < denominator) :
    nearest (whole * denominator) denominator = whole := by
  simp [nearest, Nat.mul_div_cancel _ positive, positive]

end HalfMatrix.Rounding

namespace HalfMatrix.Binary

variable {precision : Precision}

/-- The magnitude nearest to `numerator / denominator` units.  With `scale`
chosen so that the quotient has as many bits as a significand may have, the
rounded quotient added to `scale` binades is that magnitude, also where
rounding carries into the next binade. -/
def magnitudeOfRatio (precision : Precision) (numerator denominator : Nat) : Nat :=
  let scale := (numerator / denominator).log2 + 1 - precision.significantBits
  let rounded := Rounding.nearest numerator (denominator * Nat.pow 2 scale)
  min (scale * precision.binade + rounded) precision.infinity

def ofRatio (negative : Bool) (numerator denominator : Nat) : Binary precision :=
  ofMagnitude negative
    (magnitudeOfRatio precision (numerator * Nat.pow 2 precision.unitExponent) denominator)

def ofNat (value : Nat) : Binary precision := ofRatio false value 1

def ofInt (value : Int) : Binary precision := ofRatio (decide (value < 0)) value.natAbs 1

/-- No number of either precision has a decimal exponent as far from zero. -/
def decimalReach : Int := 400

/-- The number nearest to `± digits * 10 ^ exponent`.  A value whose leading
digit stands beyond `decimalReach` is infinite or zero, and is not computed. -/
def ofDecimal (negative : Bool) (digits : Nat) (exponent : Int) : Binary precision :=
  let leading := (Nat.toDigits 10 digits).length + exponent
  if digits = 0 ∨ leading < -decimalReach then ofMagnitude negative 0
  else if decimalReach < leading then infinite negative
  else
    match exponent with
    | .ofNat power => ofRatio negative (digits * Nat.pow 10 power) 1
    | .negSucc power => ofRatio negative digits (Nat.pow 10 (power + 1))

def convert (target : Precision) (number : Binary precision) : Binary target :=
  if number.isNaN then nan
  else if number.isInfinite then infinite number.isNegative
  else ofRatio number.isNegative number.units (Nat.pow 2 precision.unitExponent)

end HalfMatrix.Binary
