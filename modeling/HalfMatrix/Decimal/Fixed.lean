import HalfMatrix.Binary.Rounded

/-!
# Fixed decimal places

A finite number is written with a given number of decimal places, rounded from
its exact value, the half to the even neighbour.  There is no exponent, no
point without places, and the sign is kept even where only zeros remain.
-/

set_option autoImplicit false

namespace HalfMatrix.Decimal

def paddedDigits (width value : Nat) : List Char :=
  let digits := Nat.toDigits 10 value
  List.replicate (width - digits.length) '0' ++ digits

/-- `value / 10 ^ places`, written with `places` decimal places. -/
def pointed (places value : Nat) : List Char :=
  let whole := Nat.toDigits 10 (value / Nat.pow 10 places)
  if places = 0 then whole
  else whole ++ '.' :: paddedDigits places (value % Nat.pow 10 places)

def sign (negative : Bool) : List Char := if negative then ['-'] else []

def fixed {precision : Precision} (places : Nat) (number : Binary precision) : List Char :=
  if number.isNaN then "NaN".toList
  else if number.isInfinite then sign number.isNegative ++ "inf".toList
  else
    sign number.isNegative ++
      pointed places
        (Rounding.nearest (number.units * Nat.pow 10 places) (Nat.pow 2 precision.unitExponent))

end HalfMatrix.Decimal
