import HalfMatrix.Decimal.Shortest
import HalfMatrix.Decimal.Spelling

/-!
# Laying out shortest decimals

A number in the middle range is written positionally, always with a point; one
outside it with a single digit before the point and a power of ten.
-/

set_option autoImplicit false

namespace HalfMatrix.Decimal

/-- How numbers are written: which powers of ten of the leading digit are
positional, what marks a power of ten that is not negative, and which of two
equally near shortest decimals is taken. -/
structure Layout where
  least : Int
  greatest : Int
  mark : Mark
  tie : Tie
  deriving DecidableEq, Repr

def Layout.positional (layout : Layout) (leading : Int) : Bool :=
  decide (layout.least ≤ leading) && decide (leading ≤ layout.greatest)

/-- Digits of which the first stands for `10 ^ leading`, around a point. -/
def aroundPoint (digits : List Char) : Int → List Char × List Char
  | .ofNat power =>
      let whole := digits.take (power + 1)
      let places := digits.drop (power + 1)
      (whole ++ List.replicate (power + 1 - digits.length) '0',
        if places = [] then ['0'] else places)
  | .negSucc power => (['0'], List.replicate power '0' ++ digits)

def Spelling.ofBinary {precision : Precision} (layout : Layout) (number : Binary precision) :
    Spelling :=
  if number.magnitude = 0 then
    { negative := number.isNegative, whole := ['0'], places := ['0'], power := none }
  else
    let decimal := shortest layout.tie number
    let digits := Nat.toDigits 10 decimal.digits
    let leading := decimal.exponent + digits.length - 1
    if layout.positional leading then
      let (whole, places) := aroundPoint digits leading
      { negative := number.isNegative, whole, places, power := none }
    else
      { negative := number.isNegative
        whole := digits.take 1
        places := digits.drop 1
        power := some
          { mark := if leading < 0 then .minus else layout.mark
            digits := Nat.toDigits 10 leading.natAbs } }

def Layout.shown : Layout := ⟨-4, 15, .bare, .up⟩

def Layout.stored : Precision → Layout
  | .single => ⟨-6, 12, .plus, .even⟩
  | .double => ⟨-5, 15, .plus, .even⟩

def shown {precision : Precision} (number : Binary precision) : List Char :=
  if number.isNaN then "NaN".toList
  else if number.isInfinite then (if number.isNegative then "-inf" else "inf").toList
  else (Spelling.ofBinary .shown number).text

end HalfMatrix.Decimal
