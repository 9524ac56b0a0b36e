/-!
# Binary floating-point numbers

A number of single or double precision is its word of bits: a sign bit, and
below it the magnitude.  The magnitudes count the finite numbers upward from
zero; after them stands infinity, and everything above is not a number.

A finite number is a whole number of `units`, the unit being the least
positive number `2 ^ (-unitExponent)`.
-/

set_option autoImplicit false

namespace HalfMatrix

inductive Precision where
  | single
  | double
  deriving DecidableEq, Repr

namespace Precision

def significantBits : Precision → Nat
  | single => 24
  | double => 53

def exponentBits : Precision → Nat
  | single => 8
  | double => 11

def width (precision : Precision) : Nat :=
  precision.exponentBits + precision.significantBits

/-- The least positive number is `2 ^ (-unitExponent)`. -/
def unitExponent : Precision → Nat
  | single => 149
  | double => 1074

/-- How many magnitudes share one exponent. -/
def binade (precision : Precision) : Nat := Nat.pow 2 (precision.significantBits - 1)

def infinity (precision : Precision) : Nat :=
  (Nat.pow 2 precision.exponentBits - 1) * precision.binade

def signBit (precision : Precision) : Nat := Nat.pow 2 (precision.width - 1)

def name : Precision → String
  | single => "f32"
  | double => "f64"

end Precision

structure Binary (precision : Precision) where
  bits : BitVec precision.width
  deriving DecidableEq, Repr

namespace Binary

variable {precision : Precision}

def ofMagnitude (negative : Bool) (magnitude : Nat) : Binary precision :=
  ⟨BitVec.ofNat _ (magnitude + if negative then precision.signBit else 0)⟩

def isNegative (number : Binary precision) : Bool :=
  decide (precision.signBit ≤ number.bits.toNat)

def magnitude (number : Binary precision) : Nat :=
  number.bits.toNat % precision.signBit

instance : Zero (Binary precision) := ⟨ofMagnitude false 0⟩

def infinite (negative : Bool) : Binary precision := ofMagnitude negative precision.infinity

def nan : Binary precision := ofMagnitude false (precision.infinity + precision.binade / 2)

def isNaN (number : Binary precision) : Bool :=
  decide (precision.infinity < number.magnitude)

def isInfinite (number : Binary precision) : Bool :=
  decide (number.magnitude = precision.infinity)

def isFinite (number : Binary precision) : Bool :=
  decide (number.magnitude < precision.infinity)

/-- The power of two by which the significand of a magnitude is scaled, in
units.  It is zero for the numbers of the first two exponents. -/
def scaleOf (precision : Precision) (magnitude : Nat) : Nat :=
  magnitude / precision.binade - 1

/-- How many units a finite magnitude amounts to. -/
def unitsOf (precision : Precision) (magnitude : Nat) : Nat :=
  let scale := scaleOf precision magnitude
  (magnitude - scale * precision.binade) * Nat.pow 2 scale

def units (number : Binary precision) : Nat := unitsOf precision number.magnitude

/-- The numbers are equal as numbers: zero has two words, and what is not a
number equals nothing. -/
def equals (left right : Binary precision) : Bool :=
  !left.isNaN && !right.isNaN &&
    (left == right || (left.magnitude == 0 && right.magnitude == 0))

end Binary

end HalfMatrix
