/-!
# Spelled decimal numbers

A spelling is a decimal number as it stands in a text, cut into its parts:
sign, whole digits, decimal places, and a power of ten.
-/

set_option autoImplicit false

namespace HalfMatrix.Decimal

inductive Mark where
  | bare
  | plus
  | minus
  deriving DecidableEq, Repr

def Mark.text : Mark → List Char
  | bare => []
  | plus => ['+']
  | minus => ['-']

/-- A power of ten as it is spelled after an `e`. -/
structure Power where
  mark : Mark
  digits : List Char
  deriving DecidableEq, Repr

def Power.text (power : Power) : List Char :=
  'e' :: power.mark.text ++ power.digits

def Power.value (power : Power) : Int :=
  let distance : Int := Nat.ofDigitChars 10 power.digits 0
  if power.mark = .minus then -distance else distance

structure Spelling where
  negative : Bool
  whole : List Char
  places : List Char
  power : Option Power
  deriving DecidableEq, Repr

namespace Spelling

def text (spelling : Spelling) : List Char :=
  (if spelling.negative then ['-'] else []) ++ spelling.whole ++
    (if spelling.places = [] then [] else '.' :: spelling.places) ++
    (match spelling.power with
      | none => []
      | some power => power.text)

def ofNat (value : Nat) : Spelling where
  negative := false
  whole := Nat.toDigits 10 value
  places := []
  power := none

def isWhole (spelling : Spelling) : Bool :=
  spelling.places.isEmpty && spelling.power.isNone

def digits (spelling : Spelling) : Nat :=
  Nat.ofDigitChars 10 (spelling.whole ++ spelling.places) 0

/-- The digits from the first one on that is not zero. -/
def significant (spelling : Spelling) : List Char :=
  (spelling.whole ++ spelling.places).dropWhile (· == '0')

def trimmed (spelling : Spelling) : Spelling :=
  { spelling with places := (spelling.places.reverse.dropWhile (· == '0')).reverse }

def exponent (spelling : Spelling) : Int :=
  (match spelling.power with
    | none => 0
    | some power => power.value) - spelling.places.length

end Spelling

end HalfMatrix.Decimal
