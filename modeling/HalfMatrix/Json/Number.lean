import HalfMatrix.Json.Problem
import HalfMatrix.Word

/-!
# Numbers in documents

`scan` reads the spelling of a number off the front of a text: a sign, whole
digits without a needless zero, decimal places after a point, a power of ten.
`ofSpelling` is what a spelling stands for: a whole number that fits a word is
kept as it is, and anything else is rounded, with an eye on only so many digits.
-/

set_option autoImplicit false

namespace HalfMatrix.Json

open Decimal (Mark Power Spelling)

namespace Number

def noDigit : List Char → Flaw
  | [] => .endOfText
  | _ => .malformed

def scanDigits (chars : List Char) : Except Flaw (List Char × List Char) :=
  match chars.takeWhile Char.isDigit with
  | [] => .error (noDigit chars)
  | digits => .ok (digits, chars.dropWhile Char.isDigit)

def scanWhole (chars : List Char) : Except Flaw (List Char × List Char) := do
  let (digits, rest) ← scanDigits chars
  if digits.head? = some '0' ∧ 1 < digits.length then throw .malformed
  pure (digits, rest)

def scanPlaces : List Char → Except Flaw (List Char × List Char)
  | '.' :: rest => scanDigits rest
  | rest => pure ([], rest)

def scanMark : List Char → Mark × List Char
  | '+' :: rest => (.plus, rest)
  | '-' :: rest => (.minus, rest)
  | rest => (.bare, rest)

def scanPower : List Char → Except Flaw (Option Power × List Char)
  | [] => pure (none, [])
  | char :: rest =>
      if char = 'e' ∨ char = 'E' then do
        let (mark, rest) := scanMark rest
        let (digits, rest) ← scanDigits rest
        pure (some { mark, digits }, rest)
      else pure (none, char :: rest)

def scanSign : List Char → Bool × List Char
  | '-' :: rest => (true, rest)
  | rest => (false, rest)

def scan (chars : List Char) : Except Flaw (Spelling × List Char) := do
  let (negative, rest) := scanSign chars
  let (whole, rest) ← scanWhole rest
  let (places, rest) ← scanPlaces rest
  let (power, rest) ← scanPower rest
  pure ({ negative, whole, places, power }, rest)

theorem scanDigits_length {chars digits rest : List Char}
    (scanned : scanDigits chars = .ok (digits, rest)) : rest.length < chars.length := by
  have parts := congrArg List.length
    (List.takeWhile_append_dropWhile (p := Char.isDigit) (l := chars))
  unfold scanDigits at scanned
  split at scanned
  · cases scanned
  · rename_i found
    cases scanned
    rw [List.length_append] at parts
    have positive : 0 < (chars.takeWhile Char.isDigit).length :=
      List.length_pos_iff.mpr found
    omega

theorem scanWhole_length {chars digits rest : List Char}
    (scanned : scanWhole chars = .ok (digits, rest)) : rest.length < chars.length := by
  unfold scanWhole at scanned
  cases first : scanDigits chars with
  | error flaw => simp [first, bind, Except.bind] at scanned
  | ok taken =>
      obtain ⟨taken, after⟩ := taken
      simp only [first, bind, Except.bind] at scanned
      split at scanned
      · cases scanned
      · cases scanned
        exact scanDigits_length first

theorem scanPlaces_length {chars places rest : List Char}
    (scanned : scanPlaces chars = .ok (places, rest)) : rest.length ≤ chars.length := by
  unfold scanPlaces at scanned
  split at scanned
  · have shorter := scanDigits_length scanned
    simp only [List.length_cons]
    omega
  · cases scanned
    exact Nat.le_refl _

theorem scanMark_length (chars : List Char) : (scanMark chars).2.length ≤ chars.length := by
  unfold scanMark
  split <;> simp

theorem scanPower_length {chars rest : List Char} {power : Option Power}
    (scanned : scanPower chars = .ok (power, rest)) : rest.length ≤ chars.length := by
  unfold scanPower at scanned
  split at scanned
  · cases scanned
    exact Nat.le_refl _
  · rename_i char tail
    split at scanned
    · have marked := scanMark_length tail
      cases first : scanDigits (scanMark tail).2 with
      | error flaw => simp [first, bind, Except.bind] at scanned
      | ok taken =>
          obtain ⟨taken, after⟩ := taken
          simp only [first, bind, Except.bind] at scanned
          cases scanned
          have shorter := scanDigits_length first
          simp only [List.length_cons]
          omega
    · cases scanned
      exact Nat.le_refl _

theorem scanSign_length (chars : List Char) : (scanSign chars).2.length ≤ chars.length := by
  unfold scanSign
  split <;> simp

theorem scan_length {chars rest : List Char} {spelling : Spelling}
    (scanned : scan chars = .ok (spelling, rest)) : rest.length < chars.length := by
  have signed := scanSign_length chars
  unfold scan at scanned
  cases whole : scanWhole (scanSign chars).2 with
  | error flaw => simp [whole, bind, Except.bind] at scanned
  | ok wholePart =>
      obtain ⟨wholeDigits, afterWhole⟩ := wholePart
      have wholeShorter := scanWhole_length whole
      cases places : scanPlaces afterWhole with
      | error flaw => simp [whole, places, bind, Except.bind] at scanned
      | ok placesPart =>
          obtain ⟨placesDigits, afterPlaces⟩ := placesPart
          have placesShorter := scanPlaces_length places
          cases power : scanPower afterPlaces with
          | error flaw => simp [whole, places, power, bind, Except.bind] at scanned
          | ok powerPart =>
              obtain ⟨powerDigits, afterPower⟩ := powerPart
              have powerShorter := scanPower_length power
              simp only [whole, places, power, bind, Except.bind] at scanned
              cases scanned
              omega

end Number

inductive Number (precision : Precision) where
  | word (value : Nat)
  | negative (value : Nat)
  | floating (value : Binary precision)
  deriving DecidableEq, Repr

namespace Number

/-- A whole number beyond the greatest one that is kept exactly with a sign is
rounded to double precision first. -/
def ofWhole (precision : Precision) (negated : Bool) (value : Nat) : Option (Number precision) :=
  if Word.modulus ≤ value then none
  else if !negated then some (.word value)
  else if value = 0 then some (.floating (.ofMagnitude true 0))
  else if value ≤ Word.modulus / 2 then some (.negative value)
  else some (.floating (Binary.convert precision (.ofRatio true value 1 : Binary .double)))

/-- How many significant digits are read.  The middle between two neighbouring
numbers never has more. -/
def digitsRead : Precision → Nat
  | .single => 113
  | .double => 768

/-- The number that a spelling is rounded to.  If there are more digits than are
read, a one stands for the rest, which puts the value above any middle that the
digits read may be.  Zeros at the end of the places are no rest, but zeros at
the end of a whole number are. -/
def round (precision : Precision) (spelling : Spelling) : Binary precision :=
  let trimmed := spelling.trimmed
  let most := digitsRead precision
  let surplus := trimmed.significant.length - most
  if surplus = 0 then .ofDecimal spelling.negative spelling.digits spelling.exponent
  else
    let read := Nat.ofDigitChars 10 (trimmed.significant.take most) 0
    .ofDecimal spelling.negative (10 * read + 1) (trimmed.exponent + surplus - 1)

/-- The value of a spelling.  One that rounds to infinity is malformed. -/
def ofSpelling (precision : Precision) (spelling : Spelling) : Except Flaw (Number precision) :=
  let kept := if spelling.isWhole then ofWhole precision spelling.negative spelling.digits else none
  match kept with
  | some number => .ok number
  | none =>
      let rounded := round precision spelling
      if rounded.isInfinite then .error .malformed else .ok (.floating rounded)

def toBinary {precision : Precision} : Number precision → Binary precision
  | word value => .ofNat value
  | negative value => .ofRatio true value 1
  | floating value => value

def toFound : Number .double → Found
  | word value => .integer value
  | negative value => .integer (-value)
  | floating value => .floating value

end Number

end HalfMatrix.Json
