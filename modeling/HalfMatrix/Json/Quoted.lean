import HalfMatrix.Json.Problem

/-!
# Quoted text in documents

`encode` writes a text between quotes, with escapes for quotes, backslashes
and control characters.  `scan` takes a quoted text apart into code units; an
escape can stand for half of a surrogate pair, so the units become characters
only when `pair` has joined the halves.
-/

set_option autoImplicit false

namespace HalfMatrix.Json.Quoted

def codeEscape (code : Nat) : List Char :=
  "\\u00".toList ++ [Nat.digitChar (code / 16), Nat.digitChar (code % 16)]

def encodeChar (char : Char) : List Char :=
  if char = '"' then ['\\', '"']
  else if char = '\\' then ['\\', '\\']
  else if char = '\x08' then ['\\', 'b']
  else if char = '\x0c' then ['\\', 'f']
  else if char = '\n' then ['\\', 'n']
  else if char = '\r' then ['\\', 'r']
  else if char = '\t' then ['\\', 't']
  else if char < ' ' then codeEscape char.toNat
  else [char]

def encode (text : List Char) : List Char :=
  '"' :: text.flatMap encodeChar ++ ['"']

/-- How the scan of a quoted text ends: at the closing quote, or at a flaw. -/
inductive Ending where
  | closed (rest : List Char)
  | broken (flaw : Flaw)
  deriving DecidableEq, Repr

def escapedUnit? : Char → Option Nat
  | '"' => some 0x22
  | '\\' => some 0x5c
  | '/' => some 0x2f
  | 'b' => some 0x08
  | 'f' => some 0x0c
  | 'n' => some 0x0a
  | 'r' => some 0x0d
  | 't' => some 0x09
  | _ => none

def hexDigit? (char : Char) : Option Nat :=
  if '0' ≤ char ∧ char ≤ '9' then some (char.toNat - '0'.toNat)
  else if 'a' ≤ char ∧ char ≤ 'f' then some (char.toNat - 'a'.toNat + 10)
  else if 'A' ≤ char ∧ char ≤ 'F' then some (char.toNat - 'A'.toNat + 10)
  else none

def hexUnit? (a b c d : Char) : Option Nat := do
  let a ← hexDigit? a
  let b ← hexDigit? b
  let c ← hexDigit? c
  let d ← hexDigit? d
  pure (((a * 16 + b) * 16 + c) * 16 + d)

def byteLength (chars : List Char) : Nat :=
  chars.foldl (fun length char => length + char.utf8Size) 0

def withUnit (unit : Nat) (scanned : List Nat × Ending) : List Nat × Ending :=
  (unit :: scanned.1, scanned.2)

/-- Takes the text after an opening quote apart, up to its closing quote or to
the first flaw.  An escaped code needs four bytes before it is looked at. -/
def scan : List Char → List Nat × Ending
  | [] => ([], .broken .endOfText)
  | '"' :: rest => ([], .closed rest)
  | '\\' :: 'u' :: a :: b :: c :: d :: rest =>
      match hexUnit? a b c d with
      | none => ([], .broken .malformed)
      | some unit => withUnit unit (scan rest)
  | '\\' :: 'u' :: rest =>
      ([], .broken (if byteLength rest < 4 then .endOfText else .malformed))
  | '\\' :: char :: rest =>
      match escapedUnit? char with
      | none => ([], .broken .malformed)
      | some unit => withUnit unit (scan rest)
  | ['\\'] => ([], .broken .endOfText)
  | char :: rest =>
      if char < ' ' then ([], .broken .malformed)
      else withUnit char.toNat (scan rest)

def isLeading (unit : Nat) : Bool := 0xd800 ≤ unit && unit < 0xdc00

def isTrailing (unit : Nat) : Bool := 0xdc00 ≤ unit && unit < 0xe000

/-- What code units amount to: a text, one that lacks the second half of a
pair at its end, or one with a half that stands alone. -/
inductive Paired where
  | text (chars : List Char)
  | openPair
  | alone
  deriving DecidableEq, Repr

def Paired.cons (char : Char) : Paired → Paired
  | .text chars => .text (char :: chars)
  | .openPair => .openPair
  | .alone => .alone

def pair : List Nat → Paired
  | [] => .text []
  | [unit] =>
      if isLeading unit then .openPair
      else if isTrailing unit then .alone
      else .text [Char.ofNat unit]
  | unit :: next :: rest =>
      if isLeading unit then
        if isTrailing next then
          (pair rest).cons (Char.ofNat (0x10000 + (unit - 0xd800) * 0x400 + (next - 0xdc00)))
        else .alone
      else if isTrailing unit then .alone
      else (pair (next :: rest)).cons (Char.ofNat unit)

theorem scan_closed_length {chars rest : List Char} :
    (scan chars).2 = .closed rest → rest.length < chars.length := by
  fun_induction scan chars <;> intro closed <;> simp_all [withUnit] <;> omega

end HalfMatrix.Json.Quoted
