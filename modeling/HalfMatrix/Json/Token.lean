import HalfMatrix.Json.Number
import HalfMatrix.Json.Quoted

/-!
# Tokens of a document

A document is a sequence of tokens with blanks between them.  `Token.text`
spells a token; `Lexeme.scan` cuts a text into tokens.  Where the text is
flawed, the scan puts the flaw in place of a token, since it is reported only
if a reader comes to it, and since some readers do not mind it.
-/

set_option autoImplicit false

namespace HalfMatrix.Json

open Decimal (Spelling)

inductive Token where
  | comma
  | colon
  | openList
  | closeList
  | openMap
  | closeMap
  | null
  | boolean (value : Bool)
  | number (spelling : Spelling)
  | text (value : String)
  deriving DecidableEq, Repr

namespace Token

def chars : Token → List Char
  | comma => [',']
  | colon => [':']
  | openList => ['[']
  | closeList => [']']
  | openMap => ['\x7b']
  | closeMap => ['\x7d']
  | null => "null".toList
  | boolean value => (if value then "true" else "false").toList
  | number spelling => spelling.text
  | text value => Quoted.encode value.toList

def render (tokens : List Token) : String := String.ofList (tokens.flatMap chars)

def list (items : List (List Token)) : List Token :=
  openList :: List.flatten (items.intersperse [comma]) ++ [closeList]

def map (members : List (String × List Token)) : List Token :=
  let member : String × List Token → List Token := fun (name, value) => text name :: colon :: value
  openMap :: List.flatten ((members.map member).intersperse [comma]) ++ [closeMap]

def word (value : Nat) : Token := number (.ofNat value)

end Token

inductive TokenFlaw where
  /-- A quoted text that cannot be read, and what is wrong with it for a reader
  who only skips it. -/
  | text (read : Flaw) (skipped : Option Flaw)
  | number (flaw : Flaw)
  | word (flaw : Flaw)
  | stray
  deriving DecidableEq, Repr

inductive Lexeme where
  | token (token : Token)
  | flawed (flaw : TokenFlaw)
  deriving DecidableEq, Repr

namespace Lexeme

def isBlank (char : Char) : Bool :=
  char == ' ' || char == '\n' || char == '\t' || char == '\r'

/-- The lexeme of a quoted text whose opening quote is read, and what follows
it.  After a flaw that nobody gets past, nothing follows. -/
def ofQuoted (chars : List Char) : Lexeme × List Char :=
  match Quoted.scan chars with
  | (units, .closed rest) =>
      match Quoted.pair units with
      | .text value => (.token (.text (String.ofList value)), rest)
      | _ => (.flawed (.text .malformed none), rest)
  | (units, .broken flaw) =>
      match Quoted.pair units with
      | .alone => (.flawed (.text .malformed (some flaw)), [])
      | _ => (.flawed (.text flaw (some flaw)), [])

def ofNumber (chars : List Char) : Lexeme × List Char :=
  match Number.scan chars with
  | .ok (spelling, rest) => (.token (.number spelling), rest)
  | .error flaw => (.flawed (.number flaw), [])

def ofWord (token : Token) : List Char → List Char → Lexeme × List Char
  | [], rest => (.token token, rest)
  | _ :: _, [] => (.flawed (.word .endOfText), [])
  | letter :: letters, char :: rest =>
      if char = letter then ofWord token letters rest else (.flawed (.word .malformed), [])

/-- The first lexeme of a text that begins with `char`, and what follows it. -/
def next (char : Char) (rest : List Char) : Lexeme × List Char :=
  if char = ',' then (.token .comma, rest)
  else if char = ':' then (.token .colon, rest)
  else if char = '[' then (.token .openList, rest)
  else if char = ']' then (.token .closeList, rest)
  else if char = '\x7b' then (.token .openMap, rest)
  else if char = '\x7d' then (.token .closeMap, rest)
  else if char = '"' then ofQuoted rest
  else if char = '-' ∨ char.isDigit then ofNumber (char :: rest)
  else if char = 'n' then ofWord .null "ull".toList rest
  else if char = 't' then ofWord (.boolean true) "rue".toList rest
  else if char = 'f' then ofWord (.boolean false) "alse".toList rest
  else (.flawed .stray, [])

theorem ofQuoted_length (chars : List Char) : (ofQuoted chars).2.length ≤ chars.length := by
  unfold ofQuoted
  split
  · rename_i units rest scanned
    have shorter : rest.length < chars.length := Quoted.scan_closed_length (by rw [scanned])
    split <;> exact Nat.le_of_lt shorter
  · split <;> simp

theorem ofWord_length (token : Token) (letters chars : List Char) :
    (ofWord token letters chars).2.length ≤ chars.length := by
  induction letters generalizing chars with
  | nil => simp [ofWord]
  | cons letter letters ih =>
      cases chars with
      | nil => simp [ofWord]
      | cons char rest =>
          have later := ih rest
          simp only [ofWord]
          split
          · simp only [List.length_cons]
            omega
          · simp

theorem next_length (char : Char) (rest : List Char) :
    (next char rest).2.length ≤ rest.length := by
  have number : (ofNumber (char :: rest)).2.length ≤ rest.length := by
    unfold ofNumber
    split
    · rename_i spelling after scanned
      have shorter := Number.scan_length scanned
      simp only [List.length_cons] at shorter
      exact Nat.le_of_lt_succ shorter
    · simp
  unfold next
  repeat' split
  all_goals first
    | exact Nat.le_refl _
    | exact ofQuoted_length rest
    | exact number
    | exact ofWord_length _ _ rest
    | exact Nat.zero_le _

def scan : List Char → List Lexeme
  | [] => []
  | char :: rest =>
      if isBlank char then scan rest
      else (next char rest).1 :: scan (next char rest).2
termination_by chars => chars.length
decreasing_by
  · exact Nat.lt_succ_self _
  · exact Nat.lt_succ_of_le (next_length char rest)

end Lexeme

end HalfMatrix.Json
