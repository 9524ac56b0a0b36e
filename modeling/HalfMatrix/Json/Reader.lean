import HalfMatrix.Json.Token

/-!
# Reading values from lexemes

A reader takes a value off the front of a sequence of lexemes and gives what
follows it, or the first problem.  No reader gives back more than it was given:
`Shrinks` holds of each of them.
-/

set_option autoImplicit false

namespace HalfMatrix.Json

abbrev Outcome (α : Type) : Type := Except Problem (α × List Lexeme)

abbrev Reader (α : Type) : Type := List Lexeme → Outcome α

def endOfText {α : Type} : Except Problem α := .error (.flaw .endOfText)

def malformed {α : Type} : Except Problem α := .error (.flaw .malformed)

def TokenFlaw.problem : TokenFlaw → Problem
  | text read _ => .flaw read
  | number flaw => .flaw flaw
  | word flaw => .flaw flaw
  | stray => .flaw .malformed

def unexpected (expected : String) : List Lexeme → Problem
  | [] => .flaw .endOfText
  | .flawed flaw :: _ => flaw.problem
  | .token token :: _ =>
      let wrong (found : Found) : Problem := .misfit (.wrongType found expected)
      match token with
      | .null => wrong .null
      | .boolean value => wrong (.boolean value)
      | .number spelling =>
          match Number.ofSpelling .double spelling with
          | .ok number => wrong number.toFound
          | .error flaw => .flaw flaw
      | .text value => wrong (.text value)
      | .openList => wrong .sequence
      | .openMap => wrong .map
      | .comma | .colon | .closeList | .closeMap => .flaw .malformed

/-! ## Single values -/

def readNumber (precision : Precision) (expected : String) : Reader (Number precision)
  | .token (.number spelling) :: rest =>
      match Number.ofSpelling precision spelling with
      | .ok number => .ok (number, rest)
      | .error flaw => .error (.flaw flaw)
  | lexemes => .error (unexpected expected lexemes)

def readWord (lexemes : List Lexeme) : Outcome Nat :=
  match readNumber .double "usize" lexemes with
  | .error problem => .error problem
  | .ok (.word value, rest) => .ok (value, rest)
  | .ok (.negative value, _) => .error (.misfit (.wrongValue (.integer (-value)) "usize"))
  | .ok (.floating value, _) => .error (.misfit (.wrongType (.floating value) "usize"))

def readOptionalWord : Reader (Option Nat)
  | .token .null :: rest => .ok (none, rest)
  | lexemes => (readWord lexemes).map fun (value, rest) => (some value, rest)

def readBinary (precision : Precision) (lexemes : List Lexeme) : Outcome (Binary precision) :=
  (readNumber precision precision.name lexemes).map fun (number, rest) => (number.toBinary, rest)

def readText : Reader String
  | .token (.text value) :: rest => .ok (value, rest)
  | lexemes => .error (unexpected "a string" lexemes)

def readBoolean : Reader Bool
  | .token (.boolean value) :: rest => .ok (value, rest)
  | lexemes => .error (unexpected "a boolean" lexemes)

/-! ## Lists of numbers -/

def readMoreBinaries (precision : Precision) : Reader (List (Binary precision))
  | .token .closeList :: rest => .ok ([], rest)
  | .token .comma :: .token (.number spelling) :: rest =>
      match Number.ofSpelling precision spelling with
      | .error flaw => .error (.flaw flaw)
      | .ok number =>
          (readMoreBinaries precision rest).map fun (numbers, rest) =>
            (number.toBinary :: numbers, rest)
  | .token .comma :: rest => .error (unexpected precision.name rest)
  | [] => endOfText
  | _ => malformed

def readBinaries (precision : Precision) : Reader (List (Binary precision))
  | .token .openList :: .token .closeList :: rest => .ok ([], rest)
  | .token .openList :: rest =>
      match readBinary precision rest with
      | .error problem => .error problem
      | .ok (first, rest) =>
          (readMoreBinaries precision rest).map fun (more, rest) => (first :: more, rest)
  | lexemes => .error (unexpected "a sequence" lexemes)

/-! ## Values that nobody asked for -/

inductive Bracket where
  | list
  | map
  deriving DecidableEq, Repr

/-- What comes next in a text that is skipped. -/
inductive Awaiting where
  | value
  | valueOrClose
  | key
  | keyOrClose
  | colon
  | separator
  deriving DecidableEq, Repr

/-- Skips one value, within the brackets that are open around the place
reached.  A number that is flawed in any way is malformed here. -/
def skip : Awaiting → List Bracket → List Lexeme → Except Problem (List Lexeme)
  | .separator, [], lexemes => .ok lexemes
  | _, _, [] => endOfText
  | .separator, .list :: outer, .token .closeList :: rest => skip .separator outer rest
  | .separator, .map :: outer, .token .closeMap :: rest => skip .separator outer rest
  | .separator, .list :: outer, .token .comma :: rest => skip .value (.list :: outer) rest
  | .separator, .map :: outer, .token .comma :: rest => skip .key (.map :: outer) rest
  | .separator, _, _ => malformed
  | .valueOrClose, _ :: outer, .token .closeList :: rest => skip .separator outer rest
  | .keyOrClose, _ :: outer, .token .closeMap :: rest => skip .separator outer rest
  | .colon, opened, .token .colon :: rest => skip .value opened rest
  | .colon, _, _ => malformed
  | awaiting, opened, .token (.text _) :: rest
  | awaiting, opened, .flawed (.text _ none) :: rest =>
      if awaiting = .key ∨ awaiting = .keyOrClose then skip .colon opened rest
      else skip .separator opened rest
  | _, _, .flawed (.text _ (some flaw)) :: _ => .error (.flaw flaw)
  | .key, _, _ => malformed
  | .keyOrClose, _, _ => malformed
  | _, opened, .token .null :: rest => skip .separator opened rest
  | _, opened, .token (.boolean _) :: rest => skip .separator opened rest
  | _, opened, .token (.number _) :: rest => skip .separator opened rest
  | _, opened, .token .openList :: rest => skip .valueOrClose (.list :: opened) rest
  | _, opened, .token .openMap :: rest => skip .keyOrClose (.map :: opened) rest
  | _, _, .flawed (.word flaw) :: _ => .error (.flaw flaw)
  | _, _, _ => malformed

def skipValue (lexemes : List Lexeme) : Except Problem (List Lexeme) := skip .value [] lexemes

/-! ## Readers never give back more than they got -/

def Shrinks {α : Type} (read : Reader α) : Prop :=
  ∀ {lexemes rest : List Lexeme} {value : α},
    read lexemes = .ok (value, rest) → rest.length ≤ lexemes.length

theorem readNumber_shrinks (precision : Precision) (expected : String) :
    Shrinks (readNumber precision expected) := by
  intro lexemes rest value read
  unfold readNumber at read
  split at read
  · split at read
    · cases read
      exact Nat.le_succ _
    · cases read
  · cases read

theorem readWord_shrinks : Shrinks readWord := by
  intro lexemes rest value read
  unfold readWord at read
  split at read
  · cases read
  · rename_i found
    cases read
    exact readNumber_shrinks _ _ found
  · cases read
  · cases read

theorem shrinks_of_map {α β : Type} {read : Outcome α} {convert : α → β} {bound : Nat}
    {rest : List Lexeme} {value : β}
    (shrinks : ∀ {rest : List Lexeme} {value : α}, read = .ok (value, rest) → rest.length ≤ bound)
    (mapped : (read.map fun (value, rest) => (convert value, rest)) = .ok (value, rest)) :
    rest.length ≤ bound := by
  cases read with
  | error problem => cases mapped
  | ok pair =>
      cases mapped
      exact shrinks rfl

theorem readOptionalWord_shrinks : Shrinks readOptionalWord := by
  intro lexemes rest value read
  unfold readOptionalWord at read
  split at read
  · cases read
    exact Nat.le_succ _
  · exact shrinks_of_map (fun found => readWord_shrinks found) read

theorem readBinary_shrinks (precision : Precision) : Shrinks (readBinary precision) := by
  intro lexemes rest value read
  exact shrinks_of_map (fun found => readNumber_shrinks _ _ found) read

theorem readText_shrinks : Shrinks readText := by
  intro lexemes rest value read
  unfold readText at read
  split at read
  · cases read
    exact Nat.le_succ _
  · cases read

theorem readBoolean_shrinks : Shrinks readBoolean := by
  intro lexemes rest value read
  unfold readBoolean at read
  split at read
  · cases read
    exact Nat.le_succ _
  · cases read

theorem readMoreBinaries_shrinks (precision : Precision) :
    Shrinks (readMoreBinaries precision) := by
  intro lexemes
  fun_induction readMoreBinaries precision lexemes with
  | case1 rest =>
      intro rest value read
      cases read
      exact Nat.le_succ _
  | case2 spelling rest flaw rounded =>
      intro rest value read
      cases read
  | case3 spelling later number rounded ih =>
      intro rest value read
      have shorter : rest.length ≤ later.length := shrinks_of_map (fun found => ih found) read
      simp only [List.length_cons]
      omega
  | case4 =>
      intro rest value read
      cases read
  | case5 =>
      intro rest value read
      cases read
  | case6 =>
      intro rest value read
      cases read

theorem readBinaries_shrinks (precision : Precision) : Shrinks (readBinaries precision) := by
  intro lexemes rest value read
  unfold readBinaries at read
  split at read
  · cases read
    simp only [List.length_cons]
    omega
  · split at read
    · cases read
    · rename_i found
      have firstShorter := readBinary_shrinks precision found
      have moreShorter :=
        shrinks_of_map (fun found => readMoreBinaries_shrinks precision found) read
      simp only [List.length_cons]
      omega
  · cases read

theorem skip_length {awaiting : Awaiting} {opened : List Bracket} {lexemes rest : List Lexeme}
    (skipped : skip awaiting opened lexemes = .ok rest) : rest.length ≤ lexemes.length := by
  fun_induction skip awaiting opened lexemes <;>
    simp_all [endOfText, malformed] <;> omega

end HalfMatrix.Json
