import HalfMatrix.Json.Reader

/-!
# Reading records

A record is written as a map from the names of its members to their values, in
any order and with foreign members among them, or as a list of the values in
the order of the members.  What is read is collected in a draft.
-/

set_option autoImplicit false

namespace HalfMatrix.Json

/-- A member of a record: its name, whether a draft has it already, and how it
is read into a draft. -/
structure Member (Draft : Type) where
  name : String
  isRead : Draft → Bool
  read : Draft → Reader Draft
  shrinks : ∀ draft : Draft, Shrinks (read draft)

def Member.ofReader {Draft α : Type} (name : String) (place : Draft → Option α)
    (put : Draft → α → Draft) (read : Reader α) (shrinks : Shrinks read) : Member Draft where
  name := name
  isRead draft := (place draft).isSome
  read draft lexemes := (read lexemes).map fun (value, rest) => (put draft value, rest)
  shrinks _ := by
    intro lexemes rest value found
    exact shrinks_of_map (fun found => shrinks found) found

/-- A record: what it is called where another value stands in its place, its
members, and what is wrong with a list that ends after some of their values. -/
structure Schema (Draft : Type) where
  title : String
  members : List (Member Draft)
  short : Nat → Option Problem

namespace Schema

variable {Draft : Type}

def afterColon : List Lexeme → Except Problem (List Lexeme)
  | .token .colon :: rest => .ok rest
  | [] => endOfText
  | _ => malformed

/-- Reads what follows the name of a member.  The value of a foreign member is
skipped. -/
def readMember (schema : Schema Draft) (draft : Draft) (name : String)
    (lexemes : List Lexeme) : Outcome Draft :=
  match schema.members.find? fun member => member.name == name with
  | some member =>
      if member.isRead draft then .error (.misfit (.duplicateField name))
      else
        match afterColon lexemes with
        | .error problem => .error problem
        | .ok value => member.read draft value
  | none =>
      match afterColon lexemes with
      | .error problem => .error problem
      | .ok value => (skipValue value).map fun rest => (draft, rest)

theorem afterColon_length {lexemes rest : List Lexeme} (found : afterColon lexemes = .ok rest) :
    rest.length < lexemes.length := by
  unfold afterColon at found
  split at found <;> cases found
  exact Nat.lt_succ_self _

theorem readMember_shrinks (schema : Schema Draft) (draft : Draft) (name : String) :
    Shrinks (schema.readMember draft name) := by
  intro lexemes rest value read
  unfold readMember at read
  split at read
  · rename_i member _
    split at read
    · cases read
    · split at read
      · cases read
      · rename_i found
        have shorter := member.shrinks draft read
        have start := afterColon_length found
        omega
  · split at read
    · cases read
    · rename_i later found
      have start := afterColon_length found
      cases skipped : skipValue later with
      | error problem => simp [skipped, Except.map] at read
      | ok after =>
          have shorter := skip_length skipped
          simp only [skipped, Except.map] at read
          cases read
          omega

def readMembers (schema : Schema Draft) (draft : Draft) (lexemes : List Lexeme) :
    Outcome Draft :=
  match lexemes with
  | .token (.text name) :: rest =>
      match _ : schema.readMember draft name rest with
      | .error problem => .error problem
      | .ok (extended, .token .closeMap :: rest) => .ok (extended, rest)
      | .ok (extended, .token .comma :: rest) => readMembers schema extended rest
      | .ok (_, []) => endOfText
      | .ok (_, _) => malformed
  | .flawed (.text flaw _) :: _ => .error (.flaw flaw)
  | [] => endOfText
  | _ => malformed
termination_by lexemes.length
decreasing_by
  rename_i found
  have shorter := readMember_shrinks schema draft name found
  simp only [List.length_cons] at *
  omega

/-- Where the next value of a list begins of which so many values were read. -/
def nextValue : Nat → List Lexeme → Except Problem (List Lexeme)
  | 0, lexemes => .ok lexemes
  | _, .token .comma :: .token .closeList :: _ => malformed
  | _, .token .comma :: rest => .ok rest
  | _, [] => endOfText
  | _, _ => malformed

/-- Reads the values of members in their order, up to the end of the list.  The
list may end early if `short` does not object. -/
def readInOrder (schema : Schema Draft) (read : Nat) :
    List (Member Draft) → Draft → Reader Draft
  | [], draft, .token .closeList :: rest => .ok (draft, rest)
  | [], _, [] => endOfText
  | [], _, _ => malformed
  | _ :: _, draft, .token .closeList :: rest =>
      match schema.short read with
      | none => .ok (draft, rest)
      | some problem => .error problem
  | member :: members, draft, lexemes =>
      match nextValue read lexemes with
      | .error problem => .error problem
      | .ok value =>
          match member.read draft value with
          | .error problem => .error problem
          | .ok (draft, rest) => readInOrder schema (read + 1) members draft rest

def read (schema : Schema Draft) (draft : Draft) : Reader Draft
  | .token .openMap :: .token .closeMap :: rest => .ok (draft, rest)
  | .token .openMap :: rest => schema.readMembers draft rest
  | .token .openList :: rest => schema.readInOrder 0 schema.members draft rest
  | lexemes => .error (unexpected schema.title lexemes)

end Schema

def readDocument {α : Type} (read : Reader α) (text : String) : Except Problem α :=
  match read (Lexeme.scan text.toList) with
  | .error problem => .error problem
  | .ok (value, []) => .ok value
  | .ok (_, _ :: _) => malformed

end HalfMatrix.Json
