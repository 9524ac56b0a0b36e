import HalfMatrix.Json.Record
import HalfMatrix.Proofs.Documents.Grammar

/-!
# Reading written values

A reader undoes the writing of a value if it takes the written lexemes off the
front of any sequence.  A document with one value is then accepted exactly if
nothing but blanks follows what was written.  A record is read from one member
to the next.
-/

set_option autoImplicit false

namespace HalfMatrix.Json

open Decimal (Spelling)

/-- The reader gets the value from these tokens, whatever follows them. -/
def ReadsBack {α : Type} (read : Reader α) (tokens : List Token) (value : α) : Prop :=
  ∀ rest : List Lexeme, read (tokens.map .token ++ rest) = .ok (value, rest)

/-! ## Single values -/

theorem readWord_word {value : Nat} (bound : value < Word.modulus) :
    ReadsBack readWord [.word value] value := by
  intro rest
  simp [readWord, readNumber, Token.word, Decimal.ofSpelling_ofNat bound]

theorem readText_text (value : String) : ReadsBack readText [.text value] value := by
  intro rest
  rfl

theorem readBoolean_boolean (value : Bool) : ReadsBack readBoolean [.boolean value] value := by
  intro rest
  rfl

theorem readOptionalWord_elim {value : Option Nat} (bound : ∀ word ∈ value, word < Word.modulus) :
    ReadsBack readOptionalWord [value.elim .null .word] value := by
  intro rest
  cases value with
  | none => rfl
  | some word =>
      have read := readWord_word (bound word rfl) rest
      rw [Option.elim_some, readOptionalWord, read]
      · rfl
      · rintro later ⟨⟩

theorem readBinary_spelling {precision : Precision} {layout : Decimal.Layout}
    (readable : layout.Readable precision) {number : Binary precision}
    (finite : number.isFinite) :
    ReadsBack (readBinary precision) [.number (.ofBinary layout number)] number := by
  intro rest
  simp [readBinary, readNumber, Decimal.ofSpelling_ofBinary readable finite, Except.map,
    Number.toBinary]

/-! ## Lists of numbers -/

section Lists

variable {precision : Precision} {layout : Decimal.Layout}

theorem readMoreBinaries_followed (readable : layout.Readable precision)
    {numbers : List (Binary precision)} (finite : ∀ number ∈ numbers, number.isFinite)
    (rest : List Lexeme) :
    readMoreBinaries precision
        (followed .closeList
          (numbers.map fun number => [.token (.number (.ofBinary layout number))]) ++ rest) =
      .ok (numbers, rest) := by
  induction numbers with
  | nil => simp [followed, readMoreBinaries]
  | cons number numbers ih =>
      obtain ⟨first, finiteLater⟩ := List.forall_mem_cons.mp finite
      have read := Decimal.ofSpelling_ofBinary readable first
      have later := ih finiteLater
      simp [followed, readMoreBinaries, read, later, Except.map, Number.toBinary]

theorem readBinaries_spelled (readable : layout.Readable precision)
    {numbers : List (Binary precision)} (finite : ∀ number ∈ numbers, number.isFinite) :
    ReadsBack (readBinaries precision)
      (Token.list (numbers.map fun number => [.number (.ofBinary layout number)])) numbers := by
  intro rest
  rw [map_token_list, List.map_map]
  cases numbers with
  | nil => rfl
  | cons number numbers =>
      obtain ⟨first, finiteLater⟩ := List.forall_mem_cons.mp finite
      have read (rest : List Lexeme) := readBinary_spelling readable first rest
      have later := readMoreBinaries_followed readable finiteLater rest
      simp only [List.map_cons, List.map_nil, List.singleton_append] at read
      simp [listOf, enclosed, Function.comp_def, readBinaries, read, later, Except.map]

end Lists

/-! ## Records -/

namespace Schema

variable {Draft : Type}

theorem readMembers_named (schema : Schema Draft) (draft : Draft) (name : String)
    (rest : List Lexeme) :
    schema.readMembers draft (.token (.text name) :: rest) =
      match schema.readMember draft name rest with
      | .error problem => .error problem
      | .ok (extended, .token .closeMap :: rest) => .ok (extended, rest)
      | .ok (extended, .token .comma :: rest) => schema.readMembers extended rest
      | .ok (_, []) => endOfText
      | .ok (_, _) => malformed := by
  rw [readMembers]
  split <;> simp_all

theorem readInOrder_cons (schema : Schema Draft) (read : Nat) (member : Member Draft)
    (members : List (Member Draft)) (draft : Draft) {lexemes : List Lexeme}
    (unclosed : ∀ rest, lexemes ≠ .token .closeList :: rest) :
    schema.readInOrder read (member :: members) draft lexemes =
      nextValue read lexemes >>= fun value =>
        member.read draft value >>= fun found =>
          schema.readInOrder (read + 1) members found.1 found.2 := by
  rw [readInOrder]
  · cases nextValue read lexemes with
    | error problem => rfl
    | ok value =>
        simp only [bind, Except.bind]
        cases member.read draft value <;> rfl
  · exact unclosed

end Schema

/-! ## Documents -/

/-- A document that begins with a written value holds it if only blanks follow,
and is malformed otherwise. -/
theorem readDocument_append {α : Type} {read : Reader α} {tokens : List Token} {value : α}
    (scans : ∀ rest : List Char, Lexeme.scan (tokens.flatMap Token.chars ++ rest) =
      tokens.map .token ++ Lexeme.scan rest)
    (reads : ReadsBack read tokens value) (rest : String) :
    readDocument read (Token.render tokens ++ rest) =
      if rest.toList.all Lexeme.isBlank then .ok value else malformed := by
  have chars : (Token.render tokens ++ rest).toList =
      tokens.flatMap Token.chars ++ rest.toList := by
    simp [Token.render]
  simp only [readDocument, chars, scans, reads (Lexeme.scan rest.toList)]
  split_ifs with blank
  · rw [(Lexeme.scan_eq_nil_iff _).mpr (List.all_eq_true.mp blank)]
  · cases scanned : Lexeme.scan rest.toList with
    | nil => exact absurd (List.all_eq_true.mpr ((Lexeme.scan_eq_nil_iff _).mp scanned)) blank
    | cons lexeme lexemes => rfl

end HalfMatrix.Json
