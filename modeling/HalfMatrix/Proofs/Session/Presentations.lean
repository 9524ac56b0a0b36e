import HalfMatrix.Proofs.Documents.Presentations
import HalfMatrix.Proofs.Session.Loading

/-!
# The presentation of a document does not show

A load gives the same table for every presentation of it, and refuses every map
of whole values in which one of the four names of a table is missing or
repeated.
-/

set_option autoImplicit false

namespace HalfMatrix.Session

open Document (Presentation fieldNames fieldTokens tableFields)
open Json (IsValue Lexeme Presents Token)

variable {text : String} {owner : SomeTable}

/-- What a text that a file holds from its cursor on has to do with the table. -/
structure LoadsPresented (session : Session) (file text : String) (owner : SomeTable) : Prop where
  /-- Whatever presents the table is loaded as the table, bit for bit, with no view outstanding. -/
  accepted : ∀ lexemes, Presentation owner.table lexemes → Presents lexemes text.toList →
    ∀ target : String,
      let made : SomeTable := { owner with table := owner.table.copy }
      let stepped := session.step (.load target file owner.precision owner.table.fill)
      stepped.1.answer = .ok made.created ∧ stepped.1.outstanding = some 0 ∧
        stepped.2.tables.find? target = some made
  /-- A map of whole values is refused, whatever table is asked for, if one of the four names
  does not stand in it exactly once. -/
  refused : ∀ (members : List (String × List Lexeme)) (field : String),
    (∀ member ∈ members, IsValue member.2) → field ∈ fieldNames →
      (members.map Prod.fst).count field ≠ 1 → Presents (Json.record members) text.toList →
        ∀ target precision fill,
          FailsWith session (session.step (.load target file precision fill)) .invalidData

theorem loadTable_of_presentation {bytes : ByteArray}
    (finite : ∀ value ∈ owner.table.entries.toList, value.isFinite) {lexemes : List Lexeme}
    (presentation : Presentation owner.table lexemes) (presents : Presents lexemes text.toList)
    (held : text.toByteArray = bytes) :
    loadTable owner.precision owner.table.fill bytes =
      .ok { owner with table := owner.table.copy } :=
  loadTable_eq_ok_iff.mpr
    ⟨text, _, held, Document.loadTable_presentation finite presentation presents, rfl⟩

/-- The document of a finite table is one text of its members, and every other text of them is
loaded just as well. -/
theorem presentations_load_alike (session : Session) {file : String} {number : Nat}
    {source : File} (opened : session.file? file = .ok (number, source)) {owner : SomeTable}
    (finite : ∀ value ∈ owner.table.entries.toList, value.isFinite) {text : String}
    (held : text.toByteArray = source.remaining) :
    (∃ saved, Document.saveTable? owner.table = some saved ∧
      Presents (Json.record (tableFields owner.table)) saved.toList) ∧
      session.LoadsPresented file text owner := by
  constructor
  · have saved := Document.saveTable?_eq_some_iff.mpr ⟨finite, rfl⟩
    exact ⟨_, saved, Document.presents_saved saved⟩
  · constructor
    · intro lexemes presentation presents target
      have loaded := loadTable_of_presentation finite presentation presents held
      simp only [step_load opened target owner.precision owner.table.fill loaded]
      exact ⟨rfl, rfl, Names.find?_insert_name _ _ _⟩
    · intro members field values own miscounted presents target precision fill
      obtain ⟨error, refused, early⟩ :=
        Document.loadTable_miscounted values own miscounted presents precision fill
      exact failsWith_load opened target (loadTable_of_refused held refused) (ioKind?_load early)

def spaced (tokens : List Token) : String :=
  String.ofList (tokens.flatMap fun token => ['\n', ' '] ++ token.chars)

theorem presents_spaced_map {members : List (String × List Token)}
    (wellFormed : ∀ member ∈ members, ∀ token ∈ member.2, token.WellFormed) :
    Presents (Json.record (Json.lexed members)) (spaced (Token.map members)).toList := by
  have blank : ∀ char ∈ ['\n', ' '], Lexeme.isBlank char :=
    List.forall_mem_cons.mpr ⟨rfl, List.forall_mem_singleton.mpr rfl⟩
  rw [spaced, String.toList_ofList]
  exact Json.presents_map blank wellFormed

/-- A member that no table has, though the value in it has one of the name of a dimension. -/
def foreignMember : String × List Token := ("x", Token.map [("n", Token.list [[.null]])])

theorem isValue_foreignMember : IsValue (foreignMember.2.map Lexeme.token) := by
  rw [foreignMember, Json.map_token_map]
  apply Json.isValue_record
  have value : IsValue ((Token.list [[.null]]).map Lexeme.token) := by
    rw [Json.map_token_list]
    exact .list (List.forall_mem_singleton.mpr (.scalar trivial))
  exact List.forall_mem_singleton.mpr value

def withMembers (members : List (String × List Token)) : Session :=
  initial.addFile "f" (shelved (spaced (Token.map members)))

def backwards : List (String × List Token) :=
  (fieldTokens negativeZero.table ++ [foreignMember]).reverse

def repeated : List (String × List Token) := ("n", [.null]) :: fieldTokens negativeZero.table

theorem negative_zero_loads_backwards :
    ((withMembers backwards).step
        (.load "t" "f" negativeZero.precision negativeZero.table.fill)).1.answer =
          .ok negativeZero.created ∧
      FailsWith (withMembers repeated)
        ((withMembers repeated).step (.load "t" "f" .single .symmetric)) .invalidData := by
  have finite : ∀ value ∈ negativeZero.table.entries.toList, value.isFinite := by decide
  have wellFormed := Document.wellFormed_fieldTokens finite
  have loads : ∀ members, (withMembers members).LoadsPresented "f" (spaced (Token.map members))
      negativeZero := by
    intro members
    have opened : (withMembers members).file? "f" =
      .ok (0, shelved (spaced (Token.map members))) := rfl
    exact (presentations_load_alike _ opened finite (remaining_shelved _).symm).2
  constructor
  · have order : (Json.lexed backwards).Perm
        (Json.lexed (fieldTokens negativeZero.table ++ [foreignMember])) :=
      (fieldTokens negativeZero.table ++ [foreignMember]).reverse_perm.map _
    rw [Json.lexed_append] at order
    have presentation : Presentation negativeZero.table (Json.record (Json.lexed backwards)) :=
      .map order (List.forall_mem_singleton.mpr (by decide))
        (List.forall_mem_singleton.mpr isValue_foreignMember)
    have each : ∀ member ∈ backwards, ∀ token ∈ member.2, token.WellFormed := by
      intro member given
      refine List.forall_mem_append.mpr ⟨wellFormed, List.forall_mem_singleton.mpr ?_⟩ member
        (List.mem_reverse.mp given)
      exact Token.wellFormed_map (by simp [Token.list, Token.WellFormed])
    exact ((loads backwards).accepted _ presentation (presents_spaced_map each) "t").1
  · have values : ∀ member ∈ Json.lexed repeated, IsValue member.2 :=
      List.forall_mem_cons.mpr ⟨.scalar trivial, Document.isValue_tableFields _⟩
    have twice : ((Json.lexed repeated).map Prod.fst).count "n" ≠ 1 := by
      have names : (Json.lexed repeated).map Prod.fst = "n" :: fieldNames := rfl
      rw [names]
      decide
    have each : ∀ member ∈ repeated, ∀ token ∈ member.2, token.WellFormed :=
      List.forall_mem_cons.mpr ⟨List.forall_mem_singleton.mpr trivial, wellFormed⟩
    exact (loads repeated).refused _ "n" values (by decide) twice (presents_spaced_map each)
      "t" .single .symmetric

end HalfMatrix.Session
