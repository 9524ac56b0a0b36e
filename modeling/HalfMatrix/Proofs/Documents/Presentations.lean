import HalfMatrix.Proofs.Documents.Accepted
import HalfMatrix.Proofs.Documents.Members

/-!
# Presentations of a table

The four members of the document of a table may stand in any order and with
foreign members among them, or their values in a list, and each lexeme may be
spelled and spaced in any way.  `loadTable_presentation` says that all of that
is loaded as the table.  A map in which one of the four names stands more than
once, or not at all, is refused by `loadTable_miscounted`.
-/

set_option autoImplicit false

namespace HalfMatrix

namespace Document

open Json

variable {precision : Precision} {n : Nat} {table : Table (Binary precision) n}

def fieldNames : List String := ["n", "uplo", "fill", "data"]

def fieldTokens (table : Table (Binary precision) n) : List (String × List Token) :=
  [("n", [.word n]),
    ("uplo", triangleTokens table.triangle),
    ("fill", [.text table.fill.name]),
    ("data", Token.list (table.entries.toList.map fun value => [numberToken value]))]

def tableFields (table : Table (Binary precision) n) : List (String × List Lexeme) :=
  lexed (fieldTokens table)

/-- The lexemes present the table: its members in any order and perhaps with others among
them, or their values alone in their order. -/
inductive Presentation (table : Table (Binary precision) n) : List Lexeme → Prop
  | map {members foreign : List (String × List Lexeme)}
      (order : members.Perm (tableFields table ++ foreign))
      (others : ∀ member ∈ foreign, member.1 ∉ fieldNames)
      (values : ∀ member ∈ foreign, IsValue member.2) : Presentation table (record members)
  | list : Presentation table (listOf ((tableFields table).map Prod.snd))

theorem names_tableFields (table : Table (Binary precision) n) :
    (tableFields table).map Prod.fst = fieldNames := rfl

theorem isValue_tableFields (table : Table (Binary precision) n) :
    ∀ member ∈ tableFields table, IsValue member.2 := by
  have data :
      IsValue ((Token.list (table.entries.toList.map fun value => [numberToken value])).map
        .token) := by
    rw [map_token_list, List.map_map]
    apply IsValue.list
    intro item given
    obtain ⟨value, _, rfl⟩ := List.mem_map.mp given
    exact .scalar trivial
  intro member given
  simp only [tableFields, lexed, fieldTokens, List.map_cons, List.map_nil, List.mem_cons,
    List.not_mem_nil, or_false] at given
  obtain rfl | rfl | rfl | rfl := given
  · exact .scalar trivial
  · exact .scalar (.inl ⟨_, rfl⟩)
  · exact .scalar (.inl ⟨_, rfl⟩)
  · exact data

theorem Presentation.isValue {lexemes : List Lexeme} (presentation : Presentation table lexemes) :
    IsValue lexemes := by
  cases presentation with
  | map order others values =>
      apply isValue_record
      intro member given
      obtain own | foreign := List.mem_append.mp (order.mem_iff.mp given)
      · exact isValue_tableFields table member own
      · exact values member foreign
  | list =>
      apply IsValue.list
      intro value given
      obtain ⟨member, own, rfl⟩ := List.mem_map.mp given
      exact isValue_tableFields table member own

theorem wellFormed_fieldTokens (finite : ∀ value ∈ table.entries.toList, value.isFinite) :
    ∀ member ∈ fieldTokens table, ∀ token ∈ member.2, token.WellFormed := by
  have data : ∀ token ∈ Token.list (table.entries.toList.map fun value => [numberToken value]),
      token.WellFormed := by
    apply Token.wellFormed_list
    intro item given
    obtain ⟨value, member, rfl⟩ := List.mem_map.mp given
    exact List.forall_mem_singleton.mpr
      (Decimal.Spelling.wellFormed_ofBinary _ (finite value member))
  simp only [fieldTokens, List.forall_mem_cons, List.not_mem_nil, false_imp_iff, implies_true,
    and_true]
  exact ⟨Decimal.Spelling.wellFormed_ofNat n, List.forall_mem_singleton.mpr trivial, trivial, data⟩

theorem presents_saved {text : String} (saved : saveTable? table = some text) :
    Presents (record (tableFields table)) text.toList := by
  obtain ⟨finite, rfl⟩ := saveTable?_eq_some_iff.mp saved
  rw [Token.render, String.toList_ofList]
  exact presents_map (List.forall_mem_nil _) (wellFormed_fieldTokens finite)

/-! ## Reading a presentation -/

def draftWith (table : Table (Binary precision) n) (names : List String) :
    TableDraft precision where
  dim := if "n" ∈ names then some n else none
  triangle := if "uplo" ∈ names then some table.triangle else none
  fill := if "fill" ∈ names then some table.fill.name else none
  entries := if "data" ∈ names then some table.entries.toList else none

theorem draftWith_of_all {names : List String} (all : ∀ field ∈ fieldNames, field ∈ names) :
    draftWith table names = draftWith table fieldNames := by
  simp only [fieldNames, List.forall_mem_cons] at all
  simp [draftWith, all, fieldNames]

/-- Whatever the order and whatever is among them, each of the four names stands once. -/
theorem count_of_order {members foreign : List (String × List Lexeme)}
    (order : members.Perm (tableFields table ++ foreign))
    (others : ∀ member ∈ foreign, member.1 ∉ fieldNames) :
    ∀ field ∈ fieldNames, (members.map Prod.fst).count field = 1 := by
  intro field own
  have unrelated : (foreign.map Prod.fst).count field = 0 := by
    apply List.count_eq_zero.mpr
    intro given
    obtain ⟨member, mem, rfl⟩ := List.mem_map.mp given
    exact others member mem own
  have single : ∀ field ∈ fieldNames, fieldNames.count field = 1 := by decide
  rw [(order.map Prod.fst).count_eq, List.map_append, names_tableFields, List.count_append,
    single field own, unrelated]

section Reading

variable (finite : ∀ value ∈ table.entries.toList, value.isFinite)

include finite

theorem accepts_field {name : String} {value : List Lexeme}
    (field : (name, value) ∈ tableFields table) {names : List String} (fresh : name ∉ names) :
    (tableSchema precision).Accepts (draftWith table names) name value
      (draftWith table (names ++ [name])) := by
  simp only [tableFields, lexed, fieldTokens, List.map_cons, List.map_nil, List.mem_cons,
    List.not_mem_nil, or_false, Prod.mk.injEq] at field
  obtain ⟨rfl, rfl⟩ | ⟨rfl, rfl⟩ | ⟨rfl, rfl⟩ | ⟨rfl, rfl⟩ := field
  · exact Schema.accepts_ofReader rfl (by simp [draftWith, fresh])
      (readWord_word (dim_lt table)) (by simp [draftWith])
  · exact Schema.accepts_ofReader rfl (by simp [draftWith, fresh])
      (readTriangle_name table.triangle) (by simp [draftWith])
  · exact Schema.accepts_ofReader rfl (by simp [draftWith, fresh])
      (readText_text table.fill.name) (by simp [draftWith])
  · have reads : ReadsBack (readBinaries precision) _ table.entries.toList :=
      readBinaries_spelled (Decimal.Layout.readable_stored precision) finite
    exact Schema.accepts_ofReader rfl (by simp [draftWith, fresh]) reads (by simp [draftWith])

omit finite in
theorem accepts_other {name : String} {value : List Lexeme} (other : name ∉ fieldNames)
    (isValue : IsValue value) (names : List String) :
    (tableSchema precision).Accepts (draftWith table names) name value
      (draftWith table (names ++ [name])) := by
  have apart : ∀ field ∈ fieldNames, field ≠ name := by
    rintro field own rfl
    exact other own
  simp only [fieldNames, List.forall_mem_cons] at apart
  have same : draftWith table (names ++ [name]) = draftWith table names := by
    simp [draftWith, apart]
  rw [same]
  refine Schema.accepts_foreign ?_ isValue
  simp [tableSchema, Member.ofReader, apart]

/-- Members in any order fill in the draft, if none of the four comes again. -/
theorem gathers_draftWith {members : List (String × List Lexeme)} {names : List String}
    (known : ∀ member ∈ members,
      member ∈ tableFields table ∨ member.1 ∉ fieldNames ∧ IsValue member.2)
    (once : ∀ field ∈ fieldNames, (names ++ members.map Prod.fst).count field ≤ 1) :
    (tableSchema precision).Gathers (draftWith table names) members
      (draftWith table (names ++ members.map Prod.fst)) := by
  -- `names` are those read before, so that none of the four among them comes again.
  induction members generalizing names with
  | nil =>
      rw [List.map_nil, List.append_nil]
      exact .nil _
  | cons member members ih =>
      obtain ⟨name, value⟩ := member
      obtain ⟨first, later⟩ := List.forall_mem_cons.mp known
      have listed : names ++ ((name, value) :: members).map Prod.fst =
          (names ++ [name]) ++ members.map Prod.fst := by simp
      rw [listed] at once ⊢
      refine .cons ?_ (ih later once)
      obtain field | ⟨other, isValue⟩ := first
      · refine accepts_field finite field fun seen => ?_
        have own : name ∈ fieldNames := by
          rw [← names_tableFields table]
          exact List.mem_map_of_mem field
        have twice := once name own
        have before := List.count_pos_iff.mpr seen
        rw [List.count_append, List.count_append, List.count_singleton_self] at twice
        omega
      · exact accepts_other other isValue names

theorem inOrder_tableFields :
    Schema.InOrder (tableSchema precision).members {} ((tableFields table).map Prod.snd)
      (draftWith table fieldNames) :=
  .cons (readsBack_ofReader (readWord_word (dim_lt table)) _)
    (.cons (readsBack_ofReader (readTriangle_name table.triangle) _)
      (.cons (readsBack_ofReader (readText_text table.fill.name) _)
        (.cons (readsBack_ofReader (readBinaries_spelled
          (Decimal.Layout.readable_stored precision) finite) _) (.nil _))))

theorem readTableRecord_presentation {lexemes : List Lexeme}
    (presentation : Presentation table lexemes) (rest : List Lexeme) :
    readTableRecord precision (lexemes ++ rest) = .ok (recordOf table, rest) := by
  have whole : (draftWith table fieldNames).finish = .ok (recordOf table) := rfl
  cases presentation with
  | @map members foreign order others values =>
      have once := count_of_order order others
      have known : ∀ member ∈ members,
          member ∈ tableFields table ∨ member.1 ∉ fieldNames ∧ IsValue member.2 := by
        intro member given
        obtain own | other := List.mem_append.mp (order.mem_iff.mp given)
        · exact .inl own
        · exact .inr ⟨others member other, values member other⟩
      have gathers : (tableSchema precision).Gathers (draftWith table []) members
          (draftWith table ([] ++ members.map Prod.fst)) :=
        gathers_draftWith finite known fun field own => Nat.le_of_eq (once field own)
      have blank : draftWith table [] = {} := by simp [draftWith]
      have there : ∀ field ∈ fieldNames, field ∈ members.map Prod.fst := fun field own =>
        List.count_pos_iff.mp (Nat.lt_of_lt_of_eq Nat.one_pos (once field own).symm)
      rw [List.nil_append, draftWith_of_all there, blank] at gathers
      simp only [readTableRecord, Schema.read_gathers gathers rest, whole]
      rfl
  | list =>
      have values : ∀ value ∈ (tableFields table).map Prod.snd, IsValue value := by
        intro value given
        obtain ⟨member, own, rfl⟩ := List.mem_map.mp given
        exact isValue_tableFields table member own
      simp only [readTableRecord, Schema.read_inOrder (inOrder_tableFields finite) values rest,
        whole]
      rfl

/-- Every presentation of a table is loaded as the table, with no view outstanding. -/
theorem loadTable_presentation {lexemes : List Lexeme} (presentation : Presentation table lexemes)
    {text : String} (presents : Presents lexemes text.toList) :
    loadTable precision table.fill text = .ok ⟨n, table.copy⟩ := by
  have read := readTableRecord_presentation finite presentation []
  rw [List.append_nil] at read
  have found : readDocument (readTableRecord precision) text = .ok (recordOf table) := by
    rw [readDocument, scan_presents presentation.isValue presents, read]
  have named : (recordOf table).fill = table.fill.name := rfl
  rw [loadTable_of_record found, if_pos named]
  simp only [recordOf, ofPacked_entries]
  rfl

end Reading

/-! ## Members that are missing or repeated -/

theorem careful_ofReader {Draft α : Type} {name : String} {place : Draft → Option α}
    {put : Draft → α → Draft} {read : Reader α} {shrinks : Shrinks read}
    (careful : Careful read) (draft : Draft) :
    Careful ((Member.ofReader name place put read shrinks).read draft) :=
  fun _ here _ _ _ unbroken whole => (careful here unbroken whole).map (put draft)

theorem put_of_ofReader {Draft α : Type} {name : String} {place : Draft → Option α}
    {put : Draft → α → Draft} {read : Reader α} {shrinks : Shrinks read} {draft next : Draft}
    {lexemes rest : List Lexeme}
    (found : (Member.ofReader name place put read shrinks).read draft lexemes =
      .ok (next, rest)) : ∃ value, next = put draft value := by
  cases outcome : read lexemes with
  | error problem => simp [Member.ofReader, outcome, Except.map] at found
  | ok given =>
      simp only [Member.ofReader, outcome, Except.map] at found
      cases found
      exact ⟨_, rfl⟩

theorem tableSchema_regular : (tableSchema precision).Regular where
  unique := by
    have names : (tableSchema precision).members.map Member.name = fieldNames := rfl
    rw [names]
    decide
  tracks := by
    simp only [tableSchema, List.forall_mem_cons, List.not_mem_nil, false_imp_iff, implies_true,
      and_true]
    refine ⟨?_, ?_, ?_, ?_⟩
    all_goals
      intro draft next lexemes rest found
      obtain ⟨value, rfl⟩ := put_of_ofReader found
      simp [Member.ofReader]
  careful := by
    simp only [tableSchema, List.forall_mem_cons, List.not_mem_nil, false_imp_iff, implies_true,
      and_true]
    exact ⟨careful_ofReader readWord_careful, careful_ofReader readTriangle_careful,
      careful_ofReader readText_careful, careful_ofReader (readBinaries_careful precision)⟩

theorem TableDraft.finish_of_lacking (draft : TableDraft precision) :
    ∀ member ∈ (tableSchema precision).members, member.isRead draft = false →
      ∃ name, draft.finish = .error (.misfit (.missingField name)) := by
  obtain ⟨dim, triangle, fill, entries⟩ := draft
  simp only [tableSchema, List.forall_mem_cons, List.not_mem_nil, false_imp_iff, implies_true,
    and_true, Member.ofReader]
  cases dim <;> cases triangle <;> cases fill <;> cases entries <;>
    simp [TableDraft.finish, require, bind, Except.bind]

theorem isRead_blank : ∀ member ∈ (tableSchema precision).members,
    member.isRead {} = false := by
  simp only [tableSchema, List.forall_mem_cons, List.not_mem_nil, false_imp_iff, implies_true,
    and_true, Member.ofReader, Option.isSome_none]

theorem readTableRecord_miscounted {members : List (String × List Lexeme)}
    (values : ∀ member ∈ members, IsValue member.2) {field : String} (own : field ∈ fieldNames)
    (miscounted : (members.map Prod.fst).count field ≠ 1) (unbroken : Unbroken (record members)) :
    ∃ problem, readTableRecord precision (record members) = .error problem ∧
      problem ≠ .flaw .endOfText := by
  have counted : (tableSchema precision).Counted {} _ [] _ :=
    Schema.read_counted tableSchema_regular values (by rwa [List.append_nil])
  rw [List.append_nil] at counted
  unfold readTableRecord
  generalize (tableSchema precision).read {} (record members) = outcome at counted ⊢
  cases counted with
  | refused early => exact ⟨_, rfl, early⟩
  | @taken draft counts =>
      have names : (tableSchema precision).members.map Member.name = fieldNames := rfl
      obtain ⟨member, mem, rfl⟩ := List.mem_map.mp (names ▸ own)
      have lacking : member.isRead draft = false := by
        have count := counts member mem
        cases read : member.isRead draft with
        | false => rfl
        | true =>
            rw [isRead_blank member mem, read, Bool.toNat_false, Bool.toNat_true,
              Nat.zero_add] at count
            exact absurd count miscounted
      obtain ⟨name, lacks⟩ := draft.finish_of_lacking member mem lacking
      refine ⟨.misfit (.missingField name), ?_, by simp⟩
      simp only [lacks]
      rfl

/-- A map of whole values in which one of the four names does not stand exactly once is
refused, and not because the text ended. -/
theorem loadTable_miscounted {members : List (String × List Lexeme)}
    (values : ∀ member ∈ members, IsValue member.2) {field : String} (own : field ∈ fieldNames)
    (miscounted : (members.map Prod.fst).count field ≠ 1) {text : String}
    (presents : Presents (record members) text.toList) (precision : Precision) (fill : Fill) :
    ∃ error, loadTable precision fill text = .error error ∧
      error ≠ .document (.flaw .endOfText) := by
  obtain ⟨problem, refused, early⟩ : ∃ problem, readTableRecord precision _ = .error problem ∧ _ :=
    readTableRecord_miscounted values own miscounted presents.unbroken
  refine ⟨.document problem, ?_, by simpa using early⟩
  simp only [loadTable, readDocument, scan_presents (isValue_record values) presents, refused]
  rfl

end Document

end HalfMatrix
