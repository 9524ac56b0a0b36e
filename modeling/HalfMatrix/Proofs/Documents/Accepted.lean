import HalfMatrix.Proofs.Decimals.Finiteness
import HalfMatrix.Proofs.Documents.Tables

/-!
# What an accepted document holds

Reading a record keeps whatever the readers of its members keep, however the
record is written.  So the entries of a table are finite as soon as they have
been read.  The other demands on a table, its fill and the number of its
entries, are made afterwards, and `loadTable_eq_ok_iff` states them all.
-/

set_option autoImplicit false

namespace HalfMatrix

namespace Json

def Yields {α : Type} (read : Reader α) (kept : α → Prop) : Prop :=
  ∀ ⦃lexemes rest : List Lexeme⦄ ⦃value : α⦄, read lexemes = .ok (value, rest) → kept value

theorem kept_of_map {α β : Type} (kept : β → Prop) {read : Outcome α} {convert : α → β}
    {rest : List Lexeme} {value : β}
    (keeps : ∀ {rest : List Lexeme} {value : α}, read = .ok (value, rest) → kept (convert value))
    (mapped : (read.map fun (value, rest) => (convert value, rest)) = .ok (value, rest)) :
    kept value := by
  cases read with
  | error problem => cases mapped
  | ok pair =>
      cases mapped
      exact keeps rfl

/-! ## Lists of numbers -/

theorem readBinary_finite (precision : Precision) :
    Yields (readBinary precision) fun number => number.isFinite := by
  intro lexemes rest value read
  refine kept_of_map (fun number : Binary precision => number.isFinite) ?_ read
  intro rest number found
  unfold readNumber at found
  split at found
  · split at found
    · rename_i spelled
      cases found
      exact Number.isFinite_ofSpelling spelled
    · cases found
  · cases found

theorem readMoreBinaries_finite (precision : Precision) :
    Yields (readMoreBinaries precision) fun numbers => ∀ number ∈ numbers, number.isFinite := by
  intro lexemes
  fun_induction readMoreBinaries precision lexemes with
  | case1 rest =>
      intro rest value read
      cases read
      exact fun number member => absurd member List.not_mem_nil
  | case2 spelling rest flaw rounded =>
      intro rest value read
      cases read
  | case3 spelling later number rounded ih =>
      intro rest value read
      refine kept_of_map (fun numbers : List (Binary precision) =>
        ∀ number ∈ numbers, number.isFinite) ?_ read
      intro rest numbers found
      exact List.forall_mem_cons.mpr ⟨Number.isFinite_ofSpelling rounded, ih found⟩
  | case4 =>
      intro rest value read
      cases read
  | case5 =>
      intro rest value read
      cases read
  | case6 =>
      intro rest value read
      cases read

theorem readBinaries_finite (precision : Precision) :
    Yields (readBinaries precision) fun numbers => ∀ number ∈ numbers, number.isFinite := by
  intro lexemes rest value read
  unfold readBinaries at read
  split at read
  · cases read
    exact fun number member => absurd member List.not_mem_nil
  · split at read
    · cases read
    · rename_i first
      refine kept_of_map (fun numbers : List (Binary precision) =>
        ∀ number ∈ numbers, number.isFinite) ?_ read
      intro rest numbers found
      exact List.forall_mem_cons.mpr
        ⟨readBinary_finite precision first, readMoreBinaries_finite precision found⟩
  · cases read

/-! ## Records -/

namespace Schema

variable {Draft : Type} {schema : Schema Draft} {kept : Draft → Prop}

/-- No member, when it is read, takes from a draft that it is `kept`. -/
def Keeps (schema : Schema Draft) (kept : Draft → Prop) : Prop :=
  ∀ member ∈ schema.members, ∀ draft, kept draft → Yields (member.read draft) kept

theorem readMember_keeps (keeps : schema.Keeps kept) {draft : Draft} (start : kept draft)
    (name : String) : Yields (schema.readMember draft name) kept := by
  intro lexemes rest value read
  unfold readMember at read
  split at read
  · rename_i member found
    split at read
    · cases read
    · split at read
      · cases read
      · exact keeps member (List.mem_of_find?_eq_some found) draft start read
  · split at read
    · cases read
    · -- A foreign member leaves the draft as it is.
      rename_i later _
      cases skipped : skipValue later with
      | error problem => simp [skipped, Except.map] at read
      | ok after =>
          simp only [skipped, Except.map] at read
          cases read
          exact start

theorem readMembers_keeps (keeps : schema.Keeps kept) {draft : Draft} (start : kept draft) :
    Yields (schema.readMembers draft) kept := by
  intro lexemes
  fun_induction schema.readMembers draft lexemes with
  | case2 draft name rest extended later found =>
      -- The map ends.
      intro rest value read
      cases read
      exact readMember_keeps keeps start name found
  | case3 draft name rest extended later found ih =>
      exact ih (readMember_keeps keeps start name found)
  | case1 | case4 | case5 | case6 | case7 | case8 =>
      intro rest value read
      cases read

theorem readInOrder_keeps (keeps : schema.Keeps kept) {members : List (Member Draft)}
    (own : ∀ member ∈ members, member ∈ schema.members) {read : Nat} {draft : Draft}
    (start : kept draft) : Yields (schema.readInOrder read members draft) kept := by
  intro lexemes
  fun_induction schema.readInOrder read members draft lexemes with
  | case1 | case4 =>
      -- The list ends, perhaps before its last members.
      intro rest value found
      cases found
      exact start
  | case8 read member members draft lexemes unended value begins next later found ih =>
      have first := keeps member (own member List.mem_cons_self) draft start found
      exact ih (fun other mem => own other (List.mem_cons_of_mem _ mem)) first
  | case2 | case3 | case5 | case6 | case7 =>
      intro rest value found
      cases found

/-- A record keeps what each of its members keeps. -/
theorem read_keeps (keeps : schema.Keeps kept) {draft : Draft} (start : kept draft) :
    Yields (schema.read draft) kept := by
  intro lexemes rest value found
  unfold read at found
  split at found
  · cases found
    exact start
  · exact readMembers_keeps keeps start found
  · exact readInOrder_keeps keeps (fun _ member => member) start found
  · cases found

end Schema

theorem kept_of_readDocument {α : Type} {read : Reader α} {kept : α → Prop} {text : String}
    {value : α} (yields : Yields read kept) (found : readDocument read text = .ok value) :
    kept value := by
  unfold readDocument at found
  split at found
  · cases found
  · rename_i accepted
    cases found
    exact yields accepted
  · cases found

end Json

/-! ## Tables -/

theorem Table.ofPacked_eq_error_iff {α : Type} {n : Nat} {fill : Fill} {triangle : Triangle}
    {data : Array α} {error : TableError} :
    (ofPacked fill triangle n data : Except TableError (Table α n)) = .error error ↔
      (Word.modulus ≤ n * (n + 1) ∨ data.size ≠ Packing.triangular n) ∧
        error = .sizeMismatch data.size n := by
  unfold ofPacked
  by_cases accepted : Packing.size? n = some data.size
  · obtain ⟨fits, size⟩ := Packing.size?_eq_some_iff.mp accepted
    rw [dif_pos accepted]
    simp only [reduceCtorEq, false_iff, not_and]
    intro wrong
    rcases wrong with overflow | other
    · omega
    · exact absurd size other
  · have wrong : Word.modulus ≤ n * (n + 1) ∨ data.size ≠ Packing.triangular n := by
      by_cases fits : n * (n + 1) < Word.modulus
      · exact Or.inr fun size => accepted (Packing.size?_eq_some_iff.mpr ⟨fits, size⟩)
      · exact Or.inl (Nat.le_of_not_lt fits)
    rw [dif_neg accepted]
    simp only [Except.error.injEq, wrong, true_and]
    exact eq_comm

namespace Document

open Json

variable {precision : Precision}

def TableDraft.Finite (draft : TableDraft precision) : Prop :=
  ∀ entries, draft.entries = some entries → ∀ value ∈ entries, value.isFinite

theorem yields_ofReader {Draft α : Type} {name : String} {place : Draft → Option α}
    {put : Draft → α → Draft} {read : Reader α} {shrinks : Shrinks read} {given : α → Prop}
    {kept : Draft → Prop} {draft : Draft} (yields : Yields read given)
    (keeps : ∀ value, given value → kept (put draft value)) :
    Yields ((Member.ofReader name place put read shrinks).read draft) kept := by
  intro lexemes rest next found
  exact kept_of_map kept (fun read => keeps _ (yields read)) found

theorem tableSchema_keeps_finite : (tableSchema precision).Keeps TableDraft.Finite := by
  intro member own draft finite
  have anything : ∀ {α : Type} (read : Reader α), Yields read fun _ => True :=
    fun _ _ _ _ _ => trivial
  simp only [tableSchema, List.mem_cons, List.not_mem_nil, or_false] at own
  rcases own with rfl | rfl | rfl | rfl
  · exact yields_ofReader (anything readWord) fun _ _ => finite
  · exact yields_ofReader (anything readTriangle) fun _ _ => finite
  · exact yields_ofReader (anything readText) fun _ _ => finite
  · refine yields_ofReader (readBinaries_finite precision) fun entries read others same => ?_
    cases same
    exact read

theorem TableDraft.entries_of_finish {draft : TableDraft precision}
    {record : TableRecord precision} (complete : draft.finish = .ok record) :
    draft.entries = some record.entries := by
  obtain ⟨dim, triangle, fill, entries⟩ := draft
  cases dim <;> cases triangle <;> cases fill <;> cases entries <;> cases complete
  rfl

theorem readTableRecord_finite (precision : Precision) :
    Yields (readTableRecord precision) fun record => ∀ value ∈ record.entries, value.isFinite := by
  intro lexemes rest record found
  unfold readTableRecord at found
  split at found
  · cases found
  · rename_i draft later read
    have blank : TableDraft.Finite ({} : TableDraft precision) := by
      intro entries none
      cases none
    have finite : draft.Finite := Schema.read_keeps tableSchema_keeps_finite blank read
    cases complete : draft.finish with
    | error problem => simp [complete, Except.map] at found
    | ok whole =>
        simp only [complete, Except.map] at found
        cases found
        exact finite _ (TableDraft.entries_of_finish complete)

theorem loadTable_of_record {fill : Fill} {text : String} {record : TableRecord precision}
    (found : readDocument (readTableRecord precision) text = .ok record) :
    loadTable precision fill text =
      if record.fill = fill.name then
        ((Table.ofPacked fill record.triangle record.dim record.entries.toArray).mapError
          LoadError.table).map fun table => ⟨record.dim, table⟩
      else .error (.wrongFill fill record.fill) := by
  simp only [loadTable, found, Except.mapError, bind, Except.bind]
  split_ifs
  · cases Table.ofPacked fill record.triangle record.dim record.entries.toArray <;> rfl
  · rfl

/-- The table is made of a record that has the fill asked for. -/
structure AnyTable.MadeOf (loaded : AnyTable (Binary precision)) (fill : Fill)
    (record : TableRecord precision) : Prop where
  named : record.fill = fill.name
  fits : record.dim * (record.dim + 1) < Word.modulus
  length : record.entries.length = record.dim * (record.dim + 1) / 2
  dim : loaded.dim = record.dim
  fill : loaded.table.fill = fill
  triangle : loaded.table.triangle = record.triangle
  entries : loaded.table.entries.toList = record.entries
  unlent : loaded.table.ledger = .empty
  finite : ∀ value ∈ loaded.table.entries.toList, value.isFinite

theorem loadTable_eq_ok_iff {fill : Fill} {text : String} {loaded : AnyTable (Binary precision)} :
    loadTable precision fill text = .ok loaded ↔
      ∃ record, readDocument (readTableRecord precision) text = .ok record ∧
        loaded.MadeOf fill record := by
  constructor
  · intro accepted
    cases found : readDocument (readTableRecord precision) text with
    | error problem =>
        simp [loadTable, found, Except.mapError, bind, Except.bind] at accepted
    | ok record =>
        refine ⟨record, rfl, ?_⟩
        have finite := kept_of_readDocument (readTableRecord_finite precision) found
        rw [loadTable_of_record found] at accepted
        split_ifs at accepted with named
        cases made : Table.ofPacked fill record.triangle record.dim record.entries.toArray with
        | error error => simp [made, Except.mapError, Except.map] at accepted
        | ok table =>
            simp only [made, Except.mapError, Except.map] at accepted
            cases accepted
            obtain ⟨fits, sameFill, triangle, entries, unlent⟩ := Table.ofPacked_eq_ok_iff.mp made
            have list : table.entries.toList = record.entries := congrArg Array.toList entries
            refine ⟨named, fits, ?_, rfl, sameFill, triangle, list, unlent, ?_⟩
            · rw [← list, Vector.length_toList]
              rfl
            · rw [list]
              exact finite
  · rintro ⟨record, found, made⟩
    obtain ⟨dim, table⟩ := loaded
    obtain rfl : dim = record.dim := made.dim
    have packed : Table.ofPacked fill record.triangle record.dim record.entries.toArray =
        .ok table :=
      Table.ofPacked_eq_ok_iff.mpr ⟨made.fits, made.fill, made.triangle,
        Array.toList_inj.mp made.entries, made.unlent⟩
    rw [loadTable_of_record found, if_pos made.named, packed]
    rfl

/-- A text that holds a record is refused for its fill, the number of its
entries and a dimension that is too great. -/
theorem loadTable_refuses {fill : Fill} {text : String} {record : TableRecord precision}
    (found : readDocument (readTableRecord precision) text = .ok record)
    (wrong : record.fill ≠ fill.name ∨
      record.entries.length ≠ record.dim * (record.dim + 1) / 2 ∨
      Word.modulus ≤ record.dim * (record.dim + 1)) :
    ∃ error, loadTable precision fill text = .error error ∧
      ∀ problem, error ≠ .document problem := by
  rw [loadTable_of_record found]
  split_ifs with named
  · have misfit : Word.modulus ≤ record.dim * (record.dim + 1) ∨
        record.entries.toArray.size ≠ Packing.triangular record.dim := by
      rcases wrong with other | length | overflow
      · exact absurd named other
      · exact Or.inr length
      · exact Or.inl overflow
    have refused : (Table.ofPacked fill record.triangle record.dim record.entries.toArray :
        Except TableError (Table (Binary precision) record.dim)) = _ :=
      Table.ofPacked_eq_error_iff.mpr ⟨misfit, rfl⟩
    rw [refused]
    exact ⟨_, rfl, nofun⟩
  · exact ⟨_, rfl, nofun⟩

/-- The document of a table that was loaded is loaded as that table. -/
theorem AnyTable.MadeOf.canonical {fill : Fill} {record : TableRecord precision}
    {loaded : AnyTable (Binary precision)} (made : loaded.MadeOf fill record) :
    ∃ saved, saveTable? loaded.table = some saved ∧
      loadTable precision fill saved = .ok loaded := by
  have saved := saveTable?_eq_some_iff.mpr ⟨made.finite, rfl⟩
  refine ⟨_, saved, ?_⟩
  have reloaded := loadTable_saveTable saved fill ""
  have copied : loaded.table.copy = loaded.table := by
    rw [Table.copy, ← made.unlent]
  rw [if_pos (by simp), if_pos made.fill.symm, copied, String.append_empty] at reloaded
  exact reloaded

end Document

end HalfMatrix
