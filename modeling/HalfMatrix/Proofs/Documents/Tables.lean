import HalfMatrix.Document.Table
import HalfMatrix.Proofs.Documents.Members

/-!
# Tables survive their documents

Loading the document of a table with finite entries gives a copy of the table,
with no view outstanding, if only blanks follow the document and the fill is
that of the table.  `loadTable_saveTable` says what happens in every other case.
-/

set_option autoImplicit false

namespace HalfMatrix

theorem Triangle.ofName?_eq_some_name (triangle : Triangle) :
    Document.triangleOfName triangle.name = .ok triangle := by
  simp [Document.triangleOfName]

theorem Fill.name_inj {fill other : Fill} : fill.name = other.name ↔ fill = other := by
  cases fill <;> cases other <;> decide

theorem Table.ofPacked_eq_ok_iff {α : Type} {n : Nat} {fill : Fill} {triangle : Triangle}
    {data : Array α} {table : Table α n} :
    ofPacked fill triangle n data = .ok table ↔
      n * (n + 1) < Word.modulus ∧ table.fill = fill ∧ table.triangle = triangle ∧
        table.entries.toArray = data ∧ table.ledger = .empty := by
  unfold ofPacked
  constructor
  · intro made
    split at made
    · rename_i accepted
      cases made
      exact ⟨(Packing.size?_eq_some_iff.mp accepted).1, rfl, rfl, rfl, rfl⟩
    · cases made
  · rintro ⟨fits, rfl, rfl, rfl, blank⟩
    have accepted : Packing.size? n = some table.entries.toArray.size :=
      Packing.size?_eq_some_iff.mpr ⟨fits, table.entries.size_toArray⟩
    rw [dif_pos accepted, ← blank]

namespace Document

open Json

variable {precision : Precision} {n : Nat}

theorem readTriangle_name (triangle : Triangle) :
    ReadsBack readTriangle (triangleTokens triangle) triangle := by
  intro rest
  simp [readTriangle, triangleTokens, Triangle.ofName?_eq_some_name, Except.map]

theorem readsBack_ofReader {Draft α : Type} {name : String} {place : Draft → Option α}
    {put : Draft → α → Draft} {read : Reader α} {shrinks : Shrinks read} {tokens : List Token}
    {value : α} (reads : ReadsBack read tokens value) (draft : Draft) :
    ReadsBack ((Member.ofReader name place put read shrinks).read draft) tokens
      (put draft value) := by
  intro rest
  simp [Member.ofReader, reads rest, Except.map]

theorem dim_lt (table : Table (Binary precision) n) : n < Word.modulus := by
  have square : n ≤ n * (n + 1) := Nat.le_mul_of_pos_right n (Nat.succ_pos n)
  exact Nat.lt_of_le_of_lt square table.fits

def recordOf (table : Table (Binary precision) n) : TableRecord precision where
  dim := n
  triangle := table.triangle
  fill := table.fill.name
  entries := table.entries.toList

theorem readTableRecord_tableTokens {table : Table (Binary precision) n}
    (finite : ∀ value ∈ table.entries.toList, value.isFinite) :
    ReadsBack (readTableRecord precision) (tableTokens table) (recordOf table) := by
  intro rest
  have gathers : (tableSchema precision).Gathers {}
      (lexed [("n", [.word n]), ("uplo", triangleTokens table.triangle),
        ("fill", [.text table.fill.name]),
        ("data", Token.list (table.entries.toList.map fun value => [numberToken value]))])
      { dim := some n, triangle := some table.triangle, fill := some table.fill.name,
        entries := some table.entries.toList } :=
    .cons (Schema.accepts_ofReader rfl rfl (readWord_word (dim_lt table)) rfl)
      (.cons (Schema.accepts_ofReader rfl rfl (readTriangle_name table.triangle) rfl)
        (.cons (Schema.accepts_ofReader rfl rfl (readText_text table.fill.name) rfl)
          (.cons
            (Schema.accepts_ofReader rfl rfl
              (readBinaries_spelled (Decimal.Layout.readable_stored precision) finite) rfl)
            (.nil _))))
  have read := Schema.readsBack_map gathers rest
  simp only [readTableRecord, tableTokens, read]
  rfl

theorem scan_tableTokens {table : Table (Binary precision) n}
    (finite : ∀ value ∈ table.entries.toList, value.isFinite) (rest : List Char) :
    Lexeme.scan ((tableTokens table).flatMap Token.chars ++ rest) =
      (tableTokens table).map .token ++ Lexeme.scan rest := by
  apply ScansBack.scan_map
  have word : ScansBack [Token.word n] :=
    .singleton (Decimal.Spelling.wellFormed_ofNat n)
  have data :
      ScansBack (Token.list (table.entries.toList.map fun value => [numberToken value])) := by
    apply ScansBack.list
    intro item member
    obtain ⟨value, given, rfl⟩ := List.mem_map.mp member
    exact .singleton (Decimal.Spelling.wellFormed_ofBinary _ (finite value given))
  simp only [List.forall_mem_cons, List.not_mem_nil, false_imp_iff, implies_true, and_true]
  exact ⟨word, .singleton (by trivial), .singleton (by trivial), data⟩

theorem ofPacked_entries (table : Table (Binary precision) n) :
    Table.ofPacked table.fill table.triangle n table.entries.toList.toArray = .ok table.copy :=
  Table.ofPacked_eq_ok_iff.mpr ⟨table.fits, rfl, rfl, rfl, rfl⟩

theorem saveTable?_eq_some_iff {table : Table (Binary precision) n} {text : String} :
    saveTable? table = some text ↔
      (∀ value ∈ table.entries.toList, value.isFinite) ∧
        text = Token.render (tableTokens table) := by
  have all : table.entries.all Binary.isFinite ↔
      ∀ value ∈ table.entries.toList, value.isFinite := by
    simp only [Vector.mem_toList_iff, Vector.all_eq_true_iff_forall_mem]
  simp only [saveTable?, ← all]
  split_ifs with finite
  · simp only [finite, Option.some.injEq, true_and]
    exact eq_comm
  · simp only [finite, false_and, reduceCtorEq]

/-- What is loaded from the document of a table and the text after it. -/
theorem loadTable_saveTable {table : Table (Binary precision) n} {text : String}
    (saved : saveTable? table = some text) (fill : Fill) (rest : String) :
    loadTable precision fill (text ++ rest) =
      if rest.toList.all Lexeme.isBlank then
        if fill = table.fill then .ok ⟨n, table.copy⟩
        else .error (.wrongFill fill table.fill.name)
      else .error (.document (.flaw .malformed)) := by
  obtain ⟨finite, rfl⟩ := saveTable?_eq_some_iff.mp saved
  have document := readDocument_append (scan_tableTokens finite)
    (readTableRecord_tableTokens finite) rest
  simp only [loadTable, document]
  split_ifs with blank own
  · subst own
    simp [Except.mapError, bind, Except.bind, recordOf, ofPacked_entries, pure, Except.pure]
  · have other : table.fill.name ≠ fill.name := fun same => own (Fill.name_inj.mp same).symm
    simp [Except.mapError, bind, Except.bind, recordOf, other, throw, throwThe,
      MonadExceptOf.throw]
  · simp [malformed, Except.mapError, bind, Except.bind]

end Document

end HalfMatrix
