import HalfMatrix.Proofs.Documents.Oversized
import HalfMatrix.Proofs.Session.Archive

/-!
# Loading tables from files

A load reads its file to the end and changes nothing in it.  What it accepts is
a table that can be saved, and its document is the one text that saving it
gives.  A document that is whole but asks for another table is refused.
-/

set_option autoImplicit false

namespace HalfMatrix.Session

open Document (AnyTable TableRecord readTableRecord readWideRecord)

variable {session : Session} {file target : String} {number : Nat} {source : File}
  {precision : Precision} {fill : Fill}

/-- What becomes of a session in which `source`, which is the file called
`file`, is loaded as the table `target`. -/
structure LoadsSoundly (session : Session) (file : String) (number : Nat) (source : File)
    (target : String) (precision : Precision) (fill : Fill) (stepped : Stepped) : Prop where
  /-- The file is read to its end and not written. -/
  file : stepped.2.file? file =
    .ok (number, { content := source.content, cursor := max source.cursor source.content.size })
  position : stepped.1.position = some (max source.cursor source.content.size)
  /-- What is accepted is the table of a record that has the fill asked for, as
  many entries as its dimension needs, and only finite ones.  Its document is
  loaded as the very same table, and it survives every file. -/
  accepted : ∀ answer, stepped.1.answer = .ok answer →
    ∃ (text : String) (record : TableRecord precision) (loaded : AnyTable (Binary precision)),
      text.toByteArray = source.remaining ∧
        Json.readDocument (readTableRecord precision) text = .ok record ∧
        loaded.MadeOf fill record ∧
        stepped.2.tables.find? target = some ⟨precision, loaded.dim, loaded.table⟩ ∧
        stepped.1.outstanding = some 0 ∧
        ∃ saved, Document.saveTable? loaded.table = some saved ∧
          Document.loadTable precision fill saved = .ok loaded ∧
          ∀ other number' source', stepped.2.file? other = .ok (number', source') →
            stepped.2.SurvivesFile target other ⟨precision, loaded.dim, loaded.table⟩ source' saved
  /-- A record with another fill, with more or fewer entries than its dimension
  needs, or of a dimension so great that this number is no word is invalid data.
  The dimension is read as any whole number here. -/
  refused : ∀ (text : String) (record : TableRecord precision),
    text.toByteArray = source.remaining →
      Json.readDocument (readWideRecord precision) text = .ok record →
      (record.fill ≠ fill.name ∨
        record.entries.length ≠ record.dim * (record.dim + 1) / 2 ∨
        Word.modulus ≤ record.dim * (record.dim + 1)) →
      FailsWith session stepped .invalidData

theorem loadTable_eq_ok_iff {bytes : ByteArray} {made : SomeTable} :
    loadTable precision fill bytes = .ok made ↔
      ∃ (text : String) (loaded : AnyTable (Binary precision)), text.toByteArray = bytes ∧
        Document.loadTable precision fill text = .ok loaded ∧
        made = ⟨precision, loaded.dim, loaded.table⟩ := by
  unfold loadTable
  constructor
  · intro found
    split at found
    · cases found
    · rename_i text decoded
      cases read : Document.loadTable precision fill text with
      | error error => simp [read, Except.mapError, Except.map] at found
      | ok loaded =>
          simp only [read, Except.mapError, Except.map] at found
          cases found
          exact ⟨text, loaded, Bytes.fromUTF8?_eq_some_iff.mp decoded, read, rfl⟩
  · rintro ⟨text, loaded, decoded, read, rfl⟩
    rw [Bytes.fromUTF8?_eq_some_iff.mpr decoded]
    simp only [read]
    rfl

/-- A load that is refused is invalid data, unless the text ended too early. -/
theorem ioKind?_load {error : Document.LoadError} (early : error ≠ .document (.flaw .endOfText)) :
    (Refusal.load error).ioKind? = some .invalidData := by
  cases error with
  | document problem =>
      cases problem with
      | flaw flaw =>
          cases flaw with
          | endOfText => exact absurd rfl early
          | malformed => rfl
      | misfit misfit => rfl
  | wrongFill expected found => rfl
  | table error => rfl

theorem loadTable_of_refused {bytes : ByteArray} {text : String} {error : Document.LoadError}
    (decoded : text.toByteArray = bytes)
    (refused : Document.loadTable precision fill text = .error error) :
    loadTable precision fill bytes = .error (.load error) := by
  unfold loadTable
  rw [Bytes.fromUTF8?_eq_some_iff.mpr decoded]
  simp only [refused]
  rfl

theorem loadTable_refuses {bytes : ByteArray} {text : String} {record : TableRecord precision}
    (decoded : text.toByteArray = bytes)
    (found : Json.readDocument (readWideRecord precision) text = .ok record)
    (wrong : record.fill ≠ fill.name ∨
      record.entries.length ≠ record.dim * (record.dim + 1) / 2 ∨
      Word.modulus ≤ record.dim * (record.dim + 1)) :
    ∃ refusal, loadTable precision fill bytes = .error refusal ∧
      refusal.ioKind? = some .invalidData := by
  obtain ⟨error, refused, early⟩ := Document.loadTable_refuses_wide found wrong
  exact ⟨.load error, loadTable_of_refused decoded refused, ioKind?_load early⟩

/-- A load accepts only what it can give back, and leaves its file as it was. -/
theorem loads_are_sound (session : Session) {file : String} {number : Nat} {source : File}
    (opened : session.file? file = .ok (number, source)) (target : String)
    (precision : Precision) (fill : Fill) :
    session.LoadsSoundly file number source target precision fill
      (session.step (.load target file precision fill)) := by
  have reopened := file?_putFile opened source.atEnd
  constructor
  · rw [step_load_eq opened]
    cases loadTable precision fill source.remaining <;> exact reopened
  · rw [step_load_eq opened]
    cases loadTable precision fill source.remaining <;> rfl
  · intro answer answered
    cases read : loadTable precision fill source.remaining with
    | error refusal =>
        rw [step_load_eq opened, read] at answered
        cases answered
    | ok made =>
        obtain ⟨text, loaded, decoded, accepted, rfl⟩ := loadTable_eq_ok_iff.mp read
        obtain ⟨record, found, fromRecord⟩ := Document.loadTable_eq_ok_iff.mp accepted
        obtain ⟨saved, written, canonical⟩ := fromRecord.canonical
        rw [step_load opened target precision fill read]
        refine ⟨text, record, loaded, decoded, found, fromRecord, Names.find?_insert_name _ _ _,
          ?_, saved, written, canonical, ?_⟩
        · simp only [SomeTable.reply, SomeTable.outstanding, fromRecord.unlent]
          rfl
        · intro other number' source' opened'
          exact survivesFile_of_saved (Names.find?_insert_name _ _ _) opened' written
  · intro text record decoded found wrong
    obtain ⟨refusal, refused, kind⟩ := loadTable_refuses decoded found wrong
    exact failsWith_load opened target refused kind

def shelved (text : String) : File := { content := text.toByteArray }

theorem remaining_shelved (text : String) : (shelved text).remaining = text.toByteArray :=
  ByteArray.extract_zero_size

/-- The document of a table whose only entry is negative zero is accepted, and
it is refused where a table of the other fill is asked for. -/
theorem negative_zero_is_accepted :
    ∃ text, Document.saveTable? negativeZero.table = some text ∧
      let session := initial.addFile "f" (shelved text)
      session.LoadsSoundly "f" 0 (shelved text) "t" .single .symmetric
          (session.step (.load "t" "f" .single .symmetric)) ∧
        (session.step (.load "t" "f" .single .symmetric)).1.answer = .ok negativeZero.created ∧
        FailsWith session (session.step (.load "t" "f" .single .triangular)) .invalidData := by
  have finite : ∀ value ∈ negativeZero.table.entries.toList, value.isFinite := by decide
  have saved := Document.saveTable?_eq_some_iff.mpr ⟨finite, rfl⟩
  refine ⟨_, saved, ?_⟩
  generalize Json.Token.render (Document.tableTokens negativeZero.table) = text at saved ⊢
  have opened : (initial.addFile "f" (shelved text)).file? "f" = .ok (0, shelved text) := rfl
  have loads : loadTable .single .symmetric (shelved text).remaining = .ok negativeZero := by
    have read := (loadTable_saved saved .symmetric ByteArray.empty).1 nofun
    rw [ByteArray.append_empty] at read
    rw [remaining_shelved]
    exact read
  have accepted : ((initial.addFile "f" (shelved text)).step
      (.load "t" "f" .single .symmetric)).1.answer = .ok negativeZero.created := by
    rw [step_load opened "t" .single .symmetric loads]
    rfl
  have sound := loads_are_sound _ opened "t" .single .symmetric
  obtain ⟨_, record, _, decoded, found, made, _⟩ := sound.accepted _ accepted
  have other : record.fill ≠ Fill.triangular.name := by
    rw [made.named]
    decide
  have refused := (loads_are_sound _ opened "t" .single .triangular).refused _ record decoded
    (Document.readWideRecord_of_readTableRecord found) (Or.inl other)
  exact ⟨sound, accepted, refused⟩

end HalfMatrix.Session
