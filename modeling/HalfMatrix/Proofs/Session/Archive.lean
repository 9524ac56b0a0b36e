import HalfMatrix.Proofs.Documents.Files
import HalfMatrix.Proofs.Documents.Tables
import HalfMatrix.Proofs.Session.Runs

/-!
# Tables in files

A table with finite entries is written over the bytes at the cursor of a file,
and what was there before and is longer than its document stays behind it.
Loaded from where it was written, the table is the same, with no view
outstanding, exactly if only blanks stay behind.  A table with an entry that is
not finite is not written at all.
-/

set_option autoImplicit false

namespace HalfMatrix

/-- The old bytes that stay behind a text written at the cursor. -/
def File.leftover (file : File) (text : String) : ByteArray :=
  file.content.extract (file.cursor + text.toByteArray.size) file.content.size

theorem File.write_cursor (file : File) (bytes : ByteArray) :
    (file.write bytes).cursor = file.cursor + bytes.size := by
  unfold write
  split_ifs with empty
  · rw [empty, Nat.add_zero]
  · rfl

namespace Session

variable {session : Session} {name file : String} {owner : SomeTable} {number : Nat}
  {source : File}

/-! ## Files of a session -/

theorem file?_eq_ok_iff :
    session.file? file = .ok (number, source) ↔
      session.files.find? file = some number ∧
        session.outlets.files[number]? = some source := by
  cases found : session.files.find? file with
  | none => simp [file?, find, found, bind, Except.bind]
  | some held =>
      cases content : session.outlets.files[held]? with
      | none =>
          simp only [file?, find, found, bind, Except.bind, content]
          constructor
          · intro impossible
            cases impossible
          · rintro ⟨same, other⟩
            cases same
            rw [content] at other
            cases other
      | some opened =>
          simp only [file?, find, found, bind, Except.bind, content, pure, Except.pure,
            Except.ok.injEq, Prod.mk.injEq, Option.some.injEq]
          constructor
          · rintro ⟨rfl, rfl⟩
            exact ⟨rfl, content⟩
          · rintro ⟨rfl, same⟩
            rw [content] at same
            exact ⟨rfl, Option.some.inj same⟩

theorem file?_putFile (opened : session.file? file = .ok (number, source)) (changed : File) :
    (session.putFile number changed).file? file = .ok (number, changed) := by
  obtain ⟨named, held⟩ := file?_eq_ok_iff.mp opened
  have inside : number < session.outlets.files.length := (List.getElem?_eq_some_iff.mp held).1
  exact file?_eq_ok_iff.mpr ⟨named, by simp [putFile, inside]⟩

theorem step_save (owned : session.tables.find? name = some owner) :
    session.step (.table name (.save file)) = session.save owner file := by
  rw [step_table owned, tableStep]

theorem step_seek (opened : session.file? file = .ok (number, source)) (cursor : Nat) :
    (session.step (.file file (.seek cursor))).2 =
      session.putFile number (source.seek cursor) := by
  simp only [step, fileStep, opened, withFound]

/-! ## Loading what was saved -/

/-- The command failed with an error of this kind, and no table is another one
than before. -/
def FailsWith (session : Session) (stepped : Stepped) (kind : IoKind) : Prop :=
  ∃ refusal, stepped.1.answer = .error refusal ∧ refusal.ioKind? = some kind ∧
    stepped.2.tables = session.tables

/-- The session after the table was saved to the file, with the cursor moved
back to where it stood before. -/
def rewound (session : Session) (name file : String) (cursor : Nat) : Session :=
  session.after [.table name (.save file), .file file (.seek cursor)]

/-- What becomes of a table that is saved at the cursor of a file and loaded
from there, under any name.  The text is the document of the table. -/
structure SurvivesFile (session : Session) (name file : String) (owner : SomeTable)
    (source : File) (text : String) : Prop where
  saved : (session.step (.table name (.save file))).1.answer = .ok .done
  position : (session.step (.table name (.save file))).1.position =
    some (source.cursor + text.toByteArray.size)
  loaded : Bytes.AllBlank (source.leftover text) → ∀ target : String,
    let made : SomeTable := { owner with table := owner.table.copy }
    let stepped := (session.rewound name file source.cursor).step
      (.load target file owner.precision owner.table.fill)
    stepped.1.answer = .ok made.created ∧ stepped.1.outstanding = some 0 ∧
      stepped.2.tables.find? target = some made
  followed : ¬ Bytes.AllBlank (source.leftover text) → ∀ target : String,
    FailsWith session
      ((session.rewound name file source.cursor).step
        (.load target file owner.precision owner.table.fill)) .invalidData
  otherFill : ∀ (target : String) (fill : Fill), fill ≠ owner.table.fill →
    FailsWith session
      ((session.rewound name file source.cursor).step
        (.load target file owner.precision fill)) .invalidData

theorem loadTable_saved {text : String} (saved : Document.saveTable? owner.table = some text)
    (fill : Fill) (leftover : ByteArray) :
    (Bytes.AllBlank leftover →
      loadTable owner.precision fill (text.toByteArray ++ leftover) =
        if fill = owner.table.fill then .ok { owner with table := owner.table.copy }
        else .error (.load (.wrongFill fill owner.table.fill.name))) ∧
      (¬ Bytes.AllBlank leftover →
        ∃ refusal, loadTable owner.precision fill (text.toByteArray ++ leftover) =
          .error refusal ∧ refusal.ioKind? = some .invalidData) := by
  simp only [loadTable, Bytes.fromUTF8?_append]
  cases found : String.fromUTF8? leftover with
  | none =>
      have notBlank : ¬ Bytes.AllBlank leftover := by
        intro blank
        obtain ⟨rest, decoded, _⟩ := Bytes.allBlank_iff.mp blank
        rw [found] at decoded
        cases decoded
      exact ⟨fun blank => absurd blank notBlank, fun _ => ⟨.notText, rfl, rfl⟩⟩
  | some rest =>
      have blankIff : Bytes.AllBlank leftover ↔ rest.toList.all Json.Lexeme.isBlank := by
        simp [Bytes.allBlank_iff, found]
      simp only [Option.map_some, Document.loadTable_saveTable saved, blankIff]
      constructor
      · intro blank
        rw [if_pos blank]
        split_ifs with own <;> rfl
      · intro notBlank
        rw [if_neg notBlank]
        exact ⟨_, rfl, rfl⟩

theorem step_save_of_saved (owned : session.tables.find? name = some owner)
    (opened : session.file? file = .ok (number, source)) {text : String}
    (saved : Document.saveTable? owner.table = some text) :
    session.step (.table name (.save file)) =
      ({ owner.reply (.ok .done) with
          position := some (source.write text.toByteArray).cursor },
        session.putFile number (source.write text.toByteArray)) := by
  rw [step_save owned]
  simp only [save, opened, withFound, saved]

theorem file?_rewound (owned : session.tables.find? name = some owner)
    (opened : session.file? file = .ok (number, source)) {text : String}
    (saved : Document.saveTable? owner.table = some text) :
    (session.rewound name file source.cursor).file? file =
        .ok (number, (source.write text.toByteArray).seek source.cursor) ∧
      (session.rewound name file source.cursor).tables = session.tables := by
  have written := file?_putFile opened (source.write text.toByteArray)
  simp only [rewound, after_cons, after_nil, step_save_of_saved owned opened saved,
    step_seek written]
  exact ⟨file?_putFile written _, rfl⟩

theorem step_load_eq (opened : session.file? file = .ok (number, source)) (target : String)
    (precision : Precision) (fill : Fill) :
    session.step (.load target file precision fill) =
      match loadTable precision fill source.remaining with
      | .ok made =>
          ({ made.reply (.ok made.created) with position := some source.atEnd.cursor },
            (session.putFile number source.atEnd).putTable target made)
      | .error refusal =>
          ({ answer := .error refusal, position := some source.atEnd.cursor },
            session.putFile number source.atEnd) := by
  simp only [step, load, opened, withFound]
  cases loadTable precision fill source.remaining <;> rfl

theorem step_load (opened : session.file? file = .ok (number, source)) (target : String)
    (precision : Precision) (fill : Fill) {made : SomeTable}
    (loaded : loadTable precision fill source.remaining = .ok made) :
    session.step (.load target file precision fill) =
      ({ made.reply (.ok made.created) with position := some source.atEnd.cursor },
        (session.putFile number source.atEnd).putTable target made) := by
  rw [step_load_eq opened, loaded]

theorem failsWith_load (opened : session.file? file = .ok (number, source)) (target : String)
    {precision : Precision} {fill : Fill} {refusal : Refusal} {kind : IoKind}
    (refused : loadTable precision fill source.remaining = .error refusal)
    (isKind : refusal.ioKind? = some kind) :
    FailsWith session (session.step (.load target file precision fill)) kind := by
  rw [step_load_eq opened, refused]
  exact ⟨refusal, rfl, isKind, rfl⟩

theorem survivesFile_of_saved (owned : session.tables.find? name = some owner)
    (opened : session.file? file = .ok (number, source)) {text : String}
    (saved : Document.saveTable? owner.table = some text) :
    session.SurvivesFile name file owner source text := by
  obtain ⟨reopened, tables⟩ := file?_rewound owned opened saved
  have remaining : ((source.write text.toByteArray).seek source.cursor).remaining =
      text.toByteArray ++ source.leftover text := source.remaining_seek_write text.toByteArray
  have fails : ∀ (target : String) (fill : Fill) {refusal : Refusal},
      loadTable owner.precision fill (text.toByteArray ++ source.leftover text) =
          .error refusal →
        refusal.ioKind? = some .invalidData →
          FailsWith session ((session.rewound name file source.cursor).step
            (.load target file owner.precision fill)) .invalidData := by
    intro target fill refusal refused kind
    obtain ⟨found, answer, isKind, kept⟩ :=
      failsWith_load reopened target (remaining ▸ refused) kind
    exact ⟨found, answer, isKind, kept.trans tables⟩
  constructor
  · rw [step_save_of_saved owned opened saved]
    rfl
  · rw [step_save_of_saved owned opened saved]
    exact congrArg some (source.write_cursor text.toByteArray)
  · intro blank target
    have loaded := (loadTable_saved saved owner.table.fill (source.leftover text)).1 blank
    rw [if_pos rfl, ← remaining] at loaded
    simp only [step_load reopened target owner.precision owner.table.fill loaded]
    exact ⟨rfl, rfl, Names.find?_insert_name _ _ _⟩
  · intro notBlank target
    obtain ⟨refusal, refused, kind⟩ :=
      (loadTable_saved saved owner.table.fill (source.leftover text)).2 notBlank
    exact fails target owner.table.fill refused kind
  · intro target fill other
    have loads := loadTable_saved saved fill (source.leftover text)
    by_cases blank : Bytes.AllBlank (source.leftover text)
    · have refused := loads.1 blank
      rw [if_neg other] at refused
      exact fails target fill refused rfl
    · obtain ⟨refusal, refused, kind⟩ := loads.2 blank
      exact fails target fill refused kind

theorem step_save_of_unsaved (owned : session.tables.find? name = some owner)
    (opened : session.file? file = .ok (number, source))
    (unsaved : Document.saveTable? owner.table = none) :
    session.step (.table name (.save file)) =
      ({ owner.reply (.error .notFinite) with position := some source.cursor }, session) := by
  rw [step_save owned]
  simp only [save, opened, withFound, unsaved]

/-- A table with finite entries survives a file in which nothing but blanks
stays behind its document.  A table with an entry that is not finite is refused,
and the file and its cursor stay as they were. -/
theorem tables_survive_files (session : Session) {name file : String} {owner : SomeTable}
    {number : Nat} {source : File} (owned : session.tables.find? name = some owner)
    (opened : session.file? file = .ok (number, source)) :
    ((∀ value ∈ owner.table.entries.toList, value.isFinite) →
      ∃ text, Document.saveTable? owner.table = some text ∧
        session.SurvivesFile name file owner source text) ∧
      ((∃ value ∈ owner.table.entries.toList, value.isFinite = false) →
        FailsWith session (session.step (.table name (.save file))) .invalidInput ∧
          (session.step (.table name (.save file))).2 = session) := by
  constructor
  · intro finite
    have saved := Document.saveTable?_eq_some_iff.mpr ⟨finite, rfl⟩
    exact ⟨_, saved, survivesFile_of_saved owned opened saved⟩
  · rintro ⟨value, member, infinite⟩
    have unsaved : Document.saveTable? owner.table = none := by
      cases saved : Document.saveTable? owner.table with
      | none => rfl
      | some text =>
          have finite := (Document.saveTable?_eq_some_iff.mp saved).1 value member
          rw [infinite] at finite
          cases finite
    rw [step_save_of_unsaved owned opened unsaved]
    exact ⟨⟨.notFinite, rfl, rfl, rfl⟩, rfl⟩

def negativeZero : SomeTable where
  precision := .single
  dim := 1
  table :=
    { fill := .symmetric, triangle := .upper, entries := #v[.ofMagnitude true 0]
      ledger := .empty, fits := by decide }

def infiniteEntry : SomeTable where
  precision := .double
  dim := 1
  table :=
    { fill := .triangular, triangle := .lower, entries := #v[.infinite false]
      ledger := .empty, fits := by decide }

def pastTheEnd : File := { content := "[1]".toByteArray, cursor := 5 }

def archive : Session :=
  (((initial.putTable "t" negativeZero).putTable "u" infiniteEntry).addFile "f" pastTheEnd)

theorem negative_zero_survives_file :
    (∃ text, Document.saveTable? negativeZero.table = some text ∧
      archive.SurvivesFile "t" "f" negativeZero pastTheEnd text ∧
        Bytes.AllBlank (pastTheEnd.leftover text)) ∧
      FailsWith archive (archive.step (.table "u" (.save "f"))) .invalidInput := by
  have opened : archive.file? "f" = .ok (0, pastTheEnd) := rfl
  have finite := (tables_survive_files archive (show archive.tables.find? "t" = some negativeZero
    from rfl) opened).1 (by decide)
  have infinite := (tables_survive_files archive (show archive.tables.find? "u" =
    some infiniteEntry from rfl) opened).2 ⟨.infinite false, by decide, by decide⟩
  obtain ⟨text, saved, survives⟩ := finite
  refine ⟨⟨text, saved, survives, ?_⟩, infinite.1⟩
  have nothing : pastTheEnd.leftover text = ByteArray.empty := by
    apply ByteArray.extract_eq_empty_iff.mpr
    have size : pastTheEnd.content.size = 3 := rfl
    have cursor : pastTheEnd.cursor = 5 := rfl
    omega
  rw [nothing]
  intro byte member
  cases member

end Session

end HalfMatrix
