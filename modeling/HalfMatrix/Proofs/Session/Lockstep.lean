import HalfMatrix.Proofs.Counterparts
import HalfMatrix.Proofs.Session.Runs

/-!
# Which triangle is stored does not show

Two sessions face each other at a name if a symmetric table has this name in
both, stored in opposite triangles, and they agree in everything but their
tables.  Commands on the dense entries of that table, and commands on no table,
get the same replies in both and lead to sessions that face each other again.
-/

set_option autoImplicit false

namespace HalfMatrix

/-- The reply without the packed entries, which each triangle has in its own order. -/
def Reply.withoutEntries (reply : Reply) : Reply := { reply with entries := none }

/-- The command is about the dense matrix and not about how it is stored. -/
def TableCommand.IsDense : TableCommand → Prop
  | .get _ _ => True
  | .set _ _ _ => True
  | .setAll _ => True
  | .dense => True
  | .display => True
  | .acquire _ _ _ => True
  | .release _ _ => True
  | .discard _ => True
  | .printRegion _ _ _ => True
  | _ => False

def Command.IsDense (name : String) : Command → Prop
  | .table other command => other = name ∧ command.IsDense
  | .view _ _ => True
  | .dropView _ => True
  | .printer _ _ => True
  | .file _ _ => True
  | .stream _ => True
  | .stdout => True
  | _ => False

namespace Session

/-- If the command releases a view for writing, and the table takes it back,
then the view has one value for each pair of reflections in its block of rows. -/
def ReleasesMirrored (session : Session) (command : Command) : Prop :=
  match command with
  | .table _ (.release view region) =>
      (session.step command).1.answer = .ok .done →
        ∀ held, session.views.find? view = some held → held.view.access.writes = true →
          held.view.Mirrored region
  | _ => True

def AllMirrored (session : Session) : List Command → Prop
  | [] => True
  | command :: commands =>
      session.ReleasesMirrored command ∧ (session.step command).2.AllMirrored commands

/-- The sessions differ in their tables only, and the tables of this name are
counterparts. -/
def Facing (left right : Session) (name : String) (precision : Precision) (dim : Nat) : Prop :=
  ∃ tables, right = { left with tables } ∧
    ∃ one other : Table (Binary precision) dim,
      left.tables.find? name = some ⟨precision, dim, one⟩ ∧
        tables.find? name = some ⟨precision, dim, other⟩ ∧ one.Counterpart other

variable {session : Session} {tables : Names SomeTable} {name : String}
  {precision : Precision} {dim : Nat} {one other : Table (Binary precision) dim}

theorem facing_putTable (session : Session) (tables : Names SomeTable) (name : String)
    (same : one.Counterpart other) :
    Facing (session.putTable name ⟨precision, dim, one⟩)
      ({ session with tables }.putTable name ⟨precision, dim, other⟩) name precision dim :=
  ⟨_, rfl, one, other, Names.find?_insert_name session.tables name _,
    Names.find?_insert_name tables name _, same⟩

theorem reply_eq (same : one.Counterpart other) (answer : Except Refusal Answer) :
    (SomeTable.mk precision dim other).reply answer =
      (SomeTable.mk precision dim one).reply answer := by
  simp only [SomeTable.reply, SomeTable.outstanding, same.ledger]

theorem fullReply_eq (same : one.Counterpart other) (answer : Except Refusal Answer) :
    ((SomeTable.mk precision dim other).fullReply answer).withoutEntries =
      ((SomeTable.mk precision dim one).fullReply answer).withoutEntries := by
  simp only [SomeTable.fullReply, SomeTable.outstanding, Reply.withoutEntries, same.ledger]

/-! ## Commands on no table -/

theorem viewStep_withTables (session : Session) (tables : Names SomeTable) (name : String)
    (held : SomeView) (command : ViewCommand) :
    ({ session with tables } : Session).viewStep name held command =
      ((session.viewStep name held command).1,
        { (session.viewStep name held command).2 with tables }) := by
  cases command with
  | inspect => rfl
  | «at» index =>
      simp only [viewStep, readView]
      cases held.view.at? index <;> rfl
  | entry row col =>
      simp only [viewStep, readView]
      cases held.view.entry? row col <;> rfl
  | setAt index value =>
      simp only [viewStep, editView]
      cases held.view.setAt? index (value.toBinary held.precision) <;> rfl
  | setEntry row col value =>
      simp only [viewStep, editView]
      cases held.view.setEntry? row col (value.toBinary held.precision) <;> rfl
  | row index =>
      simp only [viewStep]
      cases held.view.row? index <;> rfl
  | setRow index values =>
      simp only [viewStep, editView]
      cases held.view.setRow? index (values.map (Numeral.toBinary held.precision)) <;> rfl
  | fill values => rfl
  | print printer title =>
      simp only [viewStep, withFound]
      cases find session.printers printer with
      | error refusal => rfl
      | ok used =>
          simp only [afterPrinting]
          cases used.printView session.outlets title held.view <;> rfl

theorem printerStep_withTables (session : Session) (tables : Names SomeTable) (name : String)
    (command : PrinterCommand) :
    ({ session with tables } : Session).printerStep name command =
      ((session.printerStep name command).1,
        { (session.printerStep name command).2 with tables }) := by
  have changed : ∀ change : Printer → Printer,
      ({ session with tables } : Session).changePrinter name change =
        ((session.changePrinter name change).1,
          { (session.changePrinter name change).2 with tables }) := by
    intro change
    simp only [changePrinter, withFound]
    cases find session.printers name <;> rfl
  cases command with
  | create settings =>
      simp only [printerStep, withFound]
      cases (makeSettings settings).mapError Refusal.settings <;> rfl
  | setSettings settings =>
      simp only [printerStep]
      cases (makeSettings settings).mapError Refusal.settings with
      | error refusal => rfl
      | ok settings => exact changed _
  | describe =>
      simp only [printerStep, withFound]
      cases find session.printers name <;> rfl
  | toStdout => exact changed _
  | toBuffer => exact changed _
  | toFile file =>
      simp only [printerStep]
      cases find session.files file with
      | error refusal => rfl
      | ok number => exact changed _
  | toStream stream chunk limit silent =>
      simp only [printerStep, withFound]
      cases find session.printers name <;> rfl
  | buffered =>
      simp only [printerStep, withFound]
      cases find session.printers name with
      | error refusal => rfl
      | ok printer =>
          cases shown : printer.buffered? with
          | some text => simp only [shown]
          | none =>
              simp only [shown]
              rfl
  | printValues precision values title =>
      simp only [printerStep, withFound]
      cases find session.printers name with
      | error refusal => rfl
      | ok printer =>
          simp only [afterPrinting]
          cases printer.printValues session.outlets title
            (values.map (Numeral.toBinary precision)) <;> rfl

theorem fileStep_withTables (session : Session) (tables : Names SomeTable) (name : String)
    (command : FileCommand) :
    ({ session with tables } : Session).fileStep name command =
      ((session.fileStep name command).1,
        { (session.fileStep name command).2 with tables }) := by
  have same : ({ session with tables } : Session).file? name = session.file? name := rfl
  cases command with
  | create content => rfl
  | write bytes =>
      simp only [fileStep, withFound, same]
      cases session.file? name <;> rfl
  | seek cursor =>
      simp only [fileStep, withFound, same]
      cases session.file? name <;> rfl
  | content =>
      simp only [fileStep, withFound, same]
      cases session.file? name <;> rfl

/-- A command on no table does the same whatever the tables are. -/
theorem step_withTables (session : Session) (tables : Names SomeTable) {command : Command}
    (dense : command.IsDense name) (tableless : ∀ table on, command ≠ .table table on) :
    ({ session with tables } : Session).step command =
      ((session.step command).1, { (session.step command).2 with tables }) := by
  cases command with
  | create name precision fill triangle dim source => exact dense.elim
  | load name file precision fill => exact dense.elim
  | table name command => exact absurd rfl (tableless name command)
  | dropTable name => exact dense.elim
  | view name command =>
      simp only [step, withFound]
      cases find session.views name with
      | error refusal => rfl
      | ok held => exact viewStep_withTables session tables name held command
  | dropView name => rfl
  | printer name command => exact printerStep_withTables session tables name command
  | file name command => exact fileStep_withTables session tables name command
  | stream name =>
      have same : ({ session with tables } : Session).streamContent name =
        session.streamContent name := rfl
      simp only [step, withFound, same]
      cases session.streamContent name <;> rfl
  | stdout => rfl

/-! ## Commands on the table -/

theorem handBack_facing (session : Session) (tables : Names SomeTable) (name view : String)
    (same : one.Counterpart other) (how : Return)
    (owned : session.tables.find? name = some ⟨precision, dim, one⟩)
    (owned' : tables.find? name = some ⟨precision, dim, other⟩)
    (mirrored : ∀ (held : View (Binary precision)) after,
      session.views.find? view = some ⟨precision, held⟩ →
      one.takeBack how held = .ok (after, .ok ()) → how.commits held = true →
      held.Mirrored (how.region held)) :
    (({ session with tables } : Session).handBack name ⟨precision, dim, other⟩ view
          (other.takeBack how)).1.withoutEntries =
        (session.handBack name ⟨precision, dim, one⟩ view (one.takeBack how)).1.withoutEntries ∧
      Facing (session.handBack name ⟨precision, dim, one⟩ view (one.takeBack how)).2
        (({ session with tables } : Session).handBack name ⟨precision, dim, other⟩ view
          (other.takeBack how)).2 name precision dim := by
  have idle : Facing session { session with tables } name precision dim :=
    ⟨tables, rfl, one, other, owned, owned', same⟩
  simp only [handBack, withFound, find]
  cases found : session.views.find? view with
  | none => exact ⟨rfl, idle⟩
  | some held =>
      obtain ⟨own, held⟩ := held
      by_cases fits : own = precision
      · subst fits
        simp only [dif_pos]
        rcases (same.takeBack how held fun after => mirrored held after found).cases with
          ⟨fault, failed, failed'⟩ |
            ⟨⟨after, outcome⟩, ⟨after', outcome'⟩, taken, taken', both, rfl⟩
        · rw [failed, failed']
          exact ⟨fullReply_eq same _, idle⟩
        · rw [taken, taken']
          exact ⟨fullReply_eq both _, facing_putTable (session.dropView view) tables name both⟩
      · simp only [dif_neg fits]
        exact ⟨rfl, idle⟩

theorem printRegion_facing (session : Session) (tables : Names SomeTable)
    (name printer title : String) (region : Region) (same : one.Counterpart other)
    (owned : session.tables.find? name = some ⟨precision, dim, one⟩)
    (owned' : tables.find? name = some ⟨precision, dim, other⟩) :
    (({ session with tables } : Session).printRegion name ⟨precision, dim, other⟩ printer
          region title).1 =
        (session.printRegion name ⟨precision, dim, one⟩ printer region title).1 ∧
      Facing (session.printRegion name ⟨precision, dim, one⟩ printer region title).2
        (({ session with tables } : Session).printRegion name ⟨precision, dim, other⟩ printer
          region title).2 name precision dim := by
  have idle : Facing session { session with tables } name precision dim :=
    ⟨tables, rfl, one, other, owned, owned', same⟩
  simp only [printRegion, withFound]
  cases find session.printers printer with
  | error refusal => exact ⟨rfl, idle⟩
  | ok used =>
      simp only
      rcases (same.printRegion used session.outlets region title session.nextTicket).cases with
        ⟨fault, failed, failed'⟩ | ⟨⟨after, printed⟩, ⟨after', _⟩, done, done', both, rfl⟩
      · rw [failed, failed']
        exact ⟨reply_eq same _, idle⟩
      · rw [done, done']
        -- The ticket is used up in both sessions, or in neither.
        rcases (same.acquire region .readOnly session.nextTicket).cases with
          ⟨cause, refused, refused'⟩ | ⟨lent, lent', granted, granted', _⟩
        · simp only [refused, refused']
          exact ⟨reply_eq both _, _, rfl, after, after', Names.find?_insert_name _ name _,
            Names.find?_insert_name tables name _, both⟩
        · simp only [granted, granted']
          exact ⟨reply_eq both _, _, rfl, after, after', Names.find?_insert_name _ name _,
            Names.find?_insert_name tables name _, both⟩

theorem tableStep_facing (session : Session) (tables : Names SomeTable) {command : TableCommand}
    (dense : command.IsDense) (same : one.Counterpart other)
    (owned : session.tables.find? name = some ⟨precision, dim, one⟩)
    (owned' : tables.find? name = some ⟨precision, dim, other⟩)
    (mirrored : session.ReleasesMirrored (.table name command)) :
    (({ session with tables } : Session).tableStep name ⟨precision, dim, other⟩
          command).1.withoutEntries =
        (session.tableStep name ⟨precision, dim, one⟩ command).1.withoutEntries ∧
      Facing (session.tableStep name ⟨precision, dim, one⟩ command).2
        (({ session with tables } : Session).tableStep name ⟨precision, dim, other⟩ command).2
        name precision dim := by
  have idle : Facing session { session with tables } name precision dim :=
    ⟨tables, rfl, one, other, owned, owned', same⟩
  cases command with
  | get row col =>
      simp only [tableStep, same.get]
      exact ⟨congrArg Reply.withoutEntries (reply_eq same _), idle⟩
  | set row col value =>
      simp only [tableStep]
      rcases (same.set row col (value.toBinary precision)).cases with
        ⟨cause, refused, refused'⟩ | ⟨after, after', written, written', both⟩
      · rw [refused, refused']
        exact ⟨fullReply_eq same _, idle⟩
      · rw [written, written']
        exact ⟨fullReply_eq both _, facing_putTable session tables name both⟩
  | setAll value =>
      have both := same.setAll (value.toBinary precision)
      exact ⟨fullReply_eq both _, facing_putTable session tables name both⟩
  | dense =>
      simp only [tableStep, same.toGrid]
      exact ⟨congrArg Reply.withoutEntries (reply_eq same _), idle⟩
  | display =>
      simp only [tableStep, same.display]
      exact ⟨congrArg Reply.withoutEntries (reply_eq same _), idle⟩
  | acquire view region access =>
      simp only [tableStep, acquire]
      rcases (same.acquire region access session.nextTicket).cases with
        ⟨cause, refused, refused'⟩ |
          ⟨⟨lent, after⟩, ⟨lent', after'⟩, granted, granted', shown, both⟩
      · rw [refused, refused']
        exact ⟨congrArg Reply.withoutEntries (reply_eq same _), idle⟩
      · obtain rfl : lent' = lent := shown
        rw [granted, granted']
        exact ⟨congrArg Reply.withoutEntries (reply_eq both _), _, rfl, after, after',
          Names.find?_insert_name _ name _, Names.find?_insert_name tables name _, both⟩
  | release view region =>
      refine handBack_facing session tables name view same (.release region) owned owned' ?_
      intro held after found taken commits
      have answer : session.step (.table name ((Return.release region).command view)) = _ :=
        step_returned owned found taken
      simp only [Return.command] at answer
      simp only [ReleasesMirrored, answer] at mirrored
      exact mirrored rfl _ found commits
  | discard view =>
      refine handBack_facing session tables name view same .discard owned owned' ?_
      intro held after found taken commits
      cases commits
  | printRegion printer region title =>
      obtain ⟨replies, facing⟩ :=
        printRegion_facing session tables name printer title region same owned owned'
      exact ⟨congrArg Reply.withoutEntries replies, facing⟩
  | info => exact dense.elim
  | packed => exact dense.elim
  | setPacked position value => exact dense.elim
  | copy target => exact dense.elim
  | toTriangle target triangle => exact dense.elim
  | equals other => exact dense.elim
  | printPacked printer title => exact dense.elim
  | save file => exact dense.elim

/-! ## Steps and runs -/

theorem Facing.step {left right : Session} (facing : Facing left right name precision dim)
    {command : Command}
    (dense : command.IsDense name) (mirrored : left.ReleasesMirrored command) :
    (right.step command).1.withoutEntries = (left.step command).1.withoutEntries ∧
      Facing (left.step command).2 (right.step command).2 name precision dim := by
  obtain ⟨tables, rfl, one, other, owned, owned', same⟩ := facing
  by_cases tableless : ∀ table on, command ≠ .table table on
  · have kept : (left.step command).2.tables = left.tables := by
      have self := step_withTables left left.tables dense tableless
      exact (congrArg (fun stepped : Stepped => stepped.2.tables) self)
    rw [step_withTables left tables dense tableless]
    refine ⟨rfl, tables, rfl, one, other, ?_, owned', same⟩
    rw [kept]
    exact owned
  · simp only [not_forall, not_not] at tableless
    obtain ⟨table, on, rfl⟩ := tableless
    obtain ⟨rfl, dense⟩ := dense
    simp only [Session.step, withFound, find, owned, owned']
    exact tableStep_facing left tables dense same owned owned' mirrored

theorem Facing.run {left right : Session} (facing : Facing left right name precision dim)
    {commands : List Command} (dense : ∀ command ∈ commands, command.IsDense name)
    (mirrored : left.AllMirrored commands) :
    (right.run commands).1.map Reply.withoutEntries =
        (left.run commands).1.map Reply.withoutEntries ∧
      ∀ done rest, commands = done ++ rest →
        Facing (left.after done) (right.after done) name precision dim := by
  induction commands generalizing left right with
  | nil =>
      refine ⟨rfl, ?_⟩
      intro done rest split
      obtain ⟨rfl, _⟩ := List.append_eq_nil_iff.mp split.symm
      exact facing
  | cons command commands ih =>
      obtain ⟨reply, next⟩ := facing.step (dense command List.mem_cons_self) mirrored.1
      obtain ⟨replies, later⟩ :=
        ih next (fun other mem => dense other (List.mem_cons_of_mem command mem)) mirrored.2
      refine ⟨?_, ?_⟩
      · simp only [Session.run, List.map_cons, reply, replies]
      · intro done rest split
        cases done with
        | nil => exact facing
        | cons first done =>
            obtain ⟨rfl, splitRest⟩ := List.cons.inj split
            exact later done rest splitRest

/-- Take a symmetric table of which nothing is lent, and the session in which it
is stored in the other triangle instead.  Every run of commands on its dense
matrix and on things other than tables gets the same replies in both sessions,
and after every step the two tables show the same matrix, the same has been
printed and the same views are held, provided that the blocks of rows released
for writing have one value for each pair of reflections inside them. -/
theorem triangle_does_not_show (session : Session) (name : String) (precision : Precision)
    (dim : Nat) (table : Table (Binary precision) dim)
    (owned : session.tables.find? name = some ⟨precision, dim, table⟩)
    (symmetric : table.fill = .symmetric) (idle : table.ledger = .empty)
    (commands : List Command) (dense : ∀ command ∈ commands, command.IsDense name)
    (mirrored : session.AllMirrored commands) (turned : Session)
    (turns : (session.step (.table name (.toTriangle name table.triangle.opposite))).2 = turned) :
    (turned.run commands).1.map Reply.withoutEntries =
        (session.run commands).1.map Reply.withoutEntries ∧
      ∀ done rest, commands = done ++ rest →
        (turned.after done).outlets = (session.after done).outlets ∧
          (turned.after done).views = (session.after done).views ∧
          ∃ one other : Table (Binary precision) dim,
            (session.after done).tables.find? name = some ⟨precision, dim, one⟩ ∧
              (turned.after done).tables.find? name = some ⟨precision, dim, other⟩ ∧
              other.triangle = one.triangle.opposite ∧ other.toGrid = one.toGrid := by
  have facing : Facing session turned name precision dim := by
    rw [← turns]
    simp only [step, withFound, find, owned, tableStep, derive]
    exact ⟨_, rfl, table, table.toTriangle table.triangle.opposite, owned,
      Names.find?_insert_name session.tables name _, .of_toTriangle symmetric idle⟩
  obtain ⟨replies, later⟩ := facing.run dense mirrored
  refine ⟨replies, ?_⟩
  intro done rest split
  obtain ⟨tables, same, one, other, owned, owned', counterpart⟩ := later done rest split
  rw [same]
  exact ⟨rfl, rfl, one, other, owned, owned', counterpart.triangle, counterpart.toGrid⟩

def mirroredRows : List Command :=
  [.table "t" (.acquire "rows" (.rows 0 2) .readWrite),
    .view "rows" (.fill [.bits 64 1, .bits 64 2, .bits 64 3, .bits 64 2, .bits 64 4, .bits 64 5]),
    .table "t" (.release "rows" (.rows 0 2)),
    .table "t" (.set 0 2 (.bits 64 6)),
    .table "t" .dense]

def blankSymmetric : Session := initial.after [.create "t" .double .symmetric .lower 3 .zeros]

theorem mirrored_rows_read_alike :
    ∃ turned, (blankSymmetric.step (.table "t" (.toTriangle "t" .upper))).2 = turned ∧
      blankSymmetric.AllMirrored mirroredRows ∧
      (turned.run mirroredRows).1.map Reply.withoutEntries =
        (blankSymmetric.run mirroredRows).1.map Reply.withoutEntries := by
  have mirrored : blankSymmetric.AllMirrored mirroredRows := by
    refine ⟨trivial, trivial, ?_, trivial, trivial, trivial⟩
    intro _ held found _
    cases found
    decide
  have dense : ∀ command ∈ mirroredRows, command.IsDense "t" := by
    simp [mirroredRows, Command.IsDense, TableCommand.IsDense]
  have same := triangle_does_not_show blankSymmetric "t" .double 3 _ rfl rfl rfl mirroredRows dense
    mirrored _ rfl
  exact ⟨_, rfl, mirrored, same.1⟩

end Session

end HalfMatrix
