import HalfMatrix.Proofs.Session.Printouts

/-!
# Where a printer prints does not matter to anything else

Two sessions are alike if they differ in nothing but standard output, streams
and buffers, and in which of these each printer prints to.  The commands of a
run keep them alike and print the same texts in both.
-/

set_option autoImplicit false

namespace HalfMatrix

def Print.Target.file? : Print.Target → Option Nat
  | .file number => some number
  | _ => none

/-- All of a printer that anything else can depend on. -/
def Printer.shape (printer : Printer) : Print.Settings × Option Nat :=
  (printer.settings, printer.target.file?)

def Printout.block (out : Printout) : Printout :=
  { out with printer := { settings := out.printer.settings } }

theorem Printout.name_of_block {out out' : Printout} (same : out'.block = out.block) :
    out'.name = out.name := by
  simpa only [Printout.block] using congrArg Printout.name same

theorem Printout.text_of_block {out out' : Printout} (same : out'.block = out.block) :
    out'.text = out.text := by
  have text : out'.block.text = out.block.text := congrArg Printout.text same
  exact text

theorem Printout.laysOut_of_block {out out' : Printout} (same : out'.block = out.block)
    (lays : out.LaysOut) : out'.LaysOut := by
  have lays : out.block.LaysOut := lays
  rw [← same] at lays
  exact lays

namespace Session

/-- The sessions have the same tables and views, and the same names for files. -/
structure SameBooks (left right : Session) : Prop where
  tables : right.tables = left.tables
  views : right.views = left.views
  files : right.files = left.files
  ticket : right.nextTicket = left.nextTicket

structure Alike (left right : Session) : Prop extends SameBooks left right where
  contents : right.outlets.files = left.outlets.files
  printers : ∀ name,
    (right.printers.find? name).map Printer.shape = (left.printers.find? name).map Printer.shape

variable {left right : Session}

theorem SameBooks.symm (books : left.SameBooks right) : right.SameBooks left :=
  ⟨books.tables.symm, books.views.symm, books.files.symm, books.ticket.symm⟩

theorem SameBooks.trans {last : Session} (books : left.SameBooks right)
    (later : right.SameBooks last) : left.SameBooks last :=
  ⟨later.tables.trans books.tables, later.views.trans books.views,
    later.files.trans books.files, later.ticket.trans books.ticket⟩

theorem Alike.printer (alike : left.Alike right) {name : String} {used : Printer}
    (found : left.printers.find? name = some used) :
    ∃ used', right.printers.find? name = some used' ∧ used'.shape = used.shape := by
  have same := alike.printers name
  rw [found] at same
  exact Option.map_eq_some_iff.mp same

theorem Alike.no_printer (alike : left.Alike right) {name : String}
    (missed : left.printers.find? name = none) : right.printers.find? name = none := by
  have same := alike.printers name
  rw [missed] at same
  exact Option.map_eq_none_iff.mp same

/-! ## Commands that do not print -/

/-- The session with the printers of another one, and with everything that was
printed there outside the files. -/
def wearing (session other : Session) : Session :=
  { session with
    printers := other.printers
    streams := other.streams
    outlets := { other.outlets with files := session.outlets.files } }

theorem Alike.eq_wearing (alike : left.Alike right) : right = left.wearing right := by
  obtain ⟨tables, views, printers, streams, files, outlets, ticket⟩ := right
  obtain ⟨⟨rfl, rfl, rfl, rfl⟩, contents, _⟩ := alike
  simp only [wearing, ← contents]

theorem withFound_wearing {α : Type} (session other : Session) {found : Except Refusal α}
    {resume resume' : α → Stepped}
    (resumed : ∀ value, (resume' value).2 = (resume value).2.wearing other) :
    ((session.wearing other).withFound found resume').2 =
      (session.withFound found resume).2.wearing other := by
  cases found with
  | error refusal => rfl
  | ok value => exact resumed value

theorem handBack_wearing (session other : Session) (name : String) (owner : SomeTable)
    (view : String)
    (take : View (Binary owner.precision) →
      Except Fault (Table (Binary owner.precision) owner.dim × Except TableError Unit)) :
    ((session.wearing other).handBack name owner view take).2 =
      (session.handBack name owner view take).2.wearing other := by
  apply withFound_wearing
  intro held
  by_cases same : held.precision = owner.precision
  · simp only [dif_pos same]
    cases take (same ▸ held.view) <;> rfl
  · simp only [dif_neg same]
    rfl

theorem tableStep_wearing (session other : Session) (name : String) (owner : SomeTable)
    {command : TableCommand} (mute : ¬ (Command.table name command).Prints) :
    ((session.wearing other).tableStep name owner command).2 =
      (session.tableStep name owner command).2.wearing other := by
  cases command with
  | printRegion printer region title => exact absurd trivial mute
  | printPacked printer title => exact absurd trivial mute
  | setPacked position value =>
      simp only [tableStep]
      split <;> rfl
  | set row col value =>
      simp only [tableStep]
      split <;> rfl
  | acquire view region access =>
      have same : (session.wearing other).nextTicket = session.nextTicket := rfl
      simp only [tableStep, acquire, same]
      split <;> rfl
  | release view region => exact handBack_wearing session other name owner view _
  | discard view => exact handBack_wearing session other name owner view _
  | equals target =>
      apply withFound_wearing
      intro target
      cases owner.agrees? target <;> rfl
  | save file =>
      apply withFound_wearing
      rintro ⟨number, target⟩
      cases Document.saveTable? owner.table <;> rfl
  | setAll value => rfl
  | copy target => rfl
  | toTriangle target triangle => rfl
  | info => rfl
  | packed => rfl
  | get row col => rfl
  | dense => rfl
  | display => rfl

theorem viewStep_wearing (session other : Session) (name : String) (held : SomeView)
    {command : ViewCommand} (mute : ¬ (Command.view name command).Prints) :
    ((session.wearing other).viewStep name held command).2 =
      (session.viewStep name held command).2.wearing other := by
  have edited : ∀ edited, ((session.wearing other).editView name held edited).2 =
      (session.editView name held edited).2.wearing other := by
    intro edited
    cases edited <;> rfl
  have shown : ∀ value, ((session.wearing other).readView held value).2 =
      (session.readView held value).2.wearing other := by
    intro value
    cases value <;> rfl
  cases command with
  | print printer title => exact absurd trivial mute
  | row index =>
      simp only [viewStep]
      cases held.view.row? index <;> rfl
  | inspect => rfl
  | «at» index => exact shown _
  | entry row col => exact shown _
  | setAt index value => exact edited _
  | setEntry row col value => exact edited _
  | setRow index values => exact edited _
  | fill values => exact edited _

theorem fileStep_wearing (session other : Session) (name : String) (command : FileCommand) :
    ((session.wearing other).fileStep name command).2 =
      (session.fileStep name command).2.wearing other := by
  cases command with
  | create content => rfl
  | write bytes => exact withFound_wearing session other fun _ => rfl
  | seek cursor => exact withFound_wearing session other fun _ => rfl
  | content => exact withFound_wearing session other fun _ => rfl

theorem step_stream (session : Session) (name : String) :
    (session.step (.stream name)).2 = session := by
  simp only [step, withFound]
  split <;> rfl

/-- A command that is about no printer and prints nothing does the same whatever
the printers are and whatever has been printed. -/
theorem step_wearing (session other : Session) {command : Command} (mute : ¬ command.Prints)
    (printerless : ∀ name change, command ≠ .printer name change) (unread : command ≠ .stdout) :
    ((session.wearing other).step command).2 = (session.step command).2.wearing other := by
  cases command with
  | create name precision fill triangle dim source =>
      exact withFound_wearing session other fun _ => rfl
  | load name file precision fill =>
      apply withFound_wearing
      rintro ⟨number, source⟩
      dsimp only
      generalize loadTable precision fill source.remaining = outcome
      exact withFound_wearing (session.putFile number source.atEnd) other fun _ => rfl
  | table name command =>
      apply withFound_wearing
      intro owner
      exact tableStep_wearing session other name owner mute
  | dropTable name => rfl
  | view name command =>
      apply withFound_wearing
      intro held
      exact viewStep_wearing session other name held mute
  | dropView name => rfl
  | printer name change => exact absurd rfl (printerless name change)
  | file name command => exact fileStep_wearing session other name command
  | stream name => rw [step_stream, step_stream]
  | stdout => exact absurd rfl unread

theorem Alike.step_mute (alike : left.Alike right) {command : Command} (mute : ¬ command.Prints)
    (printerless : ∀ name change, command ≠ .printer name change) (unread : command ≠ .stdout) :
    (left.step command).2.Alike (right.step command).2 := by
  have moved := step_wearing left right mute printerless unread
  rw [← alike.eq_wearing] at moved
  -- Wearing its own printers, the session keeps them.
  have kept : (left.step command).2 = (left.step command).2.wearing left :=
    step_wearing left left mute printerless unread
  rw [moved]
  refine ⟨⟨rfl, rfl, rfl, rfl⟩, rfl, fun name => ?_⟩
  rw [kept]
  exact alike.printers name

/-! ## Commands about printers -/

theorem Alike.putPrinter (alike : left.Alike right) (name : String) {used used' : Printer}
    (shape : used'.shape = used.shape) :
    (left.putPrinter name used).Alike (right.putPrinter name used') := by
  refine ⟨⟨alike.tables, alike.views, alike.files, alike.ticket⟩, alike.contents, fun other => ?_⟩
  simp only [Session.putPrinter, Names.find?_insert]
  split
  · exact congrArg some shape
  · exact alike.printers other

def StepsAlike (one other : Stepped) : Prop :=
  one.2.Alike other.2 ∧ other.1.answer.isOk = one.1.answer.isOk

theorem Alike.refuse (alike : left.Alike right) (refusal : Refusal) :
    StepsAlike (left.refuse refusal) (right.refuse refusal) := ⟨alike, rfl⟩

theorem Alike.withFound (alike : left.Alike right) {α : Type} {found : Except Refusal α}
    {resume resume' : α → Stepped} (resumed : ∀ value, StepsAlike (resume value) (resume' value)) :
    StepsAlike (left.withFound found resume) (right.withFound found resume') := by
  cases found with
  | error refusal => exact alike.refuse refusal
  | ok value => exact resumed value

theorem Alike.withPrinter (alike : left.Alike right) (name : String)
    {resume resume' : Printer → Stepped}
    (resumed : ∀ used used', left.printers.find? name = some used → used'.shape = used.shape →
      StepsAlike (resume used) (resume' used')) :
    StepsAlike (left.withFound (find left.printers name) resume)
      (right.withFound (find right.printers name) resume') := by
  cases found : left.printers.find? name with
  | none =>
      simp only [Session.withFound, find, found, alike.no_printer found]
      exact alike.refuse _
  | some used =>
      obtain ⟨used', found', shape⟩ := alike.printer found
      simp only [Session.withFound, find, found, found']
      exact resumed used used' found shape

theorem Alike.changePrinter (alike : left.Alike right) (name : String)
    {change change' : Printer → Printer}
    (changed : ∀ used used', used'.shape = used.shape →
      (change' used').shape = (change used).shape) :
    StepsAlike (left.changePrinter name change) (right.changePrinter name change') :=
  alike.withPrinter name fun used used' _ shape =>
    ⟨alike.putPrinter name (changed used used' shape), rfl⟩

theorem Alike.redirect (alike : left.Alike right) (name : String) {target target' : Print.Target}
    (file : target'.file? = target.file?) :
    StepsAlike (left.changePrinter name (·.redirect target))
      (right.changePrinter name (·.redirect target')) := by
  apply alike.changePrinter
  intro used used' shape
  have settings : used'.settings = used.settings := congrArg Prod.fst shape
  simp only [Printer.shape, Printer.redirect, settings, file]

theorem Alike.addStream (alike : left.Alike right) (stream stream' : String)
    (sink sink' : Stream) : (left.addStream stream sink).Alike (right.addStream stream' sink') :=
  ⟨⟨alike.tables, alike.views, alike.files, alike.ticket⟩, alike.contents, alike.printers⟩

theorem Alike.step_switch (alike : left.Alike right) (name : String) {change : PrinterCommand}
    (switch : change.IsSwitch) :
    StepsAlike (left.step (.printer name change)) (right.step (.printer name change)) := by
  cases change with
  | create settings =>
      exact alike.withFound fun settings => ⟨alike.putPrinter name rfl, rfl⟩
  | toStdout => exact alike.redirect name rfl
  | toBuffer => exact alike.redirect name rfl
  | toFile file =>
      simp only [step, printerStep, alike.files]
      exact alike.withFound fun number => alike.redirect name rfl
  | toStream stream chunk limit silent =>
      apply alike.withPrinter name
      intro used used' _ shape
      have settings : used'.settings = used.settings := congrArg Prod.fst shape
      refine ⟨(alike.addStream stream stream _ _).putPrinter name ?_, rfl⟩
      simp only [Printer.shape, Printer.redirect, settings, Print.Target.file?]
  | setSettings settings => exact switch.elim
  | describe => exact switch.elim
  | buffered => exact switch.elim
  | printValues precision values title => exact switch.elim

theorem Alike.switches_iff (alike : left.Alike right) (name : String) (command : Command) :
    right.Switches name command ↔ left.Switches name command := by
  constructor
  · rintro ⟨change, rfl, switch, succeeds⟩
    exact ⟨change, rfl, switch, (alike.step_switch name switch).2 ▸ succeeds⟩
  · rintro ⟨change, rfl, switch, succeeds⟩
    exact ⟨change, rfl, switch, (alike.step_switch name switch).2.trans succeeds⟩

/-! ## Prints -/

theorem settings_eq_of_shape {used used' : Printer} (shape : used'.shape = used.shape) :
    used'.settings = used.settings := congrArg Prod.fst shape

theorem Alike.printout? (alike : left.Alike right) (command : Command) :
    (right.printout? command).map Printout.block = (left.printout? command).map Printout.block := by
  have fromPrinter : ∀ (name : String) (made : Printer → Option Printout),
      (∀ used used' : Printer, used'.settings = used.settings →
        (made used').map Printout.block = (made used).map Printout.block) →
      (right.printers.find? name >>= made).map Printout.block =
        (left.printers.find? name >>= made).map Printout.block := by
    intro name made same
    cases found : left.printers.find? name with
    | none => rw [alike.no_printer found]
    | some used =>
        obtain ⟨used', found', shape⟩ := alike.printer found
        rw [found']
        exact same used used' (settings_eq_of_shape shape)
  unfold Session.printout?
  split
  · rename_i name printer region title
    rw [alike.tables, alike.ticket]
    cases left.tables.find? name with
    | none => rfl
    | some owner =>
        apply fromPrinter
        intro used used' settings
        cases owner.table.acquire region .readOnly left.nextTicket with
        | error error => rfl
        | ok lent => simp [Printout.block, settings]
  · rename_i name printer title
    rw [alike.tables]
    cases left.tables.find? name with
    | none => rfl
    | some owner =>
        apply fromPrinter
        intro used used' settings
        simp [Printout.block, settings]
  · rename_i name printer title
    rw [alike.views]
    cases left.views.find? name with
    | none => rfl
    | some held =>
        apply fromPrinter
        intro used used' settings
        simp [Printout.block, settings]
  · apply fromPrinter
    intro used used' settings
    simp [Printout.block, settings]
  · rfl

theorem Alike.printout?_of_some (alike : left.Alike right) {command : Command} {out : Printout}
    (put : left.printout? command = some out) :
    ∃ out', right.printout? command = some out' ∧ out'.block = out.block := by
  have same := alike.printout? command
  rw [put] at same
  exact Option.map_eq_some_iff.mp same

theorem Alike.printout?_of_none (alike : left.Alike right) {command : Command}
    (silent : left.printout? command = none) : right.printout? command = none := by
  have same := alike.printout? command
  rw [silent] at same
  exact Option.map_eq_none_iff.mp same

theorem received_files (out : Printout) (outlets : Outlets) :
    (out.received outlets).2.files =
      match out.printer.target.file? with
      | some number => outlets.files.modify number fun sink => sink.write out.text.toByteArray
      | none => outlets.files := by
  unfold Printout.received
  cases out.printer.target <;> rfl

theorem received_file? (out : Printout) (outlets : Outlets) :
    (out.received outlets).1.file? = out.printer.target.file? := by
  unfold Printout.received
  cases out.printer.target <;> rfl

theorem Alike.of_puts (alike : left.Alike right) {out out' : Printout} {next next' : Session}
    (puts : left.Puts out next) (puts' : right.Puts out' next') (block : out'.block = out.block)
    (books : next.SameBooks next') : next.Alike next' := by
  have name := Printout.name_of_block block
  have text := Printout.text_of_block block
  have shape : out'.printer.shape = out.printer.shape := by
    have same := alike.printers out.name
    rw [puts.found, ← name, puts'.found] at same
    exact Option.some.inj same
  have file : out'.printer.target.file? = out.printer.target.file? := congrArg Prod.snd shape
  refine ⟨books, ?_, fun other => ?_⟩
  · rw [puts.outlets, puts'.outlets, received_files, received_files, file, text, alike.contents]
  · rw [puts.printers, puts'.printers, name]
    split
    · simp only [Option.map_some, Printer.shape, Printer.redirect, received_file?, file,
        settings_eq_of_shape shape]
    · exact alike.printers other

theorem sameBooks_withFound {session : Session} {α : Type} {found : Except Refusal α}
    {resume : α → Stepped} (resumed : ∀ value, session.SameBooks (resume value).2) :
    session.SameBooks (session.withFound found resume).2 := by
  cases found with
  | error refusal => exact ⟨rfl, rfl, rfl, rfl⟩
  | ok value => exact resumed value

theorem Alike.books_of_same (alike : left.Alike right) {next next' : Session}
    (books : left.SameBooks next) (books' : right.SameBooks next') : next.SameBooks next' :=
  (books.symm.trans alike.toSameBooks).trans books'

theorem afterPrinting_books (session : Session) (printer : String)
    (printed : Except Fault (Printer.Printed (Except WriteError Unit))) :
    session.SameBooks (session.afterPrinting printer printed).2 := by
  cases printed <;> exact ⟨rfl, rfl, rfl, rfl⟩

theorem Alike.printRegion_books (alike : left.Alike right) (name title : String)
    {owner : SomeTable} {printer : String} {used used' : Printer} {region : Region}
    {view : View (Binary owner.precision)} {lent : Table (Binary owner.precision) owner.dim}
    (found : left.printers.find? printer = some used)
    (found' : right.printers.find? printer = some used')
    (granted : owner.table.acquire region .readOnly left.nextTicket = .ok (view, lent))
    (lays : Print.Admits used.settings view.data.toRows)
    (lays' : Print.Admits used'.settings view.data.toRows) :
    (left.printRegion name owner printer region title).2.SameBooks
      (right.printRegion name owner printer region title).2 := by
  obtain ⟨after, passes⟩ := Printer.printRegion_of_shown granted
  obtain ⟨printed, shown, _⟩ := Printer.printRows_of_admits left.outlets title lays
  obtain ⟨printed', shown', _⟩ := Printer.printRows_of_admits right.outlets title lays'
  obtain ⟨answer, passed⟩ := passes used left.outlets printed shown
  obtain ⟨answer', passed'⟩ := passes used' right.outlets printed' shown'
  simp only [printRegion, Session.withFound, Session.find, found, found', alike.ticket, passed,
    passed', granted]
  refine ⟨?_, alike.views, alike.files, rfl⟩
  simp only [Session.putPrinter, putTable, alike.tables]

theorem Alike.step_put (alike : left.Alike right) {command : Command} {out : Printout}
    (put : left.printout? command = some out) (lays : out.LaysOut) :
    (left.step command).2.Alike (right.step command).2 := by
  obtain ⟨out', put', block⟩ := alike.printout?_of_some put
  have lays' := Printout.laysOut_of_block block lays
  have puts := step_puts put lays
  have puts' := step_puts put' lays'
  refine alike.of_puts puts puts' block ?_
  unfold Session.printout? at put put'
  split at put
  · rename_i name printer region title
    simp only [bind, Option.bind_eq_some_iff] at put put'
    obtain ⟨owner, owned, used, found, put⟩ := put
    obtain ⟨owner', owned', used', found', put'⟩ := put'
    rw [alike.tables, owned] at owned'
    obtain rfl := Option.some.inj owned'
    split at put
    · rename_i view lent granted
      rw [alike.ticket, granted] at put'
      obtain rfl := Option.some.inj put
      obtain rfl := Option.some.inj put'
      have books := alike.printRegion_books name title found found' granted lays lays'
      simp only [step, Session.withFound, Session.find, alike.tables, owned, tableStep]
      exact books
    · cases put
  · apply alike.books_of_same <;>
      exact sameBooks_withFound fun _ => sameBooks_withFound fun _ => afterPrinting_books _ _ _
  · apply alike.books_of_same <;>
      exact sameBooks_withFound fun _ => sameBooks_withFound fun _ => afterPrinting_books _ _ _
  · apply alike.books_of_same <;> exact sameBooks_withFound fun _ => afterPrinting_books _ _ _
  · cases put

theorem Alike.refused_books (alike : left.Alike right) {name printer title : String}
    {region : Region}
    (silent : left.printout? (.table name (.printRegion printer region title)) = none) :
    (left.step (.table name (.printRegion printer region title))).2.SameBooks
      (right.step (.table name (.printRegion printer region title))).2 := by
  cases owned : left.tables.find? name with
  | none =>
      simp only [step, Session.withFound, Session.find, alike.tables, owned]
      exact alike.toSameBooks
  | some owner =>
      have owned' : right.tables.find? name = some owner := alike.tables ▸ owned
      cases found : left.printers.find? printer with
      | none =>
          simp only [step, Session.withFound, Session.find, owned, owned', tableStep, printRegion,
            found, alike.no_printer found]
          exact alike.toSameBooks
      | some used =>
          obtain ⟨used', found', _⟩ := alike.printer found
          cases refused : owner.table.acquire region .readOnly left.nextTicket with
          | ok lent => simp [Session.printout?, owned, found, refused] at silent
          | error error =>
              have refused' : owner.table.acquire region .readOnly right.nextTicket =
                  .error error := alike.ticket ▸ refused
              rw [step_printRegion_of_refused owned found refused,
                step_printRegion_of_refused owned' found' refused']
              refine ⟨?_, alike.views, alike.files, alike.ticket⟩
              simp only [Session.putPrinter, putTable, alike.tables]

theorem Alike.step_unprinted (alike : left.Alike right) {command : Command}
    (prints : command.Prints) (silent : left.printout? command = none) :
    (left.step command).2.Alike (right.step command).2 := by
  have silent' := alike.printout?_of_none silent
  obtain ⟨_, outlets, printers⟩ := Session.step_unprinted prints silent
  obtain ⟨_, outlets', printers'⟩ := Session.step_unprinted prints silent'
  refine ⟨?_, by rw [outlets, outlets', alike.contents], fun name => ?_⟩
  · unfold Command.Prints at prints
    split at prints
    · rename_i name printer region title
      exact alike.refused_books silent
    · apply alike.books_of_same <;>
        exact sameBooks_withFound fun _ => sameBooks_withFound fun _ => afterPrinting_books _ _ _
    · apply alike.books_of_same <;>
        exact sameBooks_withFound fun _ => sameBooks_withFound fun _ => afterPrinting_books _ _ _
    · apply alike.books_of_same <;> exact sameBooks_withFound fun _ => afterPrinting_books _ _ _
    · exact prints.elim
  · rw [printers, printers']
    exact alike.printers name

/-! ## All commands -/

theorem Alike.step_printer (alike : left.Alike right) (name : String) {change : PrinterCommand}
    (mute : ¬ (Command.printer name change).Prints) :
    (left.step (.printer name change)).2.Alike (right.step (.printer name change)).2 := by
  by_cases switch : change.IsSwitch
  · exact (alike.step_switch name switch).1
  · cases change with
    | setSettings settings =>
        refine (alike.withFound fun settings => alike.changePrinter name ?_).1
        intro used used' shape
        have file : used'.target.file? = used.target.file? := congrArg Prod.snd shape
        simp only [Printer.shape, file]
    | describe => rw [step_describe, step_describe]; exact alike
    | buffered => rw [step_buffered, step_buffered]; exact alike
    | printValues precision values title => exact absurd trivial mute
    | create settings => exact absurd trivial switch
    | toStdout => exact absurd trivial switch
    | toBuffer => exact absurd trivial switch
    | toFile file => exact absurd trivial switch
    | toStream stream chunk limit silent => exact absurd trivial switch

theorem Alike.step (alike : left.Alike right) (command : Command)
    (lays : ∀ out, left.printout? command = some out → out.LaysOut) :
    (left.step command).2.Alike (right.step command).2 := by
  by_cases prints : command.Prints
  · cases put : left.printout? command with
    | some out => exact alike.step_put put (lays out put)
    | none => exact alike.step_unprinted prints put
  · cases command with
    | printer name change => exact alike.step_printer name prints
    | stdout =>
        exact ⟨⟨alike.tables, alike.views, alike.files, alike.ticket⟩, alike.contents,
          alike.printers⟩
    | create name precision fill triangle dim source =>
        exact alike.step_mute prints (by simp) (by simp)
    | load name file precision fill => exact alike.step_mute prints (by simp) (by simp)
    | table name command => exact alike.step_mute prints (by simp) (by simp)
    | dropTable name => exact alike.step_mute prints (by simp) (by simp)
    | view name command => exact alike.step_mute prints (by simp) (by simp)
    | dropView name => exact alike.step_mute prints (by simp) (by simp)
    | file name command => exact alike.step_mute prints (by simp) (by simp)
    | stream name => exact alike.step_mute prints (by simp) (by simp)

/-- Alike sessions stay alike, print the same, and switch the same printers. -/
theorem Alike.run (alike : left.Alike right) {commands : List Command}
    (lays : left.LaysOut commands) :
    (left.after commands).Alike (right.after commands) ∧
      (right.printouts commands).map Printout.block =
        (left.printouts commands).map Printout.block ∧
      ∀ name, right.Stays name commands ↔ left.Stays name commands := by
  induction commands generalizing left right with
  | nil => exact ⟨alike, rfl, fun _ => Iff.rfl⟩
  | cons command commands ih =>
      obtain ⟨laysNow, laysLater⟩ := laysOut_cons.mp lays
      obtain ⟨reached, texts, stays⟩ := ih (alike.step command laysNow) laysLater
      have now : (right.printout? command).toList.map Printout.block =
          (left.printout? command).toList.map Printout.block := by
        rw [← Option.toList_map, ← Option.toList_map, alike.printout?]
      refine ⟨reached, ?_, fun name => ?_⟩
      · simp only [printouts, List.map_append, texts, now]
      · simp only [Session.Stays, alike.switches_iff, stays]

end Session

theorem Printout.textOf_block {outs outs' : List Printout} (name : String)
    (same : outs'.map Printout.block = outs.map Printout.block) :
    textOf (fun out => out.name == name) outs' = textOf (fun out => out.name == name) outs := by
  have blocks : ∀ list : List Printout, textOf (fun out => out.name == name) list =
      textOf (fun out => out.name == name) (list.map Printout.block) := by
    intro list
    simp only [textOf, List.filter_map, List.map_map]
    rfl
  rw [blocks outs', same, ← blocks]

theorem Session.laysOut_of_blocks {left right : Session} {commands : List Command}
    (same : (right.printouts commands).map Printout.block =
      (left.printouts commands).map Printout.block) (lays : left.LaysOut commands) :
    right.LaysOut commands := by
  intro out mem
  have mapped : out.block ∈ (left.printouts commands).map Printout.block :=
    same ▸ List.mem_map_of_mem mem
  obtain ⟨out', mem', block⟩ := List.mem_map.mp mapped
  exact Printout.laysOut_of_block block.symm (lays out' mem')

end HalfMatrix
