import HalfMatrix.Proofs.Outlets
import HalfMatrix.Proofs.Session.Printing

/-!
# What the commands of a session print

A printout is a block that a command prints, with the printer as it is at that
moment.  `step_output` says all that a step can do to the printers and to what
is kept outside the files: deliver its printout to the one target of its
printer, give a printer another target, clear standard output, or none of it.
-/

set_option autoImplicit false

namespace HalfMatrix

structure Printout where
  /-- The name of the printer. -/
  name : String
  printer : Printer
  precision : Precision
  title : String
  rows : List (List (Binary precision))

namespace Printout

def pieces (out : Printout) : List String :=
  Print.pieces out.printer.settings out.title out.rows

def text (out : Printout) : String := String.join out.pieces

/-- The width and the precision of the printer are such that values can be laid out. -/
def LaysOut (out : Printout) : Prop := Print.Admits out.printer.settings out.rows

instance (out : Printout) : Decidable out.LaysOut :=
  inferInstanceAs (Decidable (Print.Admits _ _))

def received (out : Printout) (outlets : Outlets) : Print.Target × Outlets :=
  out.printer.target.receive outlets out.text

end Printout

namespace Session

/-- What a command prints.  A command that is refused by its table, or that names
what is not there, prints nothing. -/
def printout? (session : Session) : Command → Option Printout
  | .table name (.printRegion printer region title) => do
      let owner ← session.tables.find? name
      let used ← session.printers.find? printer
      match owner.table.acquire region .readOnly session.nextTicket with
      | .ok (view, _) => some ⟨printer, used, owner.precision, title, view.data.toRows⟩
      | .error _ => none
  | .table name (.printPacked printer title) => do
      let owner ← session.tables.find? name
      let used ← session.printers.find? printer
      some ⟨printer, used, owner.precision, title, [owner.table.entries.toList]⟩
  | .view name (.print printer title) => do
      let held ← session.views.find? name
      let used ← session.printers.find? printer
      some ⟨printer, used, held.precision, title, held.view.data.toRows⟩
  | .printer name (.printValues precision values title) => do
      let used ← session.printers.find? name
      some ⟨name, used, precision, title, [values.map (Numeral.toBinary precision)]⟩
  | _ => none

end Session

def Command.Prints : Command → Prop
  | .table _ (.printRegion _ _ _) => True
  | .table _ (.printPacked _ _) => True
  | .view _ (.print _ _) => True
  | .printer _ (.printValues _ _ _) => True
  | _ => False

def PrinterCommand.IsSwitch : PrinterCommand → Prop
  | .create _ => True
  | .toStdout => True
  | .toBuffer => True
  | .toFile _ => True
  | .toStream _ _ _ _ => True
  | _ => False

/-! ## Printing -/

namespace Printer

variable {precision : Precision} {n : Nat} {printer : Printer} {outlets : Outlets}

theorem printRows_of_admits (outlets : Outlets) (title : String)
    {rows : List (List (Binary precision))} (lays : Print.Admits printer.settings rows) :
    ∃ printed, printer.printRows outlets title rows = .ok printed ∧
      Print.Delivers printer.target outlets
        (String.join (Print.pieces printer.settings title rows))
        (printed.printer.target, printed.outlets, printed.answer) ∧
      printed.printer.settings = printer.settings :=
  ⟨_, if_pos lays, printer.target.writeAll_delivers outlets _, rfl⟩

/-- A region that is granted can be given back, and what it prints does not depend
on how it is. -/
theorem printRegion_of_shown {table lent : Table (Binary precision) n} {region : Region}
    {title : String} {ticket : Ticket} {view : View (Binary precision)}
    (granted : table.acquire region .readOnly ticket = .ok (view, lent)) :
    ∃ after, ∀ (printer : Printer) (outlets : Outlets) (printed : Printed (Except WriteError Unit)),
      printer.printView outlets title view = .ok printed →
      ∃ answer, printer.printRegion outlets table region title ticket =
        .ok (after, { printer := printed.printer, outlets := printed.outlets, answer }) := by
  obtain ⟨within, _, rfl, _⟩ := Table.acquire_eq_ok_iff.mp granted
  have keeps : (table.lentView region within .readOnly ticket).access.writes = false := rfl
  obtain ⟨⟨after, outcome⟩, released⟩ := lent.release_of_keeps region keeps
  refine ⟨after, fun printer outlets printed shown => ?_⟩
  simp only [printRegion, granted, shown, released, bind, Except.bind]
  exact ⟨_, rfl⟩

end Printer

namespace Session

/-- The printout has gone to the target of its printer and to no other. -/
structure Puts (session : Session) (out : Printout) (next : Session) : Prop where
  found : session.printers.find? out.name = some out.printer
  outlets : next.outlets = (out.received session.outlets).2
  printers : ∀ name, next.printers.find? name =
    if name = out.name then some (out.printer.redirect (out.received session.outlets).1)
    else session.printers.find? name

variable {session : Session}

theorem puts_of_delivers {out : Printout} {next : Session}
    {printed : Printer.Printed (Except WriteError Unit)}
    (found : session.printers.find? out.name = some out.printer)
    (delivers : Print.Delivers out.printer.target session.outlets out.text
      (printed.printer.target, printed.outlets, printed.answer))
    (settings : printed.printer.settings = out.printer.settings)
    (outlets : next.outlets = printed.outlets)
    (printers : next.printers = session.printers.insert out.name printed.printer) :
    session.Puts out next := by
  have kept : (printed.printer.target, printed.outlets) = out.received session.outlets :=
    delivers.kept
  have printer : printed.printer = out.printer.redirect (out.received session.outlets).1 := by
    rw [← kept, Printer.redirect, ← settings]
  refine ⟨found, by rw [outlets, ← kept], fun name => ?_⟩
  rw [printers, Names.find?_insert, printer]

theorem afterPrinting_puts {out : Printout}
    (found : session.printers.find? out.name = some out.printer) (lays : out.LaysOut) :
    session.Puts out (session.afterPrinting out.name
      (out.printer.printRows session.outlets out.title out.rows)).2 := by
  obtain ⟨printed, shown, delivers, settings⟩ :=
    Printer.printRows_of_admits session.outlets out.title lays
  rw [shown]
  exact puts_of_delivers found delivers settings rfl rfl

/-- The printout of a command goes to the target that its printer has. -/
theorem step_puts {command : Command} {out : Printout}
    (put : session.printout? command = some out) (lays : out.LaysOut) :
    session.Puts out (session.step command).2 := by
  unfold printout? at put
  split at put
  · rename_i name printer region title
    simp only [bind, Option.bind_eq_some_iff] at put
    obtain ⟨owner, owned, used, found, put⟩ := put
    split at put
    · rename_i view lent granted
      obtain rfl := Option.some.inj put
      obtain ⟨printed, shown, delivers, settings⟩ :=
        Printer.printRows_of_admits session.outlets title lays
      obtain ⟨after, passes⟩ := Printer.printRegion_of_shown granted
      obtain ⟨answer, passed⟩ := passes used session.outlets printed shown
      apply puts_of_delivers found delivers settings
      all_goals simp only [step, withFound, find, owned, tableStep, printRegion, found, passed]
      all_goals rfl
    · cases put
  · rename_i name printer title
    simp only [bind, Option.bind_eq_some_iff] at put
    obtain ⟨owner, owned, used, found, put⟩ := put
    obtain rfl := Option.some.inj put
    have stepped := afterPrinting_puts found lays
    simp only [step, withFound, find, owned, tableStep, printPacked, found]
    exact stepped
  · rename_i name printer title
    simp only [bind, Option.bind_eq_some_iff] at put
    obtain ⟨held, owned, used, found, put⟩ := put
    obtain rfl := Option.some.inj put
    have stepped := afterPrinting_puts found lays
    simp only [step, withFound, find, owned, viewStep, found]
    exact stepped
  · rename_i name precision values title
    simp only [bind, Option.bind_eq_some_iff] at put
    obtain ⟨used, found, put⟩ := put
    obtain rfl := Option.some.inj put
    have stepped := afterPrinting_puts found lays
    simp only [step, withFound, find, printerStep, found]
    exact stepped
  · cases put

/-! ## Refused prints -/

structure Unprinted (session : Session) (stepped : Stepped) : Prop where
  answer : ∃ refusal, stepped.1.answer = .error refusal
  outlets : stepped.2.outlets = session.outlets
  printers : ∀ name, stepped.2.printers.find? name = session.printers.find? name

theorem unprinted_withFound {α : Type} {found : Except Refusal α} {resume : α → Stepped}
    (resumed : ∀ value, found = .ok value → session.Unprinted (resume value)) :
    session.Unprinted (session.withFound found resume) := by
  unfold withFound
  split
  · exact resumed _ rfl
  · exact ⟨⟨_, rfl⟩, rfl, fun _ => rfl⟩

theorem step_unprinted {command : Command} (prints : command.Prints)
    (silent : session.printout? command = none) :
    session.Unprinted (session.step command) := by
  unfold Command.Prints at prints
  split at prints
  · rename_i name printer region title
    apply unprinted_withFound
    intro owner owned
    apply unprinted_withFound
    intro used found
    have owned := find_eq_ok owned
    have found := find_eq_ok found
    cases refused : owner.table.acquire region .readOnly session.nextTicket with
    | ok lent => simp [printout?, owned, found, refused] at silent
    | error error =>
        have passed : used.printRegion session.outlets owner.table region title
            session.nextTicket = _ := Printer.printRegion_of_refused refused
        simp only [passed]
        exact ⟨⟨_, rfl⟩, rfl, find?_insert_self found⟩
  · rename_i name printer title
    apply unprinted_withFound
    intro owner owned
    apply unprinted_withFound
    intro used found
    simp [printout?, find_eq_ok owned, find_eq_ok found] at silent
  · rename_i name printer title
    apply unprinted_withFound
    intro held owned
    apply unprinted_withFound
    intro used found
    simp [printout?, find_eq_ok owned, find_eq_ok found] at silent
  · rename_i name precision values title
    apply unprinted_withFound
    intro used found
    simp [printout?, find_eq_ok found] at silent
  · exact prints.elim

/-! ## Everything but printing -/

def target? (session : Session) (name : String) : Option Print.Target :=
  (session.printers.find? name).map Printer.target

def Switches (session : Session) (name : String) (command : Command) : Prop :=
  ∃ change, command = .printer name change ∧ change.IsSwitch ∧
    (session.step command).1.answer.isOk = true

/-- Nothing was put out, and every printer has the target that it had. -/
structure Quiet (session next : Session) : Prop where
  stdout : next.outlets.stdout = session.outlets.stdout
  streams : next.outlets.streams = session.outlets.streams
  targets : ∀ name, next.target? name = session.target? name

/-- A printer was given another target.  A stream that it prints to is a new one. -/
structure Redirected (session : Session) (name : String) (target : Print.Target)
    (next : Session) : Prop where
  stdout : next.outlets.stdout = session.outlets.stdout
  streams : ∃ opened, next.outlets.streams = session.outlets.streams ++ opened
  targets : ∀ other, next.target? other =
    if other = name then some target else session.target? other
  fresh : ∀ number, target = .stream number →
    number = session.outlets.streams.length ∧ number < next.outlets.streams.length

/-- What a command prints has gone where it belongs, and nothing else has happened
to the printers and what they print to. -/
inductive Output (session : Session) (command : Command) (next : Session) : Prop where
  | printed {out : Printout} (put : session.printout? command = some out)
      (puts : session.Puts out next)
  | switched {name : String} {target : Print.Target} (silent : session.printout? command = none)
      (switches : session.Switches name command)
      (buffer : command = .printer name .toBuffer → target = .buffer "")
      (unbuffered : command ≠ .printer name .toBuffer → ∀ text, target ≠ .buffer text)
      (redirected : session.Redirected name target next)
  | cleared (is : command = .stdout) (stdout : next.outlets.stdout = "")
      (streams : next.outlets.streams = session.outlets.streams)
      (targets : ∀ name, next.target? name = session.target? name)
  | quiet (silent : session.printout? command = none)
      (stays : ∀ name, ¬ session.Switches name command) (quiet : session.Quiet next)

theorem quiet_self (session : Session) : session.Quiet session := ⟨rfl, rfl, fun _ => rfl⟩

theorem quiet_withFound {α : Type} {found : Except Refusal α} {resume : α → Stepped}
    (resumed : ∀ value, found = .ok value → session.Quiet (resume value).2) :
    session.Quiet (session.withFound found resume).2 := by
  unfold withFound
  split
  · exact resumed _ rfl
  · exact session.quiet_self

theorem quiet_putTable (session : Session) (name : String) (owner : SomeTable) :
    session.Quiet (session.putTable name owner) := ⟨rfl, rfl, fun _ => rfl⟩

theorem quiet_putFile (session : Session) (number : Nat) (file : File) :
    session.Quiet (session.putFile number file) := ⟨rfl, rfl, fun _ => rfl⟩

theorem quiet_create (session : Session) (name : String) (made : Except Refusal SomeTable) :
    session.Quiet (session.create name made).2 :=
  quiet_withFound fun owner _ => session.quiet_putTable name owner

theorem quiet_load (session : Session) (name file : String) (precision : Precision)
    (fill : Fill) : session.Quiet (session.load name file precision fill).2 := by
  apply quiet_withFound
  rintro ⟨number, source⟩ _
  have read := session.quiet_putFile number source.atEnd
  dsimp only
  generalize loadTable precision fill source.remaining = outcome
  have made := (session.putFile number source.atEnd).quiet_create name outcome
  exact ⟨made.stdout.trans read.stdout, made.streams.trans read.streams,
    fun printer => (made.targets printer).trans (read.targets printer)⟩

theorem quiet_handBack (session : Session) (name : String) (owner : SomeTable) (view : String)
    (take : View (Binary owner.precision) →
      Except Fault (Table (Binary owner.precision) owner.dim × Except TableError Unit)) :
    session.Quiet (session.handBack name owner view take).2 := by
  apply quiet_withFound
  intro held _
  split
  · split
    · exact session.quiet_self
    · exact ⟨rfl, rfl, fun _ => rfl⟩
  · exact session.quiet_self

theorem quiet_printRegion {name : String} {owner : SomeTable} {printer : String} {region : Region}
    {title : String} (owned : session.tables.find? name = some owner)
    (silent : session.printout? (.table name (.printRegion printer region title)) = none) :
    session.Quiet (session.printRegion name owner printer region title).2 := by
  apply quiet_withFound
  intro used found
  have found := find_eq_ok found
  cases granted : owner.table.acquire region .readOnly session.nextTicket with
  | ok lent => simp [printout?, owned, found, granted] at silent
  | error error =>
      have passed : used.printRegion session.outlets owner.table region title session.nextTicket =
          .ok (owner.table, { printer := used, outlets := session.outlets,
                              answer := .error (.table error) }) := by
        simp only [Printer.printRegion, granted]
        rfl
      simp only [passed]
      refine ⟨rfl, rfl, fun other => ?_⟩
      exact congrArg (Option.map Printer.target) (find?_insert_self found other)

theorem quiet_tableStep {name : String} {owner : SomeTable} {command : TableCommand}
    (owned : session.tables.find? name = some owner)
    (silent : session.printout? (.table name command) = none) :
    session.Quiet (session.tableStep name owner command).2 := by
  cases command with
  | printRegion printer region title => exact quiet_printRegion owned silent
  | printPacked printer title =>
      apply quiet_withFound
      intro used found
      simp [printout?, owned, find_eq_ok found] at silent
  | setPacked position value =>
      simp only [tableStep]
      split
      · exact session.quiet_self
      · exact session.quiet_putTable name _
  | set row col value =>
      simp only [tableStep]
      split
      · exact session.quiet_self
      · exact session.quiet_putTable name _
  | acquire view region access =>
      simp only [tableStep, acquire]
      split
      · exact session.quiet_self
      · exact ⟨rfl, rfl, fun _ => rfl⟩
  | release view region => exact session.quiet_handBack name owner view _
  | discard view => exact session.quiet_handBack name owner view _
  | equals other =>
      apply quiet_withFound
      intro other _
      split <;> exact session.quiet_self
  | save file =>
      apply quiet_withFound
      rintro ⟨number, target⟩ _
      simp only
      split
      · exact session.quiet_self
      · exact session.quiet_putFile number _
  | setAll value => exact session.quiet_putTable name _
  | copy target => exact session.quiet_putTable target _
  | toTriangle target triangle => exact session.quiet_putTable target _
  | info => exact session.quiet_self
  | packed => exact session.quiet_self
  | get row col => exact session.quiet_self
  | dense => exact session.quiet_self
  | display => exact session.quiet_self

theorem quiet_editView (session : Session) (name : String) (held : SomeView)
    (edited : Option (View (Binary held.precision))) :
    session.Quiet (session.editView name held edited).2 := by
  unfold editView
  split
  · exact ⟨rfl, rfl, fun _ => rfl⟩
  · exact session.quiet_self

theorem quiet_readView (session : Session) (held : SomeView)
    (value : Option (Binary held.precision)) : session.Quiet (session.readView held value).2 := by
  unfold readView
  split <;> exact session.quiet_self

theorem quiet_viewStep {name : String} {held : SomeView} {command : ViewCommand}
    (found : session.views.find? name = some held)
    (silent : session.printout? (.view name command) = none) :
    session.Quiet (session.viewStep name held command).2 := by
  cases command with
  | print printer title =>
      apply quiet_withFound
      intro used used'
      simp [printout?, found, find_eq_ok used'] at silent
  | row index =>
      simp only [viewStep]
      split <;> exact session.quiet_self
  | inspect => exact session.quiet_self
  | «at» index => exact session.quiet_readView held _
  | entry row col => exact session.quiet_readView held _
  | setAt index value => exact session.quiet_editView name held _
  | setEntry row col value => exact session.quiet_editView name held _
  | setRow index values => exact session.quiet_editView name held _
  | fill values => exact session.quiet_editView name held _

theorem quiet_fileStep (session : Session) (name : String) (command : FileCommand) :
    session.Quiet (session.fileStep name command).2 := by
  cases command with
  | create content => exact ⟨rfl, rfl, fun _ => rfl⟩
  | write bytes => exact quiet_withFound fun file _ => session.quiet_putFile file.1 _
  | seek cursor => exact quiet_withFound fun file _ => session.quiet_putFile file.1 _
  | content => exact quiet_withFound fun _ _ => session.quiet_self

theorem step_describe (session : Session) (name : String) :
    (session.step (.printer name .describe)).2 = session := by
  simp only [step, printerStep, withFound]
  split <;> rfl

theorem step_buffered (session : Session) (name : String) :
    (session.step (.printer name .buffered)).2 = session := by
  simp only [step, printerStep, withFound]
  split
  · split <;> rfl
  · rfl

theorem quiet_setSettings (session : Session) (name : String) (settings : Print.Settings) :
    session.Quiet
      (session.changePrinter name fun printer => { printer with settings }).2 := by
  apply quiet_withFound
  intro printer found
  refine ⟨rfl, rfl, fun other => ?_⟩
  have found := find_eq_ok found
  simp only [target?, putPrinter, Names.find?_insert]
  split
  · rename_i same
    rw [same, found]
    rfl
  · rfl

theorem redirected_putPrinter {name : String} (printer : Printer) {target : Print.Target}
    (is : printer.target = target) (earlier : ∀ number, target ≠ .stream number) :
    session.Redirected name target (session.putPrinter name printer) := by
  refine ⟨rfl, ⟨[], (List.append_nil _).symm⟩, fun other => ?_, fun number same =>
    absurd same (earlier number)⟩
  simp only [target?, putPrinter, Names.find?_insert]
  split
  · exact congrArg some is
  · rfl

/-! ## All commands -/

theorem output_of_refused {command : Command} (refusal : Refusal)
    (silent : session.printout? command = none)
    (refused : session.step command = session.refuse refusal) :
    session.Output command (session.step command).2 := by
  refine .quiet silent ?_ ?_
  · rintro name ⟨change, _, _, succeeds⟩
    rw [refused] at succeeds
    cases succeeds
  · rw [refused]
    exact session.quiet_self

theorem output_of_quiet {command : Command} (silent : session.printout? command = none)
    (other : ∀ name change, command = .printer name change → ¬ change.IsSwitch)
    (quiet : session.Quiet (session.step command).2) :
    session.Output command (session.step command).2 := by
  refine .quiet silent ?_ quiet
  rintro name ⟨change, is, switch, _⟩
  exact other name change is switch

theorem output_of_switch {name : String} {change : PrinterCommand} (target : Print.Target)
    {next : Session} (switch : change.IsSwitch)
    (silent : session.printout? (.printer name change) = none)
    (stepped : session.step (.printer name change) = ({ answer := .ok .done }, next))
    (buffer : change = .toBuffer → target = .buffer "")
    (unbuffered : change ≠ .toBuffer → ∀ text, target ≠ .buffer text)
    (redirected : session.Redirected name target next) :
    session.Output (.printer name change) (session.step (.printer name change)).2 := by
  refine .switched silent ⟨change, rfl, switch, by rw [stepped]; rfl⟩ ?_ ?_
    (by rw [stepped]; exact redirected)
  · intro same
    cases same
    exact buffer rfl
  · intro other
    exact unbuffered fun same => other (by rw [same])

theorem output_redirect {name : String} {change : PrinterCommand} (target : Print.Target)
    (switch : change.IsSwitch) (silent : session.printout? (.printer name change) = none)
    (redirects : session.step (.printer name change) =
      session.changePrinter name (·.redirect target))
    (buffer : change = .toBuffer → target = .buffer "")
    (unbuffered : change ≠ .toBuffer → ∀ text, target ≠ .buffer text)
    (earlier : ∀ number, target ≠ .stream number) :
    session.Output (.printer name change) (session.step (.printer name change)).2 := by
  cases found : session.printers.find? name with
  | none =>
      apply output_of_refused (.unknownName name) silent
      simp only [redirects, changePrinter, withFound, find, found]
  | some used =>
      refine output_of_switch target switch silent ?_ buffer unbuffered
        (redirected_putPrinter (used.redirect target) rfl earlier)
      simp only [redirects, changePrinter, withFound, find, found]

theorem redirected_addStream (session : Session) (name stream : String) (used : Printer)
    (sink : Stream) :
    session.Redirected name (.stream session.outlets.streams.length)
      ((session.addStream stream sink).putPrinter name
        (used.redirect (.stream session.outlets.streams.length))) := by
  refine ⟨rfl, ⟨[sink], rfl⟩, fun other => ?_, fun number same => ?_⟩
  · simp only [target?, putPrinter, addStream, Names.find?_insert]
    split <;> rfl
  · cases same
    exact ⟨rfl, by simp [putPrinter, addStream]⟩

theorem output_printer (session : Session) (name : String) (change : PrinterCommand)
    (lays : ∀ out, session.printout? (.printer name change) = some out → out.LaysOut) :
    session.Output (.printer name change) (session.step (.printer name change)).2 := by
  cases change with
  | create settings =>
      cases made : makeSettings settings with
      | error error =>
          apply output_of_refused (.settings error) rfl
          simp only [step, printerStep, withFound, made]
          rfl
      | ok settings =>
          refine output_of_switch .stdout trivial rfl ?_ (by simp) (by simp)
            (redirected_putPrinter { settings } rfl (by simp))
          simp only [step, printerStep, withFound, made]
          rfl
  | setSettings settings =>
      refine output_of_quiet rfl (by rintro _ _ ⟨_, _⟩ switch; exact switch) ?_
      exact quiet_withFound fun settings _ => session.quiet_setSettings name settings
  | describe =>
      refine output_of_quiet rfl (by rintro _ _ ⟨_, _⟩ switch; exact switch) ?_
      rw [step_describe]
      exact session.quiet_self
  | buffered =>
      refine output_of_quiet rfl (by rintro _ _ ⟨_, _⟩ switch; exact switch) ?_
      rw [step_buffered]
      exact session.quiet_self
  | toStdout => exact output_redirect _ trivial rfl rfl (by simp) (by simp) (by simp)
  | toBuffer => exact output_redirect _ trivial rfl rfl (by simp) (by simp) (by simp)
  | toFile file =>
      cases held : session.files.find? file with
      | none =>
          apply output_of_refused (.unknownName file) rfl
          simp only [step, printerStep, withFound, find, held]
      | some number =>
          refine output_redirect (.file number) trivial rfl ?_ (by simp) (by simp) (by simp)
          simp only [step, printerStep, withFound, find, held]
  | toStream stream chunk limit silent =>
      cases found : session.printers.find? name with
      | none =>
          apply output_of_refused (.unknownName name) rfl
          simp only [step, printerStep, withFound, find, found]
      | some used =>
          refine output_of_switch _ trivial rfl ?_ (by simp) (by simp)
            (session.redirected_addStream name stream used { chunk, limit, silent })
          simp only [step, printerStep, withFound, find, found]
  | printValues precision values title =>
      cases put : session.printout? (.printer name (.printValues precision values title)) with
      | some out => exact .printed put (step_puts put (lays out put))
      | none =>
          apply output_of_refused (.unknownName name) put
          cases found : session.printers.find? name with
          | none => simp only [step, printerStep, withFound, find, found]
          | some used => simp [printout?, found] at put

theorem step_output (session : Session) (command : Command)
    (lays : ∀ out, session.printout? command = some out → out.LaysOut) :
    session.Output command (session.step command).2 := by
  cases put : session.printout? command with
  | some out => exact .printed put (step_puts put (lays out put))
  | none =>
      cases command with
      | create name precision fill triangle dim source =>
          exact output_of_quiet put (by simp) (session.quiet_create name _)
      | load name file precision fill =>
          exact output_of_quiet put (by simp) (session.quiet_load name file precision fill)
      | table name command =>
          refine output_of_quiet put (by simp) (quiet_withFound fun owner owned => ?_)
          exact quiet_tableStep (find_eq_ok owned) put
      | view name command =>
          refine output_of_quiet put (by simp) (quiet_withFound fun held found => ?_)
          exact quiet_viewStep (find_eq_ok found) put
      | printer name change => exact session.output_printer name change lays
      | file name command =>
          exact output_of_quiet put (by simp) (session.quiet_fileStep name command)
      | dropTable name => exact output_of_quiet put (by simp) ⟨rfl, rfl, fun _ => rfl⟩
      | dropView name => exact output_of_quiet put (by simp) ⟨rfl, rfl, fun _ => rfl⟩
      | stream name =>
          exact output_of_quiet put (by simp) (quiet_withFound fun _ _ => session.quiet_self)
      | stdout => exact .cleared rfl rfl rfl fun _ => rfl

/-! ## Runs -/

def printouts (session : Session) : List Command → List Printout
  | [] => []
  | command :: commands =>
      (session.printout? command).toList ++ (session.step command).2.printouts commands

/-- No command prints with a width or a precision with which values cannot be laid out. -/
def LaysOut (session : Session) (commands : List Command) : Prop :=
  ∀ out ∈ session.printouts commands, out.LaysOut

instance (session : Session) (commands : List Command) : Decidable (session.LaysOut commands) :=
  inferInstanceAs (Decidable (∀ out ∈ session.printouts commands, out.LaysOut))

def Stays (session : Session) (name : String) : List Command → Prop
  | [] => True
  | command :: commands =>
      ¬ session.Switches name command ∧ (session.step command).2.Stays name commands

theorem printouts_append (session : Session) (commands later : List Command) :
    session.printouts (commands ++ later) =
      session.printouts commands ++ (session.after commands).printouts later := by
  induction commands generalizing session with
  | nil => rfl
  | cons command commands ih =>
      simp only [List.cons_append, printouts, after_cons, ih, List.append_assoc]

theorem laysOut_append {commands later : List Command} :
    session.LaysOut (commands ++ later) ↔
      session.LaysOut commands ∧ (session.after commands).LaysOut later := by
  simp only [LaysOut, printouts_append, List.mem_append, or_imp, forall_and]

theorem laysOut_cons {command : Command} {commands : List Command} :
    session.LaysOut (command :: commands) ↔
      (∀ out, session.printout? command = some out → out.LaysOut) ∧
        (session.step command).2.LaysOut commands := by
  simp only [LaysOut, printouts, List.mem_append, or_imp, forall_and, Option.mem_toList]

end Session

def Printout.textOf (chosen : Printout → Bool) (outs : List Printout) : String :=
  String.join ((outs.filter chosen).map Printout.text)

theorem Printout.textOf_append (chosen : Printout → Bool) (outs later : List Printout) :
    textOf chosen (outs ++ later) = textOf chosen outs ++ textOf chosen later := by
  simp only [textOf, List.filter_append, List.map_append, String.join_append]

theorem Printout.textOf_singleton (chosen : Printout → Bool) (out : Printout) :
    textOf chosen [out] = if chosen out then out.text else "" := by
  unfold textOf
  cases taken : chosen out <;> simp [taken]

end HalfMatrix
