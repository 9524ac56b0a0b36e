import HalfMatrix.Session.Basic

/-!
# Steps of a session

`Session.step` carries out one command: it gives the reply and the state
afterwards.  A command that is refused changes nothing, apart from what its
table, printer or file has gone through before the refusal; a fault changes
nothing at all.
-/

set_option autoImplicit false

namespace HalfMatrix.Session

abbrev Stepped : Type := Reply × Session

def refuse (session : Session) (refusal : Refusal) : Stepped :=
  ({ answer := .error refusal }, session)

def withFound {α : Type} (session : Session) (found : Except Refusal α) (resume : α → Stepped) :
    Stepped :=
  match found with
  | .ok value => resume value
  | .error refusal => session.refuse refusal

def makeSettings : SettingsSource → Except SettingsError Print.Settings
  | .default => .ok {}
  | .document text => (Document.readSettings text).mapError .document
  | .unchecked changes => .ok (changes.apply {})
  | .checked changes => changes.build.mapError .badField

/-! ## Making tables -/

def makeTable (precision : Precision) (fill : Fill) (triangle : Triangle) (dim : Nat) :
    TableSource → Except Refusal SomeTable
  | .packed entries =>
      let entries := (entries.map (Numeral.toBinary precision)).toArray
      ((Table.ofPacked fill triangle dim entries).mapError .table).map fun table =>
        { precision, dim, table }
  | .dense entries =>
      let entries := (entries.map (Numeral.toBinary precision)).toArray
      ((Table.ofGrid fill triangle dim entries).mapError .table).map fun table =>
        { precision, dim, table }
  | .zeros =>
      ((Table.zeros fill triangle dim).mapError .fault).map fun table => { precision, dim, table }

def create (session : Session) (name : String) (made : Except Refusal SomeTable) : Stepped :=
  session.withFound made fun table =>
    (table.reply (.ok table.created), session.putTable name table)

def loadTable (precision : Precision) (fill : Fill) (bytes : ByteArray) :
    Except Refusal SomeTable :=
  match String.fromUTF8? bytes with
  | none => .error .notText
  | some text =>
      ((Document.loadTable precision fill text).mapError .load).map fun loaded =>
        { precision, dim := loaded.dim, table := loaded.table }

/-- Loads a table from the cursor of a file on, which is read to its end. -/
def load (session : Session) (name file : String) (precision : Precision) (fill : Fill) :
    Stepped :=
  session.withFound (session.file? file) fun (number, source) =>
    let after := session.putFile number source.atEnd
    let (reply, session) := after.create name (loadTable precision fill source.remaining)
    ({ reply with position := some source.atEnd.cursor }, session)

/-! ## Tables -/

def acquire (session : Session) (name : String) (owner : SomeTable) (view : String)
    (region : Region) (access : Access) : Stepped :=
  match owner.table.acquire region access session.nextTicket with
  | .error error => (owner.reply (.error (.table error)), session)
  | .ok (lent, table) =>
      let owner := { owner with table }
      let held : SomeView := { precision := owner.precision, view := lent }
      let session := { session with nextTicket := session.nextTicket + 1 }
      (owner.reply (.ok (.window lent.rows lent.cols held.numerals)),
        (session.putTable name owner).putView view held)

/-- Hands a view back to a table, which is not always the one that it came from. -/
def handBack (session : Session) (name : String) (owner : SomeTable) (view : String)
    (take : View (Binary owner.precision) →
      Except Fault (Table (Binary owner.precision) owner.dim × Except TableError Unit)) :
    Stepped :=
  session.withFound (find session.views view) fun held =>
    if same : held.precision = owner.precision then
      match take (same ▸ held.view) with
      | .error fault => (owner.fullReply (.error (.fault fault)), session)
      | .ok (table, outcome) =>
          let owner := { owner with table }
          let answer := (outcome.mapError Refusal.table).map fun () => Answer.done
          (owner.fullReply answer, (session.dropView view).putTable name owner)
    else session.refuse .differentKinds

/-- Prints a region of a table.  The ticket is used up once the table has lent
the region, whatever becomes of the printing. -/
def printRegion (session : Session) (name : String) (owner : SomeTable) (printer : String)
    (region : Region) (title : String) : Stepped :=
  session.withFound (find session.printers printer) fun used =>
    match used.printRegion session.outlets owner.table region title session.nextTicket with
    | .error fault => (owner.reply (.error (.fault fault)), session)
    | .ok (table, printed) =>
        let nextTicket :=
          match owner.table.acquire region .readOnly session.nextTicket with
          | .ok _ => session.nextTicket + 1
          | .error _ => session.nextTicket
        let owner := { owner with table }
        let answer : Except Refusal Answer :=
          match printed.answer with
          | .ok () => .ok .done
          | .error (.write error) => .error (.write error)
          | .error (.table error) => .error (.table error)
        let session := { session with outlets := printed.outlets, nextTicket }
        (owner.reply answer, (session.putTable name owner).putPrinter printer printed.printer)

def afterPrinting (session : Session) (printer : String)
    (printed : Except Fault (Printer.Printed (Except WriteError Unit))) :
    Except Refusal Answer × Session :=
  match printed with
  | .error fault => (.error (.fault fault), session)
  | .ok printed =>
      ((printed.answer.mapError Refusal.write).map fun () => Answer.done,
        { session with outlets := printed.outlets }.putPrinter printer printed.printer)

def printPacked (session : Session) (owner : SomeTable) (printer title : String) : Stepped :=
  session.withFound (find session.printers printer) fun used =>
    let printed := used.printValues session.outlets title owner.table.entries.toList
    let (answer, session) := session.afterPrinting printer printed
    (owner.reply answer, session)

def save (session : Session) (owner : SomeTable) (file : String) : Stepped :=
  session.withFound (session.file? file) fun (number, target) =>
    match Document.saveTable? owner.table with
    | none =>
        ({ owner.reply (.error .notFinite) with position := some target.cursor }, session)
    | some text =>
        let written := target.write text.toByteArray
        ({ owner.reply (.ok .done) with position := some written.cursor },
          session.putFile number written)

/-- Names a table that was made from another one, and tells of the views of the
table that now has the other one's name. -/
def derive (session : Session) (name : String) (owner : SomeTable) (target : String)
    (made : SomeTable) : Stepped :=
  let after := if target = name then made else owner
  (after.reply (.ok made.created), session.putTable target made)

def tableStep (session : Session) (name : String) (owner : SomeTable) : TableCommand → Stepped
  | .info =>
      (owner.reply (.ok (.info owner.dim owner.table.triangle owner.table.fill)), session)
  | .packed => (owner.reply (.ok (.packed owner.numerals)), session)
  | .setPacked position value =>
      match owner.table.setPacked position (value.toBinary owner.precision) with
      | .error fault => (owner.fullReply (.error (.fault fault)), session)
      | .ok table =>
          let owner := { owner with table }
          (owner.fullReply (.ok .done), session.putTable name owner)
  | .get row col =>
      let answer := (owner.table.get row col).mapError Refusal.table
      (owner.reply (answer.map fun value => .value (.ofBinary value)), session)
  | .set row col value =>
      match owner.table.set row col (value.toBinary owner.precision) with
      | .error error => (owner.fullReply (.error (.table error)), session)
      | .ok table =>
          let owner := { owner with table }
          (owner.fullReply (.ok .done), session.putTable name owner)
  | .setAll value =>
      let owner := { owner with table := owner.table.setAll (value.toBinary owner.precision) }
      (owner.fullReply (.ok .done), session.putTable name owner)
  | .dense =>
      (owner.reply (.ok (.values (owner.table.toGrid.toList.map .ofBinary))), session)
  | .display => (owner.reply (.ok (.text owner.table.display)), session)
  | .copy target =>
      session.derive name owner target { owner with table := owner.table.copy }
  | .toTriangle target triangle =>
      session.derive name owner target { owner with table := owner.table.toTriangle triangle }
  | .equals other =>
      session.withFound (find session.tables other) fun other =>
        match owner.agrees? other with
        | some outcome => (owner.reply (.ok (.equal outcome)), session)
        | none => session.refuse .differentKinds
  | .acquire view region access => session.acquire name owner view region access
  | .release view region => session.handBack name owner view (owner.table.release region)
  | .discard view =>
      session.handBack name owner view fun held => .ok (owner.table.discard held)
  | .printRegion printer region title => session.printRegion name owner printer region title
  | .printPacked printer title => session.printPacked owner printer title
  | .save file => session.save owner file

/-! ## Views -/

def readView (session : Session) (held : SomeView) (value : Option (Binary held.precision)) :
    Stepped :=
  match value with
  | some value => ({ answer := .ok (.value (.ofBinary value)) }, session)
  | none => session.refuse (.fault .indexOutOfBounds)

def editView (session : Session) (name : String) (held : SomeView)
    (edited : Option (View (Binary held.precision))) : Stepped :=
  match edited with
  | some view =>
      let held := { held with view }
      ({ answer := .ok (.values held.numerals) }, session.putView name held)
  | none => session.refuse (.fault .indexOutOfBounds)

def viewStep (session : Session) (name : String) (held : SomeView) : ViewCommand → Stepped
  | .inspect => ({ answer := .ok held.inspect }, session)
  | .at index => session.readView held (held.view.at? index)
  | .entry row col => session.readView held (held.view.entry? row col)
  | .setAt index value =>
      session.editView name held (held.view.setAt? index (value.toBinary held.precision))
  | .setEntry row col value =>
      session.editView name held (held.view.setEntry? row col (value.toBinary held.precision))
  | .row index =>
      match held.view.row? index with
      | some values => ({ answer := .ok (.values (values.toList.map .ofBinary)) }, session)
      | none => session.refuse (.fault .indexOutOfBounds)
  | .setRow index values =>
      session.editView name held
        (held.view.setRow? index (values.map (Numeral.toBinary held.precision)))
  | .fill values =>
      session.editView name held
        (some (held.view.fill (values.map (Numeral.toBinary held.precision))))
  | .print printer title =>
      session.withFound (find session.printers printer) fun used =>
        let (answer, session) :=
          session.afterPrinting printer (used.printView session.outlets title held.view)
        ({ answer }, session)

/-! ## Printers, files and streams -/

def changePrinter (session : Session) (name : String) (change : Printer → Printer) : Stepped :=
  session.withFound (find session.printers name) fun printer =>
    ({ answer := .ok .done }, session.putPrinter name (change printer))

def printerStep (session : Session) (name : String) : PrinterCommand → Stepped
  | .create settings =>
      session.withFound ((makeSettings settings).mapError .settings) fun settings =>
        ({ answer := .ok .done }, session.putPrinter name { settings })
  | .setSettings settings =>
      session.withFound ((makeSettings settings).mapError .settings) fun settings =>
        session.changePrinter name fun printer => { printer with settings }
  | .describe =>
      session.withFound (find session.printers name) fun printer =>
        ({ answer := .ok (.text printer.describe) }, session)
  | .toStdout => session.changePrinter name (·.redirect .stdout)
  | .toBuffer => session.changePrinter name (·.redirect (.buffer ""))
  | .toFile file =>
      session.withFound (find session.files file) fun number =>
        session.changePrinter name (·.redirect (.file number))
  | .toStream stream chunk limit silent =>
      session.withFound (find session.printers name) fun printer =>
        let number := session.outlets.streams.length
        ({ answer := .ok .done },
          (session.addStream stream { chunk, limit, silent }).putPrinter name
            (printer.redirect (.stream number)))
  | .buffered =>
      session.withFound (find session.printers name) fun printer =>
        match printer.buffered? with
        | some text => ({ answer := .ok (.text text) }, session)
        | none => session.refuse (.notBuffered printer.target.name)
  | .printValues precision values title =>
      session.withFound (find session.printers name) fun printer =>
        let values := values.map (Numeral.toBinary precision)
        let (answer, session) :=
          session.afterPrinting name (printer.printValues session.outlets title values)
        ({ answer }, session)

def fileStep (session : Session) (name : String) : FileCommand → Stepped
  | .create content => ({ answer := .ok .done }, session.addFile name { content })
  | .write bytes =>
      session.withFound (session.file? name) fun (number, file) =>
        let written := file.write bytes
        ({ answer := .ok .position, position := some written.cursor },
          session.putFile number written)
  | .seek cursor =>
      session.withFound (session.file? name) fun (number, file) =>
        ({ answer := .ok .position, position := some cursor },
          session.putFile number (file.seek cursor))
  | .content =>
      session.withFound (session.file? name) fun (_, file) =>
        ({ answer := .ok (.bytes file.content), position := some file.cursor }, session)

def streamContent (session : Session) (name : String) : Except Refusal ByteArray := do
  let number ← find session.streams name
  match session.outlets.streams[number]? with
  | some stream => pure stream.taken
  | none => throw (.unknownName name)

/-! ## All commands -/

def step (session : Session) : Command → Stepped
  | .create name precision fill triangle dim source =>
      session.create name (makeTable precision fill triangle dim source)
  | .load name file precision fill => session.load name file precision fill
  | .table name command =>
      session.withFound (find session.tables name) fun owner =>
        session.tableStep name owner command
  | .dropTable name =>
      ({ answer := .ok .done }, { session with tables := session.tables.erase name })
  | .view name command =>
      session.withFound (find session.views name) fun held => session.viewStep name held command
  | .dropView name => ({ answer := .ok .done }, session.dropView name)
  | .printer name command => session.printerStep name command
  | .file name command => session.fileStep name command
  | .stream name =>
      session.withFound (session.streamContent name) fun content =>
        ({ answer := .ok (.bytes content) }, session)
  | .stdout =>
      ({ answer := .ok (.text session.outlets.stdout) },
        { session with outlets := { session.outlets with stdout := "" } })

def run (session : Session) : List Command → List Reply × Session
  | [] => ([], session)
  | command :: commands =>
      let (reply, next) := session.step command
      let (replies, last) := next.run commands
      (reply :: replies, last)

end HalfMatrix.Session
