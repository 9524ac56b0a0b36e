import HalfMatrix.Print.Block
import HalfMatrix.Print.Outlet
import HalfMatrix.Table.Lending
import HalfMatrix.Text.Quoted

/-!
# Printers

A printer has settings and a target.  It writes a block piece by piece to the
target that it has at that moment, and stops at the first piece that is not
taken.  A region of a table is printed through a read-only view, which is
released before the printer answers.
-/

set_option autoImplicit false

namespace HalfMatrix

/-- Everything outside the printers that text can go to.  Streams and files are
known by their numbers. -/
structure Outlets where
  stdout : String := ""
  streams : List Stream := []
  files : List File := []

namespace Print

inductive Target where
  | stdout
  | buffer (text : String)
  | stream (number : Nat)
  | file (number : Nat)

def Target.name : Target → String
  | stdout => "stdout"
  | buffer _ => "buffer"
  | stream _ => "stream"
  | file _ => "stream"

abbrev Written : Type := Target × Outlets × Except WriteError Unit

def Target.write (target : Target) (outlets : Outlets) (piece : String) : Written :=
  match target with
  | stdout => (stdout, { outlets with stdout := outlets.stdout ++ piece }, .ok ())
  | buffer text => (buffer (text ++ piece), outlets, .ok ())
  | stream number =>
      match outlets.streams[number]? with
      | none => (stream number, outlets, .ok ())
      | some sink =>
          let (sink, outcome) := sink.writeAll piece.toByteArray
          (stream number, { outlets with streams := outlets.streams.set number sink }, outcome)
  | file number =>
      match outlets.files[number]? with
      | none => (file number, outlets, .ok ())
      | some sink =>
          let written := sink.write piece.toByteArray
          (file number, { outlets with files := outlets.files.set number written }, .ok ())

def Target.writeAll (target : Target) (outlets : Outlets) : List String → Written
  | [] => (target, outlets, .ok ())
  | piece :: pieces =>
      match target.write outlets piece with
      | (target, outlets, .ok ()) => target.writeAll outlets pieces
      | failed => failed

end Print

structure Printer where
  settings : Print.Settings := {}
  target : Print.Target := .stdout

namespace Printer

variable {precision : Precision} {n : Nat}

structure Printed (Answer : Type) where
  printer : Printer
  outlets : Outlets
  answer : Answer

def write (printer : Printer) (outlets : Outlets) (pieces : List String) :
    Printed (Except WriteError Unit) :=
  let (target, outlets, answer) := printer.target.writeAll outlets pieces
  { printer := { printer with target }, outlets, answer }

/-- Prints a block of rows under a title.  A value that cannot be laid out is a
fault, unless the title before it is not taken. -/
def printRows (printer : Printer) (outlets : Outlets) (title : String)
    (rows : List (List (Binary precision))) : Except Fault (Printed (Except WriteError Unit)) :=
  if Print.Admits printer.settings rows then
    .ok (printer.write outlets (Print.pieces printer.settings title rows))
  else
    let titled := printer.write outlets (Print.linePieces title)
    match titled.answer with
    | .error _ => .ok titled
    | .ok () => .error .layoutOverflow

def printView (printer : Printer) (outlets : Outlets) (title : String)
    (view : View (Binary precision)) : Except Fault (Printed (Except WriteError Unit)) :=
  printer.printRows outlets title view.data.toRows

def printValues (printer : Printer) (outlets : Outlets) (title : String)
    (values : List (Binary precision)) : Except Fault (Printed (Except WriteError Unit)) :=
  printer.printRows outlets title [values]

inductive RegionError where
  | table (error : TableError)
  | write (error : WriteError)
  deriving DecidableEq, Repr

/-- Prints a region of a table, with `ticket` for the view of it.  If the table
refuses the view, nothing is written and the ticket is not used. -/
def printRegion (printer : Printer) (outlets : Outlets) (table : Table (Binary precision) n)
    (region : Region) (title : String) (ticket : Ticket) :
    Except Fault (Table (Binary precision) n × Printed (Except RegionError Unit)) :=
  match table.acquire region .readOnly ticket with
  | .error error => pure (table, { printer, outlets, answer := .error (.table error) })
  | .ok (view, lent) => do
      let printed ← printer.printView outlets title view
      let (table, released) ← lent.release region view
      let answer :=
        match released with
        | .error error => .error (.table error)
        | .ok () => printed.answer.mapError .write
      pure (table, { printer := printed.printer, outlets := printed.outlets, answer })

def buffered? (printer : Printer) : Option String :=
  match printer.target with
  | .buffer text => some text
  | _ => none

def redirect (printer : Printer) (target : Print.Target) : Printer := { printer with target }

def describe (printer : Printer) : String :=
  let settings := printer.settings
  let rows :=
    match settings.maxRows with
    | none => "None"
    | some rows => "Some(" ++ toString rows ++ ")"
  "TablePrinter \x7b settings: PrintSettings \x7b width: " ++ toString settings.width ++
    ", precision: " ++ toString settings.precision ++
    ", separator: " ++ Text.quoted settings.separator ++
    ", max_rows: " ++ rows ++
    ", trailing_blank_line: " ++ toString settings.trailingBlankLine ++
    " \x7d, target: PrintTarget(" ++ printer.target.name ++ ") \x7d"

end Printer

end HalfMatrix
