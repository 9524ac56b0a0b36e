import HalfMatrix.Session.Command
import HalfMatrix.Session.Names

/-!
# The state of a session

A session keeps tables, views, printers, streams and files by name, what has
been printed so far, and the ticket of the next view.  Streams and files have
numbers too, so that a printer keeps its target when a name is given away.
-/

set_option autoImplicit false

namespace HalfMatrix

structure SomeTable where
  precision : Precision
  dim : Nat
  table : Table (Binary precision) dim

structure SomeView where
  precision : Precision
  view : View (Binary precision)

structure Session where
  tables : Names SomeTable := {}
  views : Names SomeView := {}
  printers : Names Printer := {}
  /-- The numbers of the streams. -/
  streams : Names Nat := {}
  /-- The numbers of the files. -/
  files : Names Nat := {}
  outlets : Outlets := {}
  nextTicket : Ticket := 1

namespace SomeTable

def numerals (some : SomeTable) : List Numeral := some.table.entries.toList.map .ofBinary

def outstanding (some : SomeTable) : Nat := some.table.ledger.size

/-- Whether the tables agree, which can be asked of tables of one precision and
one fill. -/
def agrees? (left right : SomeTable) : Option Bool :=
  if precision : right.precision = left.precision then
    if left.table.fill = right.table.fill then
      if dim : right.dim = left.dim then
        let other : Table (Binary left.precision) left.dim :=
          dim ▸ (precision ▸ right.table : Table (Binary left.precision) right.dim)
        some (left.table.agrees Binary.equals other)
      else some false
    else none
  else none

def reply (after : SomeTable) (answer : Except Refusal Answer) : Reply :=
  { answer, outstanding := some after.outstanding }

def fullReply (after : SomeTable) (answer : Except Refusal Answer) : Reply :=
  { answer, outstanding := some after.outstanding, entries := some after.numerals }

def created (made : SomeTable) : Answer :=
  .created made.dim made.table.triangle made.numerals

end SomeTable

namespace SomeView

def numerals (some : SomeView) : List Numeral := some.view.data.toList.map .ofBinary

def inspect (some : SomeView) : Answer :=
  .view some.view.region some.view.access some.view.rows some.view.cols some.numerals

end SomeView

namespace Session

def find {α : Type} (names : Names α) (name : String) : Except Refusal α :=
  match names.find? name with
  | some value => .ok value
  | none => .error (.unknownName name)

def putTable (session : Session) (name : String) (table : SomeTable) : Session :=
  { session with tables := session.tables.insert name table }

def putView (session : Session) (name : String) (view : SomeView) : Session :=
  { session with views := session.views.insert name view }

def dropView (session : Session) (name : String) : Session :=
  { session with views := session.views.erase name }

def putPrinter (session : Session) (name : String) (printer : Printer) : Session :=
  { session with printers := session.printers.insert name printer }

def file? (session : Session) (name : String) : Except Refusal (Nat × File) := do
  let number ← find session.files name
  match session.outlets.files[number]? with
  | some file => pure (number, file)
  | none => throw (.unknownName name)

def putFile (session : Session) (number : Nat) (file : File) : Session :=
  { session with
    outlets := { session.outlets with files := session.outlets.files.set number file } }

def addFile (session : Session) (name : String) (file : File) : Session :=
  { session with
    files := session.files.insert name session.outlets.files.length
    outlets := { session.outlets with files := session.outlets.files ++ [file] } }

def addStream (session : Session) (name : String) (stream : Stream) : Session :=
  { session with
    streams := session.streams.insert name session.outlets.streams.length
    outlets := { session.outlets with streams := session.outlets.streams ++ [stream] } }

end Session

end HalfMatrix
