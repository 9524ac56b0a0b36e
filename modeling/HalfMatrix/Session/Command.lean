import HalfMatrix.Binary.Numeral
import HalfMatrix.Document.Settings
import HalfMatrix.Document.Table
import HalfMatrix.Print.Printer

/-!
# Commands of a session and their replies

A command names the things that it is about.  Numbers enter and leave as
numerals; the table or view that they belong to gives them their precision.
-/

set_option autoImplicit false

namespace HalfMatrix

inductive TableSource where
  | packed (entries : List Numeral)
  | dense (entries : List Numeral)
  | zeros
  deriving DecidableEq, Repr

inductive SettingsSource where
  | default
  | document (text : String)
  | unchecked (changes : Print.Settings.Changes)
  | checked (changes : Print.Settings.Changes)
  deriving DecidableEq, Repr

inductive TableCommand where
  | info
  | packed
  | setPacked (position : Nat) (value : Numeral)
  | get (row col : Nat)
  | set (row col : Nat) (value : Numeral)
  | setAll (value : Numeral)
  | dense
  | display
  | copy (target : String)
  | toTriangle (target : String) (triangle : Triangle)
  | equals (other : String)
  | acquire (view : String) (region : Region) (access : Access)
  | release (view : String) (region : Region)
  | discard (view : String)
  | printRegion (printer : String) (region : Region) (title : String)
  | printPacked (printer : String) (title : String)
  | save (file : String)
  deriving DecidableEq, Repr

inductive ViewCommand where
  | inspect
  | at (index : Nat)
  | entry (row col : Nat)
  | setAt (index : Nat) (value : Numeral)
  | setEntry (row col : Nat) (value : Numeral)
  | row (index : Nat)
  | setRow (index : Nat) (values : List Numeral)
  | fill (values : List Numeral)
  | print (printer : String) (title : String)
  deriving DecidableEq, Repr

inductive PrinterCommand where
  | create (settings : SettingsSource)
  | setSettings (settings : SettingsSource)
  | describe
  | toStdout
  | toBuffer
  | toFile (file : String)
  | toStream (stream : String) (chunk limit : Option Nat) (silent : Bool)
  | buffered
  | printValues (precision : Precision) (values : List Numeral) (title : String)
  deriving DecidableEq, Repr

inductive FileCommand where
  | create (content : ByteArray)
  | write (bytes : ByteArray)
  | seek (cursor : Nat)
  | content

inductive Command where
  | create (table : String) (precision : Precision) (fill : Fill) (triangle : Triangle)
      (dim : Nat) (source : TableSource)
  | load (table file : String) (precision : Precision) (fill : Fill)
  | table (name : String) (command : TableCommand)
  | dropTable (name : String)
  | view (name : String) (command : ViewCommand)
  | dropView (name : String)
  | printer (name : String) (command : PrinterCommand)
  | file (name : String) (command : FileCommand)
  | stream (name : String)
  | stdout

inductive Answer where
  | done
  | value (value : Numeral)
  | values (values : List Numeral)
  | packed (entries : List Numeral)
  | created (dim : Nat) (triangle : Triangle) (entries : List Numeral)
  | info (dim : Nat) (triangle : Triangle) (fill : Fill)
  | equal (outcome : Bool)
  | text (text : String)
  | bytes (content : ByteArray)
  | window (rows cols : Nat) (values : List Numeral)
  | view (region : Region) (access : Access) (rows cols : Nat) (values : List Numeral)
  /-- Only the position of a file is asked for. -/
  | position

inductive SettingsError where
  | document (problem : Json.Problem)
  | badField (field : Print.Settings.BadField)
  deriving DecidableEq, Repr

inductive Refusal where
  | table (error : TableError)
  | fault (fault : Fault)
  | write (error : WriteError)
  | load (error : Document.LoadError)
  | settings (error : SettingsError)
  /-- The printer prints to the target of this name and not to a buffer. -/
  | notBuffered (target : String)
  | notText
  | notFinite
  /-- No thing has this name. -/
  | unknownName (name : String)
  /-- The things named are of different kinds. -/
  | differentKinds
  deriving DecidableEq, Repr

inductive IoKind where
  | invalidInput
  | invalidData
  | unexpectedEnd
  | nothingWritten
  | other
  deriving DecidableEq, Repr

def Refusal.ioKind? : Refusal → Option IoKind
  | .write .nothingTaken => some .nothingWritten
  | .write .full => some .other
  | .load (.document (.flaw .endOfText)) => some .unexpectedEnd
  | .load _ => some .invalidData
  | .notBuffered _ => some .other
  | .notText => some .invalidData
  | .notFinite => some .invalidInput
  | _ => none

def SettingsError.message? : SettingsError → Option String
  | document (.flaw _) => none
  | document (.misfit misfit) => some misfit.message
  | badField field => some field.message

def Refusal.message? : Refusal → Option String
  | .table error => some error.message
  | .fault cause => cause.message?
  | .write error => some error.message
  | .load error => error.message?
  | .settings error => error.message?
  | .notBuffered target => some ("printing to " ++ target ++ ", not to a buffer")
  | .notText => some "stream did not contain valid UTF-8"
  | .notFinite => some "table contains non-finite values"
  | .unknownName name => some ("nothing is named " ++ name)
  | .differentKinds => some "the things named are of different kinds"

/-- The answer, and what is told of the table or file that the command is about
whether it succeeds or not: how many views are outstanding, the packed entries,
the position of the cursor. -/
structure Reply where
  answer : Except Refusal Answer
  outstanding : Option Nat := none
  entries : Option (List Numeral) := none
  position : Option Nat := none

end HalfMatrix
