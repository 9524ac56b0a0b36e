import HalfMatrix.Decimal.Layout
import HalfMatrix.Document.Triangle
import HalfMatrix.Table.Basic

/-!
# Tables in documents

A table is written as a record of its dimension, triangle, fill and packed
entries.  It can be written only if every entry is finite, since a document
has no numbers for the others.
-/

set_option autoImplicit false

namespace HalfMatrix.Document

open Json

variable {precision : Precision} {n : Nat}

def numberToken (value : Binary precision) : Token :=
  .number (Decimal.Spelling.ofBinary (.stored precision) value)

def tableTokens (table : Table (Binary precision) n) : List Token :=
  Token.map
    [("n", [.word n]),
      ("uplo", triangleTokens table.triangle),
      ("fill", [.text table.fill.name]),
      ("data", Token.list (table.entries.toList.map fun value => [numberToken value]))]

def saveTable? (table : Table (Binary precision) n) : Option String :=
  if table.entries.all Binary.isFinite then some (Token.render (tableTokens table)) else none

structure TableDraft (precision : Precision) where
  dim : Option Nat := none
  triangle : Option Triangle := none
  fill : Option String := none
  entries : Option (List (Binary precision)) := none

def tableSchema (precision : Precision) : Schema (TableDraft precision) where
  title := "struct JsonTableData"
  members :=
    [.ofReader "n" (·.dim) (fun draft value => { draft with dim := some value })
        readWord readWord_shrinks,
      .ofReader "uplo" (·.triangle) (fun draft value => { draft with triangle := some value })
        readTriangle readTriangle_shrinks,
      .ofReader "fill" (·.fill) (fun draft value => { draft with fill := some value })
        readText readText_shrinks,
      .ofReader "data" (·.entries) (fun draft value => { draft with entries := some value })
        (readBinaries precision) (readBinaries_shrinks precision)]
  short length :=
    some (.misfit (.wrongLength length "struct JsonTableData with 4 elements"))

structure TableRecord (precision : Precision) where
  dim : Nat
  triangle : Triangle
  fill : String
  entries : List (Binary precision)

def require {α : Type} (name : String) : Option α → Except Problem α
  | some value => .ok value
  | none => .error (.misfit (.missingField name))

def TableDraft.finish (draft : TableDraft precision) : Except Problem (TableRecord precision) := do
  let dim ← require "n" draft.dim
  let triangle ← require "uplo" draft.triangle
  let fill ← require "fill" draft.fill
  let entries ← require "data" draft.entries
  pure { dim, triangle, fill, entries }

def readTableRecord (precision : Precision) (lexemes : List Lexeme) :
    Outcome (TableRecord precision) :=
  match (tableSchema precision).read {} lexemes with
  | .error problem => .error problem
  | .ok (draft, rest) => draft.finish.map fun record => (record, rest)

inductive LoadError where
  | document (problem : Problem)
  | wrongFill (expected : Fill) (found : String)
  | table (error : TableError)
  deriving DecidableEq, Repr

def LoadError.message? : LoadError → Option String
  | document (.flaw _) => none
  | document (.misfit misfit) => some misfit.message
  | wrongFill expected found =>
      some ("expected a " ++ expected.name ++ " table, found " ++ found)
  | table error => some error.message

structure AnyTable (α : Type) where
  dim : Nat
  table : Table α dim

/-- The table in a text, which must have the given fill. -/
def loadTable (precision : Precision) (fill : Fill) (text : String) :
    Except LoadError (AnyTable (Binary precision)) := do
  let record ← (readDocument (readTableRecord precision) text).mapError .document
  if record.fill = fill.name then
    let table ← (Table.ofPacked fill record.triangle record.dim record.entries.toArray).mapError
      .table
    pure ⟨record.dim, table⟩
  else throw (.wrongFill fill record.fill)

end HalfMatrix.Document
