import HalfMatrix.Decimal.Fixed
import HalfMatrix.Error
import HalfMatrix.Grid
import HalfMatrix.Print.Settings

/-!
# Printed blocks

A block is a title line, a line for each row that is shown, a line that counts
the rows that are not, and perhaps an empty line.
-/

set_option autoImplicit false

namespace HalfMatrix.Print

variable {precision : Precision}

def cell (settings : Settings) (value : Binary precision) : String :=
  let chars := Decimal.fixed settings.precision value
  String.ofList (List.replicate (settings.width - chars.length) ' ' ++ chars)

def line (settings : Settings) (values : List (Binary precision)) : String :=
  String.intercalate settings.separator (values.map (cell settings))

def shownRows (settings : Settings) (rows : Nat) : Nat :=
  match settings.maxRows with
  | none => rows
  | some greatest => min greatest rows

def omission (count : Nat) : String := "... (" ++ toString count ++ " more rows)"

def visible (settings : Settings) (rows : List (List (Binary precision))) :
    List (List (Binary precision)) :=
  rows.take (shownRows settings rows.length)

def body (settings : Settings) (rows : List (List (Binary precision))) : List String :=
  let shown := shownRows settings rows.length
  (visible settings rows).map (line settings) ++
    (if shown < rows.length then [omission (rows.length - shown)] else []) ++
    (if settings.trailingBlankLine then [""] else [])

def linePieces (line : String) : List String := [line, "\n"]

def pieces (settings : Settings) (title : String) (rows : List (List (Binary precision))) :
    List String :=
  linePieces title ++ (body settings rows).flatMap linePieces

/-- A block of these rows can be laid out: the settings allow it, or there is
no value to lay out. -/
def Admits (settings : Settings) (rows : List (List (Binary precision))) : Prop :=
  settings.LaysOut ∨ ∀ row ∈ visible settings rows, row = []

instance (settings : Settings) (rows : List (List (Binary precision))) :
    Decidable (Admits settings rows) :=
  inferInstanceAs (Decidable (_ ∨ _))

def text (settings : Settings) (title : String) (rows : List (List (Binary precision))) :
    Except Fault String :=
  if Admits settings rows then .ok (String.join (pieces settings title rows))
  else .error .layoutOverflow

end HalfMatrix.Print
