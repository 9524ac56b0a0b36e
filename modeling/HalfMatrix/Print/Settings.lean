/-!
# Print settings

The settings say how a block of values is laid out as text.  They are made
from the defaults by changes to some of the fields; changes that are checked
keep every printed value and every line in one piece and show at least a row.
-/

set_option autoImplicit false

namespace HalfMatrix.Print

structure Settings where
  /-- The least number of characters of a value. -/
  width : Nat := 6
  /-- The number of decimal places. -/
  precision : Nat := 3
  /-- What stands between two values of a line. -/
  separator : String := "   "
  /-- The greatest number of rows that are shown. -/
  maxRows : Option Nat := none
  /-- Whether an empty line follows the block. -/
  trailingBlankLine : Bool := true
  deriving DecidableEq, Repr

namespace Settings

/-- The greatest width and the greatest number of places with which a value can
be laid out. -/
def greatestExtent : Nat := 65535

def LaysOut (settings : Settings) : Prop :=
  settings.width ≤ greatestExtent ∧ settings.precision ≤ greatestExtent

instance (settings : Settings) : Decidable settings.LaysOut :=
  inferInstanceAs (Decidable (_ ∧ _))

inductive BadField where
  | precision
  | separator
  | maxRows
  deriving DecidableEq, Repr

def BadField.name : BadField → String
  | precision => "precision"
  | separator => "separator"
  | maxRows => "max_rows"

def BadField.message (field : BadField) : String := "Bad value for field " ++ field.name

structure Changes where
  width : Option Nat := none
  precision : Option Nat := none
  separator : Option String := none
  maxRows : Option (Option Nat) := none
  trailingBlankLine : Option Bool := none
  deriving DecidableEq, Repr

namespace Changes

def apply (changes : Changes) (settings : Settings) : Settings where
  width := changes.width.getD settings.width
  precision := changes.precision.getD settings.precision
  separator := changes.separator.getD settings.separator
  maxRows := changes.maxRows.getD settings.maxRows
  trailingBlankLine := changes.trailingBlankLine.getD settings.trailingBlankLine

def greatestPrecision : Nat := 17

/-- Checks the fields that are changed; the first bad one is named. -/
def check (changes : Changes) : Except BadField Unit := do
  if changes.precision.any (greatestPrecision < ·) then throw .precision
  if changes.separator.any (·.toList.contains '\n') then throw .separator
  if changes.maxRows = some (some 0) then throw .maxRows

def build (changes : Changes) : Except BadField Settings := do
  changes.check
  pure (changes.apply {})

end Changes

end Settings

end HalfMatrix.Print
