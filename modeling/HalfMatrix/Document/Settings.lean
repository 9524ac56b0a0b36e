import HalfMatrix.Json.Record
import HalfMatrix.Print.Settings

/-!
# Print settings in documents

Settings are written as a record with all fields.  A document need not have all
of them: the others keep their defaults.  Nothing that is read is checked.
-/

set_option autoImplicit false

namespace HalfMatrix.Document

open Json

def settingsTokens (settings : Print.Settings) : List Token :=
  Token.map
    [("width", [.word settings.width]),
      ("precision", [.word settings.precision]),
      ("separator", [.text settings.separator]),
      ("max_rows",
        match settings.maxRows with
        | none => [.null]
        | some rows => [.word rows]),
      ("trailing_blank_line", [.boolean settings.trailingBlankLine])]

def settingsSchema : Schema Print.Settings.Changes where
  title := "struct PrintSettings"
  members :=
    [.ofReader "width" (·.width) (fun changes value => { changes with width := some value })
        readWord readWord_shrinks,
      .ofReader "precision" (·.precision)
        (fun changes value => { changes with precision := some value })
        readWord readWord_shrinks,
      .ofReader "separator" (·.separator)
        (fun changes value => { changes with separator := some value })
        readText readText_shrinks,
      .ofReader "max_rows" (·.maxRows)
        (fun changes value => { changes with maxRows := some value })
        readOptionalWord readOptionalWord_shrinks,
      .ofReader "trailing_blank_line" (·.trailingBlankLine)
        (fun changes value => { changes with trailingBlankLine := some value })
        readBoolean readBoolean_shrinks]
  short _ := none

def readSettings (text : String) : Except Problem Print.Settings :=
  (readDocument (settingsSchema.read {}) text).map fun changes => changes.apply {}

end HalfMatrix.Document
