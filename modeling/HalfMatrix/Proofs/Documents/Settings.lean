import HalfMatrix.Document.Settings
import HalfMatrix.Proofs.Documents.Presentations

/-!
# Print settings survive their documents

A document need not have all members of the settings, and those that it has may
stand in any order, each lexeme spelled and spaced in any way.  Reading it gives
the default settings with the fields that stand there, and so the document of
the settings is read as the settings.
-/

set_option autoImplicit false

namespace HalfMatrix

namespace Print.Settings

structure Fits (settings : Settings) : Prop where
  width : settings.width < Word.modulus
  precision : settings.precision < Word.modulus
  maxRows : ∀ rows ∈ settings.maxRows, rows < Word.modulus

inductive Field where
  | width
  | precision
  | separator
  | maxRows
  | trailingBlankLine
  deriving DecidableEq

def Field.all : List Field := [.width, .precision, .separator, .maxRows, .trailingBlankLine]

theorem Field.mem_all (field : Field) : field ∈ all := by
  cases field <;> decide

def only (settings : Settings) (fields : List Field) : Settings where
  width := if .width ∈ fields then settings.width else ({} : Settings).width
  precision := if .precision ∈ fields then settings.precision else ({} : Settings).precision
  separator := if .separator ∈ fields then settings.separator else ({} : Settings).separator
  maxRows := if .maxRows ∈ fields then settings.maxRows else ({} : Settings).maxRows
  trailingBlankLine :=
    if .trailingBlankLine ∈ fields then settings.trailingBlankLine
    else ({} : Settings).trailingBlankLine

theorem only_all (settings : Settings) : settings.only Field.all = settings := by
  simp [only, Field.mem_all]

def changes (settings : Settings) (fields : List Field) : Changes where
  width := if .width ∈ fields then some settings.width else none
  precision := if .precision ∈ fields then some settings.precision else none
  separator := if .separator ∈ fields then some settings.separator else none
  maxRows := if .maxRows ∈ fields then some settings.maxRows else none
  trailingBlankLine :=
    if .trailingBlankLine ∈ fields then some settings.trailingBlankLine else none

theorem apply_changes (settings : Settings) (fields : List Field) :
    (settings.changes fields).apply {} = settings.only fields := by
  have chosen {α : Type} (field : Field) (value other : α) :
      (if field ∈ fields then some value else none).getD other =
        if field ∈ fields then value else other := by
    split_ifs <;> rfl
  simp only [Changes.apply, changes, only, chosen]

end Print.Settings

namespace Document

open Json Print

variable {settings : Settings}

def fieldName : Settings.Field → String
  | .width => "width"
  | .precision => "precision"
  | .separator => "separator"
  | .maxRows => "max_rows"
  | .trailingBlankLine => "trailing_blank_line"

def fieldToken (settings : Settings) : Settings.Field → Token
  | .width => .word settings.width
  | .precision => .word settings.precision
  | .separator => .text settings.separator
  | .maxRows => settings.maxRows.elim .null .word
  | .trailingBlankLine => .boolean settings.trailingBlankLine

def fieldMembers (settings : Settings) (fields : List Settings.Field) :
    List (String × List Token) :=
  fields.map fun field => (fieldName field, [fieldToken settings field])

theorem settingsTokens_eq (settings : Settings) :
    settingsTokens settings = Token.map (fieldMembers settings Settings.Field.all) := by
  cases limit : settings.maxRows with
  | none => simp [settingsTokens, fieldMembers, Settings.Field.all, fieldName, fieldToken, limit]
  | some rows =>
      simp [settingsTokens, fieldMembers, Settings.Field.all, fieldName, fieldToken, limit]

theorem fieldToken_isScalar (settings : Settings) (field : Settings.Field) :
    (fieldToken settings field).WellFormed ∧
      (Lexeme.token (fieldToken settings field)).IsScalar := by
  have word (value : Nat) : (Token.word value).WellFormed ∧
      (Lexeme.token (.word value)).IsScalar :=
    ⟨Decimal.Spelling.wellFormed_ofNat value, trivial⟩
  cases field with
  | width => exact word settings.width
  | precision => exact word settings.precision
  | separator => exact ⟨trivial, .inl ⟨_, rfl⟩⟩
  | maxRows =>
      rw [fieldToken]
      cases settings.maxRows with
      | none => exact ⟨trivial, trivial⟩
      | some rows => exact word rows
  | trailingBlankLine => exact ⟨trivial, trivial⟩

theorem wellFormed_fieldMembers (settings : Settings) (fields : List Settings.Field) :
    ∀ member ∈ fieldMembers settings fields, ∀ token ∈ member.2, token.WellFormed := by
  simp only [fieldMembers, List.forall_mem_map, List.forall_mem_singleton]
  exact fun field _ => (fieldToken_isScalar settings field).1

theorem isValue_fieldMembers (settings : Settings) (fields : List Settings.Field) :
    IsValue (record (lexed (fieldMembers settings fields))) := by
  apply isValue_record
  simp only [lexed, fieldMembers, List.forall_mem_map]
  exact fun field _ => .scalar (fieldToken_isScalar settings field).2

theorem accepts_settingsField (fits : settings.Fits) {field : Settings.Field}
    {fields : List Settings.Field} (fresh : field ∉ fields) :
    settingsSchema.Accepts (settings.changes fields) (fieldName field)
      ([fieldToken settings field].map .token) (settings.changes (fields ++ [field])) := by
  cases field with
  | width =>
      exact Schema.accepts_ofReader rfl (by simp [Settings.changes, fresh])
        (readWord_word fits.width) (by simp [Settings.changes])
  | precision =>
      exact Schema.accepts_ofReader rfl (by simp [Settings.changes, fresh])
        (readWord_word fits.precision) (by simp [Settings.changes])
  | separator =>
      exact Schema.accepts_ofReader rfl (by simp [Settings.changes, fresh])
        (readText_text settings.separator) (by simp [Settings.changes])
  | maxRows =>
      exact Schema.accepts_ofReader rfl (by simp [Settings.changes, fresh])
        (readOptionalWord_elim fits.maxRows) (by simp [Settings.changes])
  | trailingBlankLine =>
      exact Schema.accepts_ofReader rfl (by simp [Settings.changes, fresh])
        (readBoolean_boolean settings.trailingBlankLine) (by simp [Settings.changes])

theorem gathers_changes (fits : settings.Fits) {before fields : List Settings.Field}
    (once : (before ++ fields).Nodup) :
    settingsSchema.Gathers (settings.changes before) (lexed (fieldMembers settings fields))
      (settings.changes (before ++ fields)) := by
  -- What has been read is the settings in the fields `before`, and none of them is to come.
  induction fields generalizing before with
  | nil =>
      rw [List.append_nil]
      exact .nil _
  | cons field fields ih =>
      have fresh : field ∉ before := fun seen =>
        (List.nodup_append.mp once).2.2 field seen field List.mem_cons_self rfl
      rw [List.append_cons] at once ⊢
      exact .cons (accepts_settingsField fits fresh) (ih once)

theorem readSettings_presents (fits : settings.Fits) {fields : List Settings.Field}
    (once : fields.Nodup) {text : String}
    (presents : Presents (record (lexed (fieldMembers settings fields))) text.toList) :
    readSettings text = .ok (settings.only fields) := by
  have gathers : settingsSchema.Gathers (settings.changes [])
      (lexed (fieldMembers settings fields)) (settings.changes ([] ++ fields)) :=
    gathers_changes fits once
  have blank : settings.changes [] = {} := by simp [Settings.changes]
  rw [List.nil_append, blank] at gathers
  have read := Schema.read_gathers gathers []
  rw [List.append_nil] at read
  have scanned := scan_presents (isValue_fieldMembers settings fields) presents
  simp only [readSettings, readDocument, scanned, read, Except.map, Settings.apply_changes]

/-- The settings can be read back from documents, in whole and in part. -/
structure SurviveDocuments (settings : Settings) : Prop where
  whole : readSettings (Token.render (settingsTokens settings)) = .ok settings
  /-- A map with some of the fields, in any order, spelled and spaced in any way, gives the
  defaults with exactly these fields replaced. -/
  part : ∀ {fields : List Settings.Field}, fields.Nodup → ∀ {text : String},
    Presents (record (lexed (fieldMembers settings fields))) text.toList →
      readSettings text = .ok (settings.only fields)
  /-- The defaults are what is built without a change. -/
  defaults : Settings.Changes.build {} = .ok (settings.only [])

theorem settings_survive_documents (fits : settings.Fits) : SurviveDocuments settings := by
  refine ⟨?_, fun once _ presents => readSettings_presents fits once presents, rfl⟩
  have presents : Presents (record (lexed (fieldMembers settings Settings.Field.all)))
      (Token.render (settingsTokens settings)).toList := by
    rw [Token.render, String.toList_ofList, settingsTokens_eq]
    exact presents_map (List.forall_mem_nil _) (wellFormed_fieldMembers settings _)
  rw [readSettings_presents fits (by decide) presents, settings.only_all]

def escaped : Print.Settings where
  width := 18446744073709551615
  separator := "\"\\\n\x1f"
  maxRows := some 0
  trailingBlankLine := false

def escapedPart : String :=
  " \x7b \"separator\" : \"\\\"\\\\\\n\\u001f\" , \"width\" : 18446744073709551615 \x7d"

theorem separator_is_unescaped :
    readSettings (Token.render (settingsTokens escaped)) = .ok escaped ∧
      readSettings escapedPart =
        .ok { width := 18446744073709551615, separator := "\"\\\n\x1f" } := by
  have fits : escaped.Fits := by
    refine ⟨by decide, by decide, ?_⟩
    rintro rows ⟨⟩
    decide
  have survive : SurviveDocuments escaped := settings_survive_documents fits
  have blank : ∀ char ∈ [' '], Lexeme.isBlank char := List.forall_mem_singleton.mpr rfl
  have presents : Presents (record (lexed (fieldMembers escaped [.separator, .width])))
      escapedPart.toList :=
    presents_map blank (wellFormed_fieldMembers escaped _)
  exact ⟨survive.whole, survive.part (by decide) presents⟩

end Document

end HalfMatrix
