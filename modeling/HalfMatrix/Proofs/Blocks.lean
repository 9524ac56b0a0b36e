import HalfMatrix.Proofs.Decimals.Places
import HalfMatrix.Proofs.Grids
import HalfMatrix.Proofs.Session.Printouts

/-!
# What a printed block looks like

The reference text of a block is put together from the texts of its cells: the
title, the rows that are shown, a line that counts the others, an empty line.
A cell is its number with fixed places, with blanks before it up to the width.
A printer whose settings lay out every value delivers the reference text of the
rows it is given.  With settings that were checked each part of the text is one
line, and some row is shown if there is one.
-/

set_option autoImplicit false

namespace HalfMatrix

namespace Print

variable {precision : Precision} {rows cols : Nat}

/-! ## The reference text -/

/-- The text is that of the value in a block: the value with fixed places, and
before it the blanks that it lacks to the width. -/
def IsCell (settings : Settings) (value : Binary precision) (text : String) : Prop :=
  ∃ chars, Decimal.IsFixed settings.precision value chars ∧
    text.toList = List.replicate (settings.width - chars.length) ' ' ++ chars

/-- The block with this title in which the values have these texts. -/
def reference (settings : Settings) (title : String) (cells : Fin rows → Fin cols → String) :
    String :=
  title ++ "\n" ++
    String.join (((List.finRange rows).take (shownRows settings rows)).map fun row =>
      settings.separator.intercalate ((List.finRange cols).map (cells row)) ++ "\n") ++
    (if shownRows settings rows < rows then
      "... (" ++ toString (rows - shownRows settings rows) ++ " more rows)" ++ "\n" else "") ++
    (if settings.trailingBlankLine then "\n" else "")

theorem isCell_iff {settings : Settings} {value : Binary precision} {text : String} :
    IsCell settings value text ↔ text = cell settings value := by
  simp only [IsCell, Decimal.isFixed_iff, exists_eq_left, cell]
  constructor
  · intro same
    rw [← same, String.ofList_toList]
  · rintro rfl
    exact String.toList_ofList

theorem join_pieces (settings : Settings) (title : String) (rows : List (List (Binary precision))) :
    String.join (pieces settings title rows) =
      String.join ((title :: body settings rows).map (· ++ "\n")) := by
  have joined : ∀ lines : List String,
      String.join (lines.flatMap linePieces) = String.join (lines.map (· ++ "\n")) := by
    intro lines
    induction lines with
    | nil => rfl
    | cons line lines ih =>
        rw [List.flatMap_cons, linePieces, String.join_append, ih, List.map_cons, String.join_cons]
        simp [String.join_cons]
  have whole : pieces settings title rows = (title :: body settings rows).flatMap linePieces := rfl
  rw [whole, joined]

theorem join_optional (shown : Prop) [Decidable shown] (line : String) :
    String.join ((if shown then [line] else []).map (· ++ "\n")) =
      if shown then line ++ "\n" else "" := by
  split
  · rw [List.map_singleton, String.join_cons, String.join_nil, String.append_empty]
  · rfl

/-- A block is the reference text of its cells. -/
theorem join_pieces_eq_reference (settings : Settings) (title : String)
    (value : Fin rows → Fin cols → Binary precision) :
    String.join (pieces settings title
        ((List.finRange rows).map fun row => (List.finRange cols).map (value row))) =
      reference settings title fun row col => cell settings (value row col) := by
  have row : ∀ row : Fin rows, line settings ((List.finRange cols).map (value row)) =
      settings.separator.intercalate
        ((List.finRange cols).map fun col => cell settings (value row col)) := by
    intro row
    rw [line, List.map_map]
    rfl
  rw [join_pieces, reference, body, visible]
  simp only [List.length_map, List.length_finRange, List.map_cons, List.map_append,
    String.join_cons, String.join_append, ← List.map_take, List.map_map, join_optional,
    Function.comp_def, row, omission, String.append_assoc, String.empty_append]

/-! ## Lines -/

def HasLines (text : String) (count : Nat) : Prop :=
  ∃ lines : List String, lines.length = count ∧ (∀ line ∈ lines, '\n' ∉ line.toList) ∧
    text = String.join (lines.map (· ++ "\n"))

namespace Settings

structure Checked (settings : Settings) : Prop where
  precision : settings.precision ≤ Changes.greatestPrecision
  separator : '\n' ∉ settings.separator.toList
  maxRows : settings.maxRows ≠ some 0

theorem check_eq_ok {changes : Changes} (checked : changes.check = .ok ()) :
    (∀ places, changes.precision = some places → places ≤ Changes.greatestPrecision) ∧
      (∀ separator, changes.separator = some separator → '\n' ∉ separator.toList) ∧
        changes.maxRows ≠ some (some 0) := by
  simp only [Changes.check, bind, Except.bind, pure, Except.pure, throw, throwThe,
    MonadExceptOf.throw] at checked
  split at checked
  · cases checked
  · rename_i precision
    split at checked
    · cases checked
    · rename_i separator
      split at checked
      · cases checked
      · rename_i maxRows
        refine ⟨?_, ?_, maxRows⟩
        · rintro places same
          simpa [same] using precision
        · rintro text same
          simpa [same] using separator

theorem checked_of_build {changes : Changes} {settings : Settings}
    (built : changes.build = .ok settings) : settings.Checked := by
  unfold Changes.build at built
  cases checked : changes.check with
  | error field =>
      rw [checked] at built
      cases built
  | ok _ =>
      rw [checked] at built
      obtain rfl := Except.ok.inj built
      obtain ⟨precision, separator, maxRows⟩ := check_eq_ok checked
      refine ⟨?_, ?_, ?_⟩
      · cases given : changes.precision with
        | none => simp [Changes.apply, given, Changes.greatestPrecision]
        | some places => simpa [Changes.apply, given] using precision places given
      · cases given : changes.separator with
        | none => simp [Changes.apply, given]
        | some text => simpa [Changes.apply, given] using separator text given
      · cases given : changes.maxRows with
        | none => simp [Changes.apply, given]
        | some most =>
            rintro none
            simp only [Changes.apply, given, Option.getD_some] at none
            exact maxRows (by rw [given, none])

end Settings

theorem shownRows_pos {settings : Settings} (checked : settings.Checked) (some : 1 ≤ rows) :
    1 ≤ shownRows settings rows := by
  have positive := checked.maxRows
  unfold shownRows
  split
  · exact some
  · rename_i greatest most
    have nonzero : greatest ≠ 0 := fun none => positive (by rw [most, none])
    omega

theorem not_mem_intercalate {α : Type} {separator : List α} {lists : List (List α)} {item : α}
    (apart : item ∉ separator) (missed : ∀ list ∈ lists, item ∉ list) :
    item ∉ separator.intercalate lists := by
  induction lists with
  | nil => exact List.not_mem_nil
  | cons first lists ih =>
      obtain ⟨missedFirst, missed⟩ := List.forall_mem_cons.mp missed
      cases lists with
      | nil => rwa [List.intercalate_singleton]
      | cons second lists =>
          rw [List.intercalate_cons_cons, List.mem_append, List.mem_append, not_or, not_or]
          exact ⟨⟨missedFirst, apart⟩, ih missed⟩

theorem newline_not_mem_digits {digits : List Char} (isDigit : ∀ char ∈ digits, char.isDigit) :
    '\n' ∉ digits := by
  intro mem
  cases isDigit '\n' mem

theorem newline_not_mem_fixed (count : Nat) (value : Binary precision) :
    '\n' ∉ Decimal.fixed count value := by
  have written := Decimal.isFixed_fixed count value
  generalize Decimal.fixed count value = chars at written
  cases written with
  | nan => decide
  | infinite =>
      unfold Decimal.sign
      split <;> decide
  | finite below plain negative rounded =>
      have whole := newline_not_mem_digits plain.wellFormed.whole_isDigit
      have places := newline_not_mem_digits plain.wellFormed.places_isDigit
      simp only [Decimal.Spelling.text, plain.power, List.append_nil, List.mem_append, not_or]
      refine ⟨⟨?_, whole⟩, ?_⟩
      · split <;> decide
      · split
        · exact List.not_mem_nil
        · exact List.not_mem_cons_of_ne_of_not_mem (by decide) places

theorem newline_not_mem_cell (settings : Settings) (value : Binary precision) :
    '\n' ∉ (cell settings value).toList := by
  rw [cell, String.toList_ofList, List.mem_append, not_or]
  refine ⟨fun blank => ?_, newline_not_mem_fixed settings.precision value⟩
  cases List.eq_of_mem_replicate blank

theorem newline_not_mem_omission (count : Nat) : '\n' ∉ (omission count).toList := by
  have digits := newline_not_mem_digits (Decimal.isDigit_of_mem_toDigits count)
  rw [omission, Nat.toString_eq_ofList_toDigits, String.toList_append, String.toList_append,
    String.toList_ofList, List.mem_append, List.mem_append, not_or, not_or]
  exact ⟨⟨by decide, by rwa [String.toList_ofList]⟩, by decide⟩

/-- No line of a block is broken. -/
theorem newline_not_mem_body {settings : Settings} (checked : settings.Checked)
    (rows : List (List (Binary precision))) :
    ∀ line ∈ body settings rows, '\n' ∉ line.toList := by
  intro text mem
  simp only [body, List.mem_append] at mem
  rcases mem with (mem | mem) | mem
  · obtain ⟨values, _, rfl⟩ := List.mem_map.mp mem
    rw [line, String.toList_intercalate]
    refine not_mem_intercalate checked.separator ?_
    intro chars shown
    obtain ⟨text, inLine, rfl⟩ := List.mem_map.mp shown
    obtain ⟨value, _, rfl⟩ := List.mem_map.mp inLine
    exact newline_not_mem_cell settings value
  · split at mem
    · rw [List.mem_singleton.mp mem]
      exact newline_not_mem_omission _
    · exact (List.not_mem_nil mem).elim
  · split at mem
    · rw [List.mem_singleton.mp mem]
      exact List.not_mem_nil
    · exact (List.not_mem_nil mem).elim

theorem shownRows_le (settings : Settings) (rows : Nat) : shownRows settings rows ≤ rows := by
  unfold shownRows
  split
  · exact Nat.le_refl rows
  · exact Nat.min_le_right _ rows

theorem length_body (settings : Settings) (rows : List (List (Binary precision))) :
    (body settings rows).length =
      shownRows settings rows.length +
        (if shownRows settings rows.length < rows.length then 1 else 0) +
          (if settings.trailingBlankLine then 1 else 0) := by
  have single : ∀ (shown : Prop) [Decidable shown] (line : String),
      (if shown then [line] else []).length = if shown then 1 else 0 := by
    intro shown _ line
    split <;> rfl
  rw [body, List.length_append, List.length_append, List.length_map, visible, List.length_take,
    Nat.min_eq_left (shownRows_le settings rows.length), single, single]

/-! ## Blocks -/

/-- The text is the block of these values under this title. -/
structure IsBlock (settings : Settings) (title : String)
    (value : Fin rows → Fin cols → Binary precision) (text : String) : Prop where
  /-- Every value has a cell. -/
  cells : ∃ cells : Fin rows → Fin cols → String,
    ∀ row col, IsCell settings (value row col) (cells row col)
  /-- The text is the reference text of the cells. -/
  reference : ∀ cells : Fin rows → Fin cols → String,
    (∀ row col, IsCell settings (value row col) (cells row col)) →
      text = reference settings title cells
  /-- With settings that a builder accepts and a title of one line, nothing else breaks a line. -/
  lines : ∀ changes : Settings.Changes, changes.build = .ok settings → '\n' ∉ title.toList →
    HasLines text
      (1 + shownRows settings rows + (if shownRows settings rows < rows then 1 else 0) +
        (if settings.trailingBlankLine then 1 else 0))
  shown : ∀ changes : Settings.Changes, changes.build = .ok settings → 1 ≤ rows →
    1 ≤ shownRows settings rows

theorem isBlock_join_pieces (settings : Settings) (title : String)
    (value : Fin rows → Fin cols → Binary precision) :
    IsBlock settings title value
      (String.join (pieces settings title
        ((List.finRange rows).map fun row => (List.finRange cols).map (value row)))) where
  cells := ⟨fun row col => cell settings (value row col), fun _ _ => isCell_iff.mpr rfl⟩
  reference := by
    intro cells are
    have same : cells = fun row col => cell settings (value row col) := by
      funext row col
      exact isCell_iff.mp (are row col)
    rw [same, join_pieces_eq_reference]
  lines := by
    intro changes built whole
    have checked := Settings.checked_of_build built
    refine ⟨title :: body settings _, ?_, ?_, join_pieces _ _ _⟩
    · rw [List.length_cons, length_body, List.length_map, List.length_finRange]
      omega
    · exact List.forall_mem_cons.mpr ⟨whole, newline_not_mem_body checked _⟩
  shown _ built some := shownRows_pos (Settings.checked_of_build built) some

end Print

/-! ## Printers -/

namespace Printer

variable {precision : Precision}

/-- The printing goes well unless the target fails, and the target gets the text. -/
def Prints (printer : Printer) (outlets : Outlets) (text : String)
    (result : Except Fault (Printed (Except WriteError Unit))) : Prop :=
  ∃ printed, result = .ok printed ∧
    Print.Delivers printer.target outlets text
      (printed.printer.target, printed.outlets, printed.answer)

/-- A printer whose settings lay out every value prints the block of the rows. -/
theorem printRows_prints {printer : Printer} (lays : printer.settings.LaysOut) (outlets : Outlets)
    (title : String) {rows cols : Nat} (value : Fin rows → Fin cols → Binary precision) :
    ∃ text, Print.IsBlock printer.settings title value text ∧
      printer.Prints outlets text (printer.printRows outlets title
        ((List.finRange rows).map fun row => (List.finRange cols).map (value row))) := by
  have admits : Print.Admits printer.settings
      ((List.finRange rows).map fun row => (List.finRange cols).map (value row)) := Or.inl lays
  obtain ⟨printed, success, delivers, _⟩ := printRows_of_admits outlets title admits
  exact ⟨_, Print.isBlock_join_pieces printer.settings title value, printed, success, delivers⟩

/-- Views and packed values are printed as the reference text of their block. -/
theorem printed_block_is_reference (printer : Printer) (lays : printer.settings.LaysOut)
    (outlets : Outlets) (title : String) (view : View (Binary precision))
    (values : List (Binary precision)) :
    (∃ text, Print.IsBlock printer.settings title view.data.entry text ∧
        printer.Prints outlets text (printer.printView outlets title view)) ∧
      (∃ text, Print.IsBlock printer.settings title
          (fun (_ : Fin 1) (col : Fin values.length) => values[col]) text ∧
        printer.Prints outlets text (printer.printValues outlets title values)) := by
  constructor
  · rw [printView, Grid.toRows_eq]
    exact printRows_prints lays outlets title view.data.entry
  · have row : [values] = (List.finRange 1).map fun _ =>
        (List.finRange values.length).map fun col => values[col] := by
      have listed : ((List.finRange values.length).map fun col => values[col]) = values :=
        List.map_getElem_finRange values
      rw [listed]
      rfl
    rw [printValues, row]
    exact printRows_prints lays outlets title fun _ col => values[col]

def oneRow : Print.Settings.Changes where
  width := some 5
  precision := some 1
  maxRows := some (some 1)

def oddRows : View (Binary .single) where
  ticket := 1
  region := .rows 0 2
  access := .readOnly
  rows := 2
  cols := 4
  data := #v[.ofMagnitude false 0x3e800000, .ofMagnitude true 0, .nan, .infinite true,
    .nan, .nan, .nan, .nan]

/-- A quarter is rounded to the even place, and negative zero keeps its sign. -/
theorem tie_and_signs_are_printed :
    ∃ printed, ({ settings := oneRow.apply {}, target := .buffer "" } : Printer).printView {} "t"
        oddRows = .ok printed ∧
      printed.printer.buffered? =
        some "t\n  0.2    -0.0     NaN    -inf\n... (1 more rows)\n\n" ∧
      Print.HasLines "t\n  0.2    -0.0     NaN    -inf\n... (1 more rows)\n\n" 4 := by
  obtain ⟨⟨text, block, printed, success, delivers⟩, _⟩ :=
    printed_block_is_reference { settings := oneRow.apply {}, target := .buffer "" } (by decide) {}
      "t" oddRows []
  have shown : text = "t\n  0.2    -0.0     NaN    -inf\n... (1 more rows)\n\n" :=
    (block.reference (fun row col => Print.cell (oneRow.apply {}) (oddRows.data.entry row col))
      fun _ _ => Print.isCell_iff.mpr rfl).trans (by decide)
  subst shown
  have target := congrArg Prod.fst delivers.kept
  refine ⟨printed, success, ?_, block.lines oneRow rfl (by decide)⟩
  simp only [Print.Target.receive] at target
  simp [buffered?, target]

end Printer

end HalfMatrix
