import HalfMatrix.Proofs.Decimals.Shown
import HalfMatrix.Proofs.DenseForms
import HalfMatrix.Proofs.Session.Runs

/-!
# Shown tables

A table is shown as the texts of its entries, with a blank before each, and a
line in brackets for each row.  No text of a number has a blank or a bracket in
it, so the texts and the rows can be told from the whole.  Two tables are shown
alike exactly if they have one dimension and entries that are shown alike.
-/

set_option autoImplicit false

namespace HalfMatrix

/-! ## Taking a shown table apart -/

namespace Table

variable {precision : Precision} {n m : Nat}

def isInText (char : Char) : Bool := char != ' ' && char != ']'

def bracketed (texts : List (List Char)) : List Char :=
  "[ ".toList ++ texts.flatMap (' ' :: ·) ++ "]\n".toList

theorem displayRow_eq (values : List (Binary precision)) :
    displayRow values = bracketed (values.map Decimal.shown) := by
  rw [displayRow, bracketed, List.flatMap_map]

/-- A text ends where the next one begins or the line ends. -/
theorem takeWhile_isInText {text : List Char} (plain : ∀ char ∈ text, isInText char)
    (texts : List (List Char)) (rest : List Char) :
    (text ++ (texts.flatMap (' ' :: ·) ++ ']' :: rest)).takeWhile isInText = text := by
  have ended : (texts.flatMap (' ' :: ·) ++ ']' :: rest).takeWhile isInText = [] := by
    cases texts <;> rfl
  rw [List.takeWhile_append_of_pos plain, ended, List.append_nil]

theorem texts_inj {texts others : List (List Char)}
    (plain : ∀ text ∈ texts, ∀ char ∈ text, isInText char)
    (plain' : ∀ text ∈ others, ∀ char ∈ text, isInText char) {rest rest' : List Char}
    (same : texts.flatMap (' ' :: ·) ++ ']' :: rest = others.flatMap (' ' :: ·) ++ ']' :: rest') :
    texts = others ∧ rest = rest' := by
  induction texts generalizing others with
  | nil =>
      cases others with
      | nil => exact ⟨rfl, (List.cons.inj same).2⟩
      | cons other others => cases (List.cons.inj same).1
  | cons text texts ih =>
      cases others with
      | nil => cases (List.cons.inj same).1
      | cons other others =>
          obtain ⟨first, later⟩ := List.forall_mem_cons.mp plain
          obtain ⟨first', later'⟩ := List.forall_mem_cons.mp plain'
          simp only [List.flatMap_cons, List.cons_append, List.append_assoc, List.cons.injEq,
            true_and] at same
          have texts_eq : text = other := by
            rw [← takeWhile_isInText first texts rest, same, takeWhile_isInText first']
          rw [texts_eq] at same
          obtain ⟨tails, ends⟩ := ih later later' (List.append_cancel_left same)
          exact ⟨by rw [texts_eq, tails], ends⟩

theorem bracketed_append_inj {texts others : List (List Char)}
    (plain : ∀ text ∈ texts, ∀ char ∈ text, isInText char)
    (plain' : ∀ text ∈ others, ∀ char ∈ text, isInText char) {rest rest' : List Char}
    (same : bracketed texts ++ rest = bracketed others ++ rest') :
    texts = others ∧ rest = rest' := by
  simp only [bracketed, List.append_assoc] at same
  obtain ⟨texts_eq, ends⟩ := texts_inj plain plain' (List.append_cancel_left same)
  exact ⟨texts_eq, (List.cons.inj ends).2⟩

/-- The lines of a table can be told from its text. -/
theorem lines_inj {rows others : List (List (List Char))}
    (plain : ∀ texts ∈ rows, ∀ text ∈ texts, ∀ char ∈ text, isInText char)
    (plain' : ∀ texts ∈ others, ∀ text ∈ texts, ∀ char ∈ text, isInText char)
    (same : rows.flatMap bracketed ++ ['\n'] = others.flatMap bracketed ++ ['\n']) :
    rows = others := by
  induction rows generalizing others with
  | nil =>
      cases others with
      | nil => rfl
      | cons other others => cases (List.cons.inj same).1
  | cons texts rows ih =>
      cases others with
      | nil => cases (List.cons.inj same).1
      | cons other others =>
          obtain ⟨first, later⟩ := List.forall_mem_cons.mp plain
          obtain ⟨first', later'⟩ := List.forall_mem_cons.mp plain'
          rw [List.flatMap_cons, List.flatMap_cons, List.append_assoc, List.append_assoc] at same
          obtain ⟨texts_eq, tails⟩ := bracketed_append_inj first first' same
          rw [texts_eq, ih later later' tails]

/-! ## Tables -/

def texts (table : Table (Binary precision) n) : List (List (List Char)) :=
  (List.finRange n).map fun row => (List.finRange n).map fun col =>
    Decimal.shown (table.entry row col)

theorem display_eq (table : Table (Binary precision) n) :
    table.display = String.ofList ('\n' :: table.texts.flatMap bracketed ++ ['\n']) := by
  have lines : table.toGrid.toRows.flatMap displayRow = table.texts.flatMap bracketed := by
    simp only [toGrid, Grid.toRows_ofFn, texts, List.flatMap_map, displayRow_eq, List.map_map,
      Function.comp_def]
  rw [display, lines]

theorem isInText_of_mem_texts (table : Table (Binary precision) n) :
    ∀ texts ∈ table.texts, ∀ text ∈ texts, ∀ char ∈ text, isInText char := by
  simp only [texts, List.forall_mem_map]
  intro row _ col _ char mem
  have noBlank := Decimal.not_mem_shown (table.entry row col) ' ' (by decide)
  have noBracket := Decimal.not_mem_shown (table.entry row col) ']' (by decide)
  rw [isInText, Bool.and_eq_true, bne_iff_ne, bne_iff_ne]
  constructor
  · rintro rfl
    exact noBlank mem
  · rintro rfl
    exact noBracket mem

def ShownAlike (left : Table (Binary precision) n) (right : Table (Binary precision) m) : Prop :=
  left.Corresponds Binary.ShownAlike right

instance (left : Table (Binary precision) n) (right : Table (Binary precision) m) :
    Decidable (left.ShownAlike right) :=
  inferInstanceAs (Decidable (left.Corresponds Binary.ShownAlike right))

theorem texts_eq_texts_iff {left : Table (Binary precision) n}
    {right : Table (Binary precision) m} : left.texts = right.texts ↔ left.ShownAlike right := by
  constructor
  · intro same
    obtain rfl : n = m := by
      have length := congrArg List.length same
      simpa [texts] using length
    refine corresponds_iff.mpr fun row col => Decimal.shown_eq_shown_iff.mp ?_
    have rows := List.map_inj_left.mp same row (List.mem_finRange row)
    exact List.map_inj_left.mp rows col (List.mem_finRange col)
  · rintro ⟨rfl, alike⟩
    refine List.map_congr_left fun row _ => List.map_congr_left fun col _ => ?_
    have entries := corresponds_iff.mp ⟨rfl, alike⟩ row col
    exact Decimal.shown_eq_shown_iff.mpr entries

theorem display_eq_display_iff {left : Table (Binary precision) n}
    {right : Table (Binary precision) m} : left.display = right.display ↔ left.ShownAlike right := by
  rw [← texts_eq_texts_iff, display_eq, display_eq]
  constructor
  · intro same
    have lines := List.cons.inj (String.ofList_injective same)
    exact lines_inj left.isInText_of_mem_texts right.isInText_of_mem_texts lines.2
  · intro same
    rw [same]

end Table

/-! ## In a session -/

namespace Session

variable {precision : Precision} {n m : Nat}

def Shows (session : Session) (name text : String) : Prop :=
  (session.step (.table name .display)).1.answer = .ok (.text text) ∧
    (session.step (.table name .display)).2 = session

theorem shows_display {session : Session} {name : String} {owner : SomeTable}
    (owned : session.tables.find? name = some owner) :
    session.Shows name owner.table.display := by
  rw [Shows, step_table owned]
  exact ⟨rfl, rfl⟩

/-- What the texts of two tables tell. -/
structure TellApart (left : Table (Binary precision) n) (right : Table (Binary precision) m)
    (text text' : String) : Prop where
  /-- The texts are the same exactly if the tables have one dimension and in each entry the same
  word, or no number on either side. -/
  alike : text = text' ↔ left.ShownAlike right
  /-- A number is told from any other word, and so are the two zeros. -/
  apart : ∀ (same : n = m) (row col : Fin n), (left.toGrid.entry row col).isNaN = false →
    left.toGrid.entry row col ≠ right.toGrid.entry (row.cast same) (col.cast same) → text ≠ text'

/-- Tables of any layout and fill are shown as texts that tell them apart. -/
theorem displays_are_faithful (session : Session) {name other : String}
    {left : Table (Binary precision) n} {right : Table (Binary precision) m}
    (owned : session.tables.find? name = some ⟨precision, n, left⟩)
    (owned' : session.tables.find? other = some ⟨precision, m, right⟩) :
    ∃ text text', session.Shows name text ∧ session.Shows other text' ∧
      TellApart left right text text' := by
  refine ⟨_, _, shows_display owned, shows_display owned', Table.display_eq_display_iff, ?_⟩
  intro same row col number different texts
  obtain ⟨_, alike⟩ := Table.display_eq_display_iff.mp texts
  obtain word | ⟨nan, _⟩ := alike row col
  · exact different word
  · rw [nan] at number
    cases number

theorem fits_halfNan : 2 * (2 + 1) < Word.modulus := by decide

def halfNan : Table (Binary .double) 2 where
  fill := .triangular
  triangle := .upper
  entries := #v[.nan, .ofMagnitude false 0, .ofMagnitude true 1]
  ledger := .empty
  fits := fits_halfNan

def mirrorNan (zero : Binary .double) : Table (Binary .double) 2 where
  fill := .symmetric
  triangle := .lower
  entries := #v[.ofMagnitude true (Precision.infinity .double + 1), zero, .ofMagnitude true 1]
  ledger := .empty
  fits := fits_halfNan

def withNans (zero : Binary .double) : Session :=
  (initial.putTable "t" ⟨.double, 2, halfNan⟩).putTable "u" ⟨.double, 2, mirrorNan zero⟩

/-- Tables of different fills and triangles are shown as one text if they differ only in the
words of what is not a number, and as two if they differ in the sign of a zero. -/
theorem sign_of_zero_is_shown :
    (∃ text, (withNans (.ofMagnitude false 0)).Shows "t" text ∧
        (withNans (.ofMagnitude false 0)).Shows "u" text) ∧
      ∃ text text', (withNans (.ofMagnitude true 0)).Shows "t" text ∧
        (withNans (.ofMagnitude true 0)).Shows "u" text' ∧ text ≠ text' := by
  constructor
  · obtain ⟨text, text', shown, shown', tell⟩ : ∃ text text',
        (withNans (.ofMagnitude false 0)).Shows "t" text ∧
          (withNans (.ofMagnitude false 0)).Shows "u" text' ∧
          TellApart halfNan (mirrorNan (.ofMagnitude false 0)) text text' :=
      displays_are_faithful _ rfl rfl
    have one : text = text' := tell.alike.mpr (by decide)
    exact ⟨text, shown, one ▸ shown'⟩
  · obtain ⟨text, text', shown, shown', tell⟩ : ∃ text text',
        (withNans (.ofMagnitude true 0)).Shows "t" text ∧
          (withNans (.ofMagnitude true 0)).Shows "u" text' ∧
          TellApart halfNan (mirrorNan (.ofMagnitude true 0)) text text' :=
      displays_are_faithful _ rfl rfl
    exact ⟨text, text', shown, shown', tell.apart rfl 0 1 (by decide) (by decide)⟩

end Session

end HalfMatrix
