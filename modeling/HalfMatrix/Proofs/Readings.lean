import HalfMatrix.Proofs.Blocks
import Mathlib.Algebra.Group.Nat.Even

/-!
# The one matrix that a table shows

The matrix behind a table is read off its packed entries with the closed
formulas for where an entry of a triangle is kept.  Single entries, the whole
matrix, the views of a region and the print of a region all show it: what is
printed is the text of the block that the matrix has there.
-/

set_option autoImplicit false

namespace HalfMatrix

/-! ## Closed formulas -/

namespace Packing

/-- Where the entry `(row, col)` of the triangle is kept.  Above row `row` the
lower triangle has `1 + 2 + ... + row` entries, the upper one as many as `row`
whole rows without the `0 + 1 + ... + (row - 1)` entries on their left. -/
def index : Triangle → Nat → Nat → Nat → Nat
  | .lower, _, row, col => row * (row + 1) / 2 + col
  | .upper, n, row, col => row * n - row * (row - 1) / 2 + (col - row)

theorem two_mul_triangular (n : Nat) : 2 * triangular n = n * (n + 1) := by
  obtain ⟨half, even⟩ := Nat.even_mul_succ_self n
  unfold triangular
  omega

theorem index_eq_position (triangle : Triangle) {n row : Nat} (bound : row ≤ n) (col : Nat) :
    index triangle n row col = position triangle n row col := by
  cases triangle with
  | lower => rfl
  | upper =>
      obtain ⟨k, rfl⟩ := Nat.exists_eq_add_of_le bound
      rw [position, rowStart_upper]
      cases row with
      | zero => simp [index, triangular, columnSpan]
      | succ above =>
          have left : (above + 1) * (above + 1 - 1) / 2 = triangular above := by
            rw [Nat.add_sub_cancel, Nat.mul_comm, triangular]
          have whole : (above + 1) * (above + 1 + k) =
              2 * triangular above + (above + 1) + (above + 1) * k := by
            rw [two_mul_triangular, Nat.mul_add, ← Nat.succ_mul above (above + 1)]
          simp only [index, columnSpan, left, whole, triangular_succ]
          omega

theorem index_lt {triangle : Triangle} {n : Nat} {row col : Fin n}
    (inside : triangle.Holds row col) : index triangle n row col < triangular n := by
  rw [index_eq_position triangle (Nat.le_of_lt row.isLt)]
  exact position_lt row.isLt col.isLt inside

end Packing

def Printer.Printed.rendering {Answer : Type} (printed : Printer.Printed Answer) :
    Printer × Outlets :=
  (printed.printer, printed.outlets)

/-- The printer and the outlets once the target of the printer has got the text. -/
def Printer.delivering (printer : Printer) (outlets : Outlets) (text : String) :
    Printer × Outlets :=
  let (target, outlets) := printer.target.receive outlets text
  (printer.redirect target, outlets)

theorem Printer.rendering_of_delivers {printer : Printer} {outlets : Outlets} {text : String}
    {printed : Printed (Except WriteError Unit)}
    (delivers : Print.Delivers printer.target outlets text
      (printed.printer.target, printed.outlets, printed.answer))
    (settings : printed.printer.settings = printer.settings) :
    printed.rendering = printer.delivering outlets text := by
  have kept : (printed.printer.target, printed.outlets) = printer.target.receive outlets text :=
    delivers.kept
  simp only [Printed.rendering, delivering, redirect, ← kept, ← settings]

/-! ## The matrix -/

namespace Table

variable {precision : Precision} {n : Nat}

/-- The matrix that the packed entries stand for. -/
def matrix (table : Table (Binary precision) n) (row col : Fin n) : Binary precision :=
  if inside : table.triangle.Holds row col then
    table.entries.get ⟨Packing.index table.triangle n row col, Packing.index_lt inside⟩
  else
    match table.fill with
    | .symmetric =>
        table.entries.get ⟨Packing.index table.triangle n col row,
          Packing.index_lt (Triangle.holds_transpose inside)⟩
    | .triangular => .ofMagnitude false 0

/-- The block that the matrix has at a region, row after row. -/
def block (table : Table (Binary precision) n) (region : Region) (within : region.Within n) :
    List (List (Binary precision)) :=
  (List.finRange region.count).map fun i =>
    (List.finRange (region.width n)).map fun j =>
      table.matrix (region.rowAt within i) (region.colAt within j)

theorem slot_eq_index {triangle : Triangle} {row col : Fin n} (inside : triangle.Holds row col) :
    Packing.slot triangle row col inside =
      ⟨Packing.index triangle n row col, Packing.index_lt inside⟩ :=
  Fin.ext (Packing.index_eq_position triangle (Nat.le_of_lt row.isLt) col).symm

theorem entry_eq_matrix (table : Table (Binary precision) n) (row col : Fin n) :
    table.entry row col = table.matrix row col := by
  by_cases inside : table.triangle.Holds row col
  · rw [entry_of_holds inside, slot_eq_index, matrix, dif_pos inside]
  · rw [entry_of_not_holds inside, entry_of_holds (Triangle.holds_transpose inside), slot_eq_index,
      matrix, dif_neg inside]
    cases table.fill with
    | symmetric => rfl
    | triangular => rfl

theorem get_eq_matrix (table : Table (Binary precision) n) (row col : Nat) :
    table.get row col =
      if rowBound : row < n then
        if colBound : col < n then .ok (table.matrix ⟨row, rowBound⟩ ⟨col, colBound⟩)
        else .error (.outOfRange .column col n)
      else .error (.outOfRange .row row n) := by
  simp only [get, locate, ← entry_eq_matrix]
  split_ifs <;> rfl

theorem window_eq_matrix (table : Table (Binary precision) n) (region : Region)
    (within : region.Within n) :
    table.window region within =
      Grid.ofFn fun i j => table.matrix (region.rowAt within i) (region.colAt within j) := by
  simp only [window, entry_eq_matrix]

theorem toGrid_eq_matrix (table : Table (Binary precision) n) :
    table.toGrid = Grid.ofFn table.matrix := by
  simp only [toGrid, funext fun row => funext (entry_eq_matrix table row)]

/-! ## Views -/

theorem view_of_acquire {table lent : Table (Binary precision) n} {region : Region}
    {access : Access} {ticket : Ticket} {view : View (Binary precision)}
    (granted : table.acquire region access ticket = .ok (view, lent))
    (reads : access.reads = true) :
    ∃ within : region.Within n,
      view = { table.lentView region within access ticket with
        data := Grid.ofFn fun i j =>
          table.matrix (region.rowAt within i) (region.colAt within j) } := by
  obtain ⟨within, _, rfl, _⟩ := acquire_eq_ok_iff.mp granted
  refine ⟨within, ?_⟩
  simp only [lentView, if_pos reads, window_eq_matrix]

theorem toList_rows (table : Table (Binary precision) n) {start count : Nat}
    (within : (Region.rows start count).Within n) :
    (Grid.ofFn fun i j => table.matrix ((Region.rows start count).rowAt within i)
        ((Region.rows start count).colAt within j)).toList =
      table.toGrid.toList.extract (start * n) ((start + count) * n) := by
  rw [toGrid_eq_matrix]
  exact (Grid.extract_toList_ofFn table.matrix within).symm

/-! ## Prints -/

theorem printRegion_eq_block {table : Table (Binary precision) n} {region : Region}
    {ticket : Ticket} {granted : View (Binary precision) × Table (Binary precision) n}
    (lent : table.acquire region .readOnly ticket = .ok granted) :
    ∃ within : region.Within n, ∀ (printer : Printer) (outlets : Outlets) (title : String),
      (printer.printRegion outlets table region title ticket).map (·.2.rendering) =
        (printer.printRows outlets title (table.block region within)).map (·.rendering) := by
  obtain ⟨view, after⟩ := granted
  obtain ⟨within, shown⟩ := view_of_acquire lent rfl
  have keeps : view.access.writes = false := by
    rw [shown]
    rfl
  have rows : view.data.toRows = table.block region within := by
    subst shown
    exact Grid.toRows_ofFn _
  refine ⟨within, fun printer outlets title => ?_⟩
  obtain ⟨⟨back, outcome⟩, released⟩ := release_of_keeps after region keeps
  simp only [Printer.printRegion, lent, Printer.printView, rows, released]
  cases printer.printRows outlets title (table.block region within) with
  | error fault => rfl
  | ok printed => rfl

/-- A region that the table grants is printed as the cells of the block that the matrix has
there. -/
theorem printRegion_delivers {table : Table (Binary precision) n} {region : Region}
    {ticket : Ticket} {granted : View (Binary precision) × Table (Binary precision) n}
    (lent : table.acquire region .readOnly ticket = .ok granted) :
    ∃ within : region.Within n, ∀ (printer : Printer) (outlets : Outlets) (title : String),
      printer.settings.LaysOut → ∃ text,
        Print.IsBlock printer.settings title
          (fun i j => table.matrix (region.rowAt within i) (region.colAt within j)) text ∧
        (printer.printRegion outlets table region title ticket).map (·.2.rendering) =
          .ok (printer.delivering outlets text) := by
  obtain ⟨within, shown⟩ := printRegion_eq_block lent
  refine ⟨within, fun printer outlets title lays => ?_⟩
  have admits : Print.Admits printer.settings (table.block region within) := Or.inl lays
  obtain ⟨printed, success, delivers, settings⟩ :=
    Printer.printRows_of_admits outlets title admits
  refine ⟨_, Print.isBlock_join_pieces printer.settings title _, ?_⟩
  rw [shown, success]
  exact congrArg Except.ok (Printer.rendering_of_delivers delivers settings)

/-! ## All readings together -/

/-- Whichever way a table is read, it shows its matrix. -/
structure ShowsMatrix (table : Table (Binary precision) n) : Prop where
  /-- Every entry can be got, and nothing else. Of two bad indices the row is named. -/
  got : ∀ row col : Nat, table.get row col =
    if rowBound : row < n then
      if colBound : col < n then .ok (table.matrix ⟨row, rowBound⟩ ⟨col, colBound⟩)
      else .error (.outOfRange .column col n)
    else .error (.outOfRange .row row n)
  /-- The whole matrix is listed row after row. -/
  dense : table.toGrid.toList =
    (List.finRange n).flatMap fun row => (List.finRange n).map fun col => table.matrix row col
  /-- A view of rows is a slice of the whole matrix. -/
  rows : ∀ (start count : Nat) (access : Access) (ticket : Ticket)
      (view : View (Binary precision)) (lent : Table (Binary precision) n),
    access.reads = true → table.acquire (.rows start count) access ticket = .ok (view, lent) →
      start + count ≤ n ∧ view.rows = count ∧ view.cols = n ∧
        view.data.toList = table.toGrid.toList.extract (start * n) ((start + count) * n)
  /-- A view of a column lists that part of the column. -/
  column : ∀ (col start count : Nat) (access : Access) (ticket : Ticket)
      (view : View (Binary precision)) (lent : Table (Binary precision) n),
    access.reads = true → table.acquire (.column col start count) access ticket = .ok (view, lent) →
      ∃ within : col < n ∧ start + count ≤ n, view.rows = count ∧ view.cols = 1 ∧
        view.data.toList = (List.finRange count).map fun i =>
          table.matrix ((Region.column col start count).rowAt within i) ⟨col, within.1⟩
  /-- A region that is granted to be printed is printed as the matrix has it. -/
  printed : ∀ (region : Region) (ticket : Ticket)
      (granted : View (Binary precision) × Table (Binary precision) n),
    table.acquire region .readOnly ticket = .ok granted →
      ∃ within : region.Within n, ∀ (printer : Printer) (outlets : Outlets) (title : String),
        (printer.printRegion outlets table region title ticket).map (·.2.rendering) =
          (printer.printRows outlets title (table.block region within)).map (·.rendering)
  /-- What the target receives is the block of these entries of the matrix under the title, each
  entry with fixed places. -/
  delivered : ∀ (region : Region) (ticket : Ticket)
      (granted : View (Binary precision) × Table (Binary precision) n),
    table.acquire region .readOnly ticket = .ok granted →
      ∃ within : region.Within n, ∀ (printer : Printer) (outlets : Outlets) (title : String),
        printer.settings.LaysOut → ∃ text,
          Print.IsBlock printer.settings title
            (fun i j => table.matrix (region.rowAt within i) (region.colAt within j)) text ∧
          (printer.printRegion outlets table region title ticket).map (·.2.rendering) =
            .ok (printer.delivering outlets text)

/-- All ways to read a table show one matrix. -/
theorem readings_show_matrix (table : Table (Binary precision) n) : table.ShowsMatrix where
  got := table.get_eq_matrix
  dense := by rw [toGrid_eq_matrix, Grid.toList_ofFn]
  rows start count access ticket view lent reads granted := by
    obtain ⟨within, rfl⟩ := view_of_acquire granted reads
    exact ⟨within, rfl, rfl, table.toList_rows within⟩
  column col start count access ticket view lent reads granted := by
    obtain ⟨within, rfl⟩ := view_of_acquire granted reads
    exact ⟨within, rfl, rfl, Grid.toList_ofFn_one _⟩
  printed _ _ _ lent := printRegion_eq_block lent
  delivered _ _ _ lent := printRegion_delivers lent

def countedSymmetric : Table (Binary .double) 2 where
  fill := .symmetric
  triangle := .upper
  entries := ⟨#[.ofMagnitude false 1, .ofMagnitude false 2, .ofMagnitude false 3], rfl⟩
  ledger := .empty
  fits := by decide

/-- A column of which one entry is stored as its reflection is shown whole. -/
theorem reflection_is_read :
    countedSymmetric.ShowsMatrix ∧
      countedSymmetric.get 1 0 = .ok (.ofMagnitude false 2) ∧
      countedSymmetric.get 2 2 = .error (.outOfRange .row 2 2) ∧
      ∃ view lent, countedSymmetric.acquire (.column 0 0 2) .readOnly 7 = .ok (view, lent) ∧
        view.data.toList = [.ofMagnitude false 1, .ofMagnitude false 2] :=
  ⟨readings_show_matrix countedSymmetric, rfl, rfl, _, _, rfl, rfl⟩

end Table

end HalfMatrix
