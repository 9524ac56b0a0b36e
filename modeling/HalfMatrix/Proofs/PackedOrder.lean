import HalfMatrix.Proofs.Dense
import Mathlib.Data.List.FinRange
import Mathlib.Data.Set.Function
import Mathlib.Order.Interval.Set.Defs

/-!
# The order of the packed entries

The rows of a triangle follow on each other in the buffer, and so do the columns
of a row.  Going through the entries row after row therefore means going through
the positions of the buffer one by one: none is left out and none comes twice.
-/

set_option autoImplicit false

namespace HalfMatrix.Packing

/-! ## The columns of a row -/

theorem mem_columnSpan {triangle : Triangle} {n row col : Nat} (bound : row < n) :
    (columnSpan triangle n row).1 ≤ col ∧ col < (columnSpan triangle n row).2 ↔
      col < n ∧ triangle.Holds row col := by
  cases triangle <;> simp only [columnSpan, Triangle.Holds] <;> omega

theorem range_eq_append {row n : Nat} (le : row ≤ n) :
    List.range n = List.range row ++ List.range' row (n - row) := by
  have length : row + (n - row) = n := by omega
  have split := List.range'_append_1 (s := 0) (m := row) (n := n - row)
  rw [Nat.zero_add, length] at split
  rw [List.range_eq_range', List.range_eq_range', split]

theorem filter_holds_range (triangle : Triangle) {n row : Nat} (bound : row < n) :
    (List.range n).filter (fun col => triangle.Holds row col) =
      List.range' (columnSpan triangle n row).1 (rowLength triangle n row) := by
  cases triangle with
  | lower =>
      have first : (List.range (row + 1)).filter (fun col => Triangle.lower.Holds row col) =
          List.range (row + 1) := by
        apply List.filter_eq_self.mpr
        intro col mem
        exact decide_eq_true (Nat.le_of_lt_succ (List.mem_range.mp mem))
      have rest : (List.range' (row + 1) (n - (row + 1))).filter
          (fun col => Triangle.lower.Holds row col) = [] := by
        apply List.filter_eq_nil_iff.mpr
        intro col mem inside
        have after := (List.mem_range'_1.mp mem).1
        have before : col ≤ row := of_decide_eq_true inside
        omega
      rw [range_eq_append (show row + 1 ≤ n by omega), List.filter_append, first, rest,
        List.append_nil, List.range_eq_range']
      rfl
  | upper =>
      have before : (List.range row).filter (fun col => Triangle.upper.Holds row col) = [] := by
        apply List.filter_eq_nil_iff.mpr
        intro col mem inside
        have after : row ≤ col := of_decide_eq_true inside
        have before := List.mem_range.mp mem
        omega
      have rest : (List.range' row (n - row)).filter (fun col => Triangle.upper.Holds row col) =
          List.range' row (n - row) := by
        apply List.filter_eq_self.mpr
        intro col mem
        exact decide_eq_true (List.mem_range'_1.mp mem).1
      rw [range_eq_append (show row ≤ n by omega), List.filter_append, before, rest]
      rfl

/-! ## The rows of the buffer -/

theorem rowStart_zero (triangle : Triangle) (n : Nat) : rowStart triangle n 0 = 0 := by
  cases triangle <;> simp [rowStart, triangular]

theorem rowStart_dim (triangle : Triangle) (n : Nat) :
    rowStart triangle n n = triangular n := by
  cases triangle with
  | lower => rfl
  | upper => exact rowStart_upper n 0

/-- The segments of the first rows make up the beginning of the buffer. -/
theorem flatMap_segments (triangle : Triangle) {n count : Nat} (le : count ≤ n) :
    (List.range count).flatMap
        (fun row => List.range' (rowStart triangle n row) (rowLength triangle n row)) =
      List.range (rowStart triangle n count) := by
  induction count with
  | zero => simp [rowStart_zero]
  | succ row ih =>
      have next := rowStart_succ triangle n row le
      have length : rowStart triangle n (row + 1) - rowStart triangle n row =
          rowLength triangle n row := by omega
      rw [List.range_succ, List.flatMap_append, ih (by omega), List.flatMap_singleton,
        range_eq_append (show rowStart triangle n row ≤ rowStart triangle n (row + 1) by omega),
        length]

theorem map_position_columns (triangle : Triangle) (n row : Nat) :
    (List.range' (columnSpan triangle n row).1 (rowLength triangle n row)).map
        (position triangle n row) =
      List.range' (rowStart triangle n row) (rowLength triangle n row) := by
  rw [List.range'_eq_map_range, List.range'_eq_map_range, List.map_map]
  refine List.map_congr_left fun index _ => ?_
  simp only [Function.comp_apply, position]
  omega

/-- The stored entries of a row stand in its segment from its first position to its last. -/
theorem positions_row (triangle : Triangle) {n : Nat} (row : Fin n) :
    (((List.finRange n).filterMap fun (col : Fin n) =>
        if inside : triangle.Holds row col then some (row, col, slot triangle row col inside)
        else none).map fun entry => (entry.2.2 : Nat)) =
      List.range' (rowStart triangle n row) (rowLength triangle n row) := by
  have positions : ∀ col : Fin n,
      ((if inside : triangle.Holds row col then some (row, col, slot triangle row col inside)
        else none).map fun entry => (entry.2.2 : Nat)) =
      if triangle.Holds row col then some (position triangle n row col) else none := by
    intro col
    split <;> rfl
  have columns := map_position_columns triangle n row
  rw [← filter_holds_range triangle row.isLt, ← List.map_coe_finRange_eq_range,
    List.filter_map, List.map_map, ← List.filterMap_eq_map, List.filterMap_filter] at columns
  rw [← columns, List.map_filterMap]
  simp only [positions, Function.comp_apply, decide_eq_true_eq]

/-- The positions of the stored entries are all positions in their order. -/
theorem positions_storedEntries (triangle : Triangle) (n : Nat) :
    (storedEntries triangle n).map (fun entry => (entry.2.2 : Nat)) =
      List.range (triangular n) := by
  have rows := flatMap_segments triangle (Nat.le_refl n)
  rw [rowStart_dim, ← List.map_coe_finRange_eq_range, List.flatMap_map] at rows
  rw [storedEntries, List.map_flatMap, ← rows]
  exact congrArg (List.flatMap · (List.finRange n)) (funext (positions_row triangle))

/-! ## Entries and positions -/

def entriesIn (triangle : Triangle) (n : Nat) : Set (Nat × Nat) :=
  {entry | entry.1 < n ∧ entry.2 < n ∧ triangle.Holds entry.1 entry.2}

def positionOf (triangle : Triangle) (n : Nat) (entry : Nat × Nat) : Nat :=
  position triangle n entry.1 entry.2

theorem position_lt_of_col_lt {triangle : Triangle} {n row col col' : Nat} (before : col < col')
    (inside : triangle.Holds row col) :
    position triangle n row col < position triangle n row col' := by
  cases triangle <;> simp only [Triangle.Holds] at inside <;>
    simp only [position, columnSpan] <;> omega

theorem positionOf_lt_of_lex {triangle : Triangle} {n : Nat} {entry entry' : Nat × Nat}
    (mem : entry ∈ entriesIn triangle n) (mem' : entry' ∈ entriesIn triangle n)
    (before : entry.1 < entry'.1 ∨ entry.1 = entry'.1 ∧ entry.2 < entry'.2) :
    positionOf triangle n entry < positionOf triangle n entry' := by
  obtain ⟨row, col⟩ := entry
  obtain ⟨row', col'⟩ := entry'
  rcases before with earlier | ⟨same, left⟩
  · exact position_lt_of_row_lt col' earlier mem'.1 mem.2.1 mem.2.2
  · dsimp only at same left
    subst same
    exact position_lt_of_col_lt left mem.2.2

/-- Of two entries the one in the earlier row stands first, and in one row the
one on the left. -/
theorem positionOf_lt_iff {triangle : Triangle} {n : Nat} {entry entry' : Nat × Nat}
    (mem : entry ∈ entriesIn triangle n) (mem' : entry' ∈ entriesIn triangle n) :
    positionOf triangle n entry < positionOf triangle n entry' ↔
      entry.1 < entry'.1 ∨ entry.1 = entry'.1 ∧ entry.2 < entry'.2 := by
  constructor
  · intro before
    by_contra late
    -- Otherwise the second entry is the first one, or stands before it.
    have order : entry = entry' ∨
        (entry'.1 < entry.1 ∨ entry'.1 = entry.1 ∧ entry'.2 < entry.2) := by
      rw [Prod.ext_iff]
      omega
    rcases order with rfl | after
    · exact absurd before (Nat.lt_irrefl _)
    · exact absurd before (Nat.lt_asymm (positionOf_lt_of_lex mem' mem after))
  · exact positionOf_lt_of_lex mem mem'

theorem bijOn_positionOf (triangle : Triangle) (n : Nat) :
    Set.BijOn (positionOf triangle n) (entriesIn triangle n) (Set.Iio (triangular n)) := by
  refine ⟨?_, ?_, ?_⟩
  · intro entry mem
    exact position_lt mem.1 mem.2.1 mem.2.2
  · intro entry mem entry' mem' same
    have first := positionOf_lt_iff mem mem'
    have second := positionOf_lt_iff mem' mem
    rw [same] at first second
    rw [Prod.ext_iff]
    omega
  · intro place bound
    have listed : place ∈ List.range (triangular n) := List.mem_range.mpr bound
    rw [← positions_storedEntries triangle n, List.mem_map] at listed
    obtain ⟨⟨row, col, slot⟩, stored, same⟩ := listed
    obtain ⟨inside, rfl⟩ := mem_storedEntries.mp stored
    exact ⟨(row, col), ⟨row.isLt, col.isLt, inside⟩, same⟩

theorem exists_slot {n : Nat} (triangle : Triangle) (place : Fin (triangular n)) :
    ∃ (row col : Fin n) (inside : triangle.Holds row col),
      slot triangle row col inside = place := by
  obtain ⟨⟨row, col⟩, ⟨rowBound, colBound, inside⟩, same⟩ :=
    (bijOn_positionOf triangle n).surjOn place.isLt
  exact ⟨⟨row, rowBound⟩, ⟨col, colBound⟩, inside, Fin.ext same⟩

theorem bijOn_segment (triangle : Triangle) {n row : Nat} (bound : row < n) :
    Set.BijOn (position triangle n row)
      (Set.Ico (columnSpan triangle n row).1 (columnSpan triangle n row).2)
      (Set.Ico (rowStart triangle n row) (rowStart triangle n (row + 1))) := by
  have next := rowStart_succ triangle n row bound
  unfold rowLength at next
  refine ⟨?_, ?_, ?_⟩
  · rintro col ⟨first, last⟩
    simp only [Set.mem_Ico, position]
    omega
  · rintro col ⟨first, _⟩ col' ⟨first', _⟩ same
    simp only [position] at same
    omega
  · rintro place ⟨first, last⟩
    refine ⟨(columnSpan triangle n row).1 + (place - rowStart triangle n row), ?_, ?_⟩
    · simp only [Set.mem_Ico]
      omega
    · simp only [position]
      omega

/-- The entries of the triangle stand in the buffer in row-major order, with no
gap and without sharing a position. -/
structure RowMajor (triangle : Triangle) (n : Nat) : Prop where
  /-- Every position is that of one entry. -/
  bijective : Set.BijOn (positionOf triangle n) (entriesIn triangle n)
    (Set.Iio (n * (n + 1) / 2))
  /-- The positions increase with the row, and in a row with the column. -/
  increasing : ∀ entry ∈ entriesIn triangle n, ∀ entry' ∈ entriesIn triangle n,
    (positionOf triangle n entry < positionOf triangle n entry' ↔
      entry.1 < entry'.1 ∨ entry.1 = entry'.1 ∧ entry.2 < entry'.2)
  /-- Going through the stored entries is going through the buffer. -/
  listed : (storedEntries triangle n).map (fun entry => (entry.2.2 : Nat)) =
    List.range (n * (n + 1) / 2)
  /-- The columns of a row are those of its entries. -/
  columns : ∀ row col, row < n →
    ((columnSpan triangle n row).1 ≤ col ∧ col < (columnSpan triangle n row).2 ↔
      (row, col) ∈ entriesIn triangle n)
  /-- They fill the segment from where the row starts to where the next one does. -/
  segments : ∀ row, row < n → Set.BijOn (position triangle n row)
    (Set.Ico (columnSpan triangle n row).1 (columnSpan triangle n row).2)
    (Set.Ico (rowStart triangle n row) (rowStart triangle n (row + 1)))
  /-- The segments begin where the buffer does and end where it does. -/
  ends : rowStart triangle n 0 = 0 ∧ rowStart triangle n n = n * (n + 1) / 2

/-- Either triangle of any dimension is kept in row-major order. -/
theorem triangle_is_row_major (triangle : Triangle) (n : Nat) : RowMajor triangle n where
  bijective := bijOn_positionOf triangle n
  increasing _ mem _ mem' := positionOf_lt_iff mem mem'
  listed := positions_storedEntries triangle n
  columns _ _ bound := (mem_columnSpan bound).trans (and_iff_right bound).symm
  segments _ bound := bijOn_segment triangle bound
  ends := ⟨rowStart_zero triangle n, rowStart_dim triangle n⟩

/-- In the upper triangle of dimension four the rows start at 0, 4, 7 and 9. -/
example : (storedEntries .upper 4).map (fun (row, col, place) => (row.val, col.val, place.val)) =
    [(0, 0, 0), (0, 1, 1), (0, 2, 2), (0, 3, 3), (1, 1, 4), (1, 2, 5), (1, 3, 6),
      (2, 2, 7), (2, 3, 8), (3, 3, 9)] := by decide

end HalfMatrix.Packing
