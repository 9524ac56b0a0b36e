import HalfMatrix.Proofs.Flat.Basic
import HalfMatrix.Proofs.Grids
import HalfMatrix.Proofs.PackedOrder
import Mathlib.Tactic.Ring

/-!
# Flat tables are read and written inside their buffers

The dimension of a table is so small that the position of each of its entries
is computed without leaving the words.  The operations of a flat table that
read, write and copy its entries therefore always give a result, and it is that
of the table.
-/

set_option autoImplicit false

namespace HalfMatrix

/-! ## Words -/

namespace Word

theorem add?_of_lt {left right : Nat} (bound : left + right < modulus) :
    add? left right = some (left + right) := if_pos bound

theorem sub?_of_le {left right : Nat} (le : right ≤ left) :
    sub? left right = some (left - right) := if_pos le

theorem mul?_of_lt {left right : Nat} (bound : left * right < modulus) :
    mul? left right = some (left * right) := if_pos bound

theorem span?_of_lt {start count : Nat} (bound : start + count < modulus) :
    span? start count = some (List.range' start count) := by
  have length : start + count - start = count := by omega
  simp only [span?, add?_of_lt bound, length, Option.bind_eq_bind, Option.bind_some,
    Option.pure_def]

theorem offset?_of_lt {rows width row col : Nat} (fits : rows * width < modulus)
    (rowBound : row < rows) (colBound : col < width) :
    offset? row width col = some (row * width + col) := by
  have below := Grid.offset_lt rowBound colBound
  have product : row * width < modulus := by omega
  have sum : row * width + col < modulus := by omega
  simp only [offset?, mul?_of_lt product, Option.bind_eq_bind, Option.bind_some, add?_of_lt sum]

end Word

/-! ## Positions -/

namespace Packing

variable {n : Nat}

theorem dim_lt (fits : n * (n + 1) < Word.modulus) : n < 2 ^ 32 := by
  apply Nat.lt_of_not_le
  intro large
  have product : 2 ^ 32 * 2 ^ 32 ≤ n * (n + 1) := Nat.mul_le_mul large (by omega)
  have modulus : Word.modulus = 2 ^ 32 * 2 ^ 32 := rfl
  omega

theorem square_lt_modulus (fits : n * (n + 1) < Word.modulus) : n * n < Word.modulus :=
  Nat.lt_of_le_of_lt (Nat.mul_le_mul_left n (Nat.le_succ n)) fits

theorem rowStart?_eq (fits : n * (n + 1) < Word.modulus) (triangle : Triangle) {row : Nat}
    (rowBound : row < n) : rowStart? triangle n row = some (rowStart triangle n row) := by
  have small := dim_lt fits
  have modulus : Word.modulus = 2 ^ 64 := rfl
  cases triangle with
  | lower =>
      have product : row * (row + 1) ≤ n * (n + 1) :=
        Nat.mul_le_mul (Nat.le_of_lt rowBound) (by omega)
      exact size?_eq_some_iff.mpr ⟨Nat.lt_of_le_of_lt product fits, rfl⟩
  | upper =>
      have product : row * (2 * n - row + 1) < Word.modulus := by
        obtain ⟨k, rfl⟩ := Nat.exists_eq_add_of_le (Nat.le_of_lt rowBound)
        have length : 2 * (row + k) - row + 1 = row + 1 + 2 * k := by omega
        have split : row * (row + 1 + 2 * k) + k * (k + 1) = (row + k) * (row + k + 1) := by ring
        rw [length]
        omega
      have double : 2 * n < Word.modulus := by omega
      have length : 2 * n - row + 1 < Word.modulus := by omega
      simp only [rowStart?, Option.bind_eq_bind, Option.pure_def, Word.mul?_of_lt double,
        Option.bind_some, Word.sub?_of_le (show row ≤ 2 * n by omega), Word.add?_of_lt length,
        Word.mul?_of_lt product, rowStart]

theorem position?_eq (fits : n * (n + 1) < Word.modulus) {triangle : Triangle} {row col : Nat}
    (rowBound : row < n) (colBound : col < n) (inside : triangle.Holds row col) :
    position? triangle n row col = some (position triangle n row col) := by
  have below := position_lt rowBound colBound inside
  have half : triangular n ≤ n * (n + 1) := Nat.div_le_self _ _
  have word : position triangle n row col < Word.modulus := by omega
  simp only [position?, if_pos inside, rowStart?_eq fits triangle rowBound, Option.bind_eq_bind,
    Option.bind_some]
  cases triangle with
  | lower => exact Word.add?_of_lt word
  | upper =>
      simp only [Word.sub?_of_le (show row ≤ col from inside), Option.bind_some]
      exact Word.add?_of_lt word

theorem storedCols?_eq (fits : n * (n + 1) < Word.modulus) (triangle : Triangle) (row : Fin n) :
    storedCols? triangle n row =
      some (((List.finRange n).filter fun col : Fin n => triangle.Holds row col).map Fin.val) := by
  have cols : ((List.finRange n).filter fun col : Fin n => triangle.Holds row col).map Fin.val =
      (List.range n).filter fun col => triangle.Holds row col := by
    rw [← List.map_coe_finRange_eq_range, List.filter_map]
    rfl
  rw [cols, filter_holds_range triangle row.isLt]
  cases triangle with
  | lower =>
      have small := dim_lt fits
      have modulus : Word.modulus = 2 ^ 64 := rfl
      have stop : row + 1 < Word.modulus := by omega
      simp only [storedCols?, Word.add?_of_lt stop, Option.bind_eq_bind, Option.bind_some,
        Option.pure_def, List.range_eq_range']
      rfl
  | upper => rfl

end Packing

theorem mapM_eq_some {ι β : Type} (items : List ι) {compute : ι → Option β} {result : ι → β}
    (each : ∀ item ∈ items, compute item = some (result item)) :
    items.mapM compute = some (items.map result) := by
  induction items with
  | nil => rfl
  | cons item items ih =>
      have first := each item List.mem_cons_self
      have others := ih fun other mem => each other (List.mem_cons_of_mem item mem)
      simp only [List.mapM_cons, first, others, Option.bind_eq_bind, Option.bind_some,
        Option.pure_def, List.map_cons]

/-! ## Grids -/

namespace Grid

variable {α : Type} {rows cols : Nat}

theorem cell?_toArray (grid : Grid α rows cols) (fits : rows * cols < Word.modulus)
    (row : Fin rows) (col : Fin cols) :
    cell? grid.toArray row cols col = some (grid.entry row col) := by
  have offset := Word.offset?_of_lt fits row.isLt col.isLt
  have inside := offset_lt row.isLt col.isLt
  rw [cell?, offset]
  simp [entry, Grid.offset, inside]

end Grid

namespace Table

variable {α : Type} {n : Nat}

/-! ## Single entries -/

theorem read?_flat (table : Table α n) {row col : Fin n}
    (inside : table.triangle.Holds row col) :
    table.flat.read? row col =
      some (table.entries.get (Packing.slot table.triangle row col inside)) := by
  have place := Packing.position?_eq table.fits row.isLt col.isLt inside
  have bound := Packing.position_lt row.isLt col.isLt inside
  simp only [FlatTable.read?, flat_triangle, flat_dim, flat_entries, place, Option.bind_eq_bind,
    Option.bind_some]
  simp [Packing.slot, Vector.get, bound]

def withWrites (table : Table α n) (writes : List (Fin (Packing.triangular n) × α)) :
    Table α n :=
  { table with entries := store table.entries writes }

theorem withWrites_append (table : Table α n)
    (writes later : List (Fin (Packing.triangular n) × α)) :
    table.withWrites (writes ++ later) = (table.withWrites writes).withWrites later := by
  simp only [withWrites, store, List.foldl_append]

theorem write?_flat (table : Table α n) {row col : Fin n}
    (inside : table.triangle.Holds row col) (value : α) :
    table.flat.write? row col value =
      some (table.withWrites [(Packing.slot table.triangle row col inside, value)]).flat := by
  have place := Packing.position?_eq table.fits row.isLt col.isLt inside
  have bound := Packing.position_lt row.isLt col.isLt inside
  simp only [FlatTable.write?, flat, place, Option.bind_eq_bind, Option.bind_some]
  simp [withWrites, store, Packing.slot, bound]

/-! ## Loops that write -/

/-- A loop each of whose turns comes down to some writes comes down to all of them. -/
theorem foldlM_flat {ι : Type} {items : List ι}
    {turn : FlatTable α → ι → Option (FlatTable α)}
    {writes : ι → List (Fin (Packing.triangular n) × α)} (table : Table α n)
    (each : ∀ item ∈ items, ∀ held : Table α n, held.fill = table.fill →
      held.triangle = table.triangle →
      turn held.flat item = some (held.withWrites (writes item)).flat) :
    items.foldlM turn table.flat = some (table.withWrites (items.flatMap writes)).flat := by
  induction items generalizing table with
  | nil => rfl
  | cons item items ih =>
      have first := each item List.mem_cons_self table rfl rfl
      have others := ih (table.withWrites (writes item)) fun other mem held fill triangle =>
        each other (List.mem_cons_of_mem item mem) held fill triangle
      rw [List.foldlM_cons, first, Option.bind_eq_bind, Option.bind_some, others,
        List.flatMap_cons, withWrites_append]

theorem foldlM_flat_filterMap {ι : Type} {items : List ι}
    {turn : FlatTable α → ι → Option (FlatTable α)}
    {write : ι → Option (Fin (Packing.triangular n) × α)} (table : Table α n)
    (each : ∀ item ∈ items, ∀ held : Table α n, held.fill = table.fill →
      held.triangle = table.triangle →
      turn held.flat item = some (held.withWrites (write item).toList).flat) :
    items.foldlM turn table.flat = some (table.withWrites (items.filterMap write)).flat := by
  rw [List.filterMap_eq_flatMap_toList]
  exact table.foldlM_flat each

def rowWrites {ι : Type} (triangle : Triangle) (indices : List ι) (row : ι → Fin n)
    (value : ι → Fin n → α) : List (Fin (Packing.triangular n) × α) :=
  indices.flatMap fun index => (List.finRange n).filterMap fun (col : Fin n) =>
    if inside : triangle.Holds (row index) col then
      some (Packing.slot triangle (row index) col inside, value index col)
    else none

theorem fillRows?_flat {ι : Type} (table : Table α n) (indices : List ι) (row : ι → Fin n)
    {value? : Nat → Nat → Option α} {value : ι → Fin n → α}
    (known : ∀ index ∈ indices, ∀ col : Fin n, table.triangle.Holds (row index) col →
      value? (row index) col = some (value index col)) :
    table.flat.fillRows? (indices.map fun index => (row index : Nat)) value? =
      some (table.withWrites (rowWrites table.triangle indices row value)).flat := by
  rw [FlatTable.fillRows?, List.foldlM_map]
  apply foldlM_flat
  intro index mem held fill triangle
  have cols := Packing.storedCols?_eq held.fits held.triangle (row index)
  simp only [flat, cols, Option.bind_eq_bind, Option.bind_some, List.foldlM_map,
    List.foldlM_filter]
  apply foldlM_flat_filterMap
  intro col _ held' _ triangle'
  rw [triangle] at triangle'
  by_cases inside : table.triangle.Holds (row index) col
  · have inside' : held'.triangle.Holds (row index) col := triangle' ▸ inside
    have written := held'.write?_flat inside' (value index col)
    rw [triangle, if_pos (decide_eq_true inside), known index mem col inside, dif_pos inside,
      Option.bind_some]
    simp only [triangle'] at written
    exact written
  · rw [triangle, if_neg (by simpa using inside), dif_neg inside]
    rfl

theorem rowWrites_finRange (triangle : Triangle) (value : Fin n → Fin n → α) :
    rowWrites triangle (List.finRange n) id value =
      (Packing.storedEntries triangle n).map fun (row, col, position) =>
        (position, value row col) := by
  rw [rowWrites, Packing.storedEntries, List.map_flatMap]
  refine congrArg (List.flatMap · (List.finRange n)) (funext fun row => ?_)
  rw [List.map_filterMap]
  refine congrArg (List.filterMap · (List.finRange n)) (funext fun col => ?_)
  by_cases inside : triangle.Holds row col
  · rw [dif_pos inside]
    simp only [id, dif_pos inside, Option.map_some]
  · rw [dif_neg inside]
    simp only [id, dif_neg inside, Option.map_none]

/-! ## Reading and writing -/

theorem locate_cases (table : Table α n) (row col : Nat) :
    (∃ error, locate n row col = .error error ∧ table.flat.misplaced? row col = some error) ∨
      ∃ row' col' : Fin n, row = row' ∧ col = col' ∧ locate n row col = .ok (row', col') ∧
        table.flat.misplaced? row col = none := by
  unfold FlatTable.misplaced? locate
  rw [flat_dim]
  by_cases rowBound : row < n
  · by_cases colBound : col < n
    · refine Or.inr ⟨⟨row, rowBound⟩, ⟨col, colBound⟩, rfl, rfl, ?_, ?_⟩
      · rw [dif_pos rowBound, dif_pos colBound]
      · rw [if_neg (Nat.not_le.mpr rowBound), if_neg (Nat.not_le.mpr colBound)]
    · refine Or.inl ⟨.outOfRange .column col n, ?_, ?_⟩
      · rw [dif_pos rowBound, dif_neg colBound]
      · rw [if_neg (Nat.not_le.mpr rowBound)]
        exact if_pos (Nat.not_lt.mp colBound)
  · refine Or.inl ⟨.outOfRange .row row n, ?_, ?_⟩
    · rw [dif_neg rowBound]
    · exact if_pos (Nat.not_lt.mp rowBound)

theorem set?_flat (table : Table α n) (row col : Nat) (value : α) :
    table.flat.set? row col value = some ((table.set row col value).map flat) := by
  rcases table.locate_cases row col with
    ⟨error, located, refused⟩ | ⟨row, col, rfl, rfl, located, admitted⟩
  · simp only [FlatTable.set?, refused, set, located, bind, Except.bind, Except.map]
  · simp only [FlatTable.set?, admitted, set, located, bind, Except.bind]
    by_cases inside : table.triangle.Holds row col
    · have homed : table.home row col = some (Packing.slot table.triangle row col inside) :=
        Packing.home_of_holds inside
      rw [flat_triangle, if_pos inside, table.write?_flat inside, homed]
      rfl
    · have homed : table.home row col = if table.fill = .symmetric then
          some (Packing.slot table.triangle col row (Triangle.holds_transpose inside))
        else none := Packing.home_of_not_holds inside
      rw [flat_triangle, if_neg inside, flat_fill, homed]
      by_cases symmetric : table.fill = .symmetric
      · rw [if_pos symmetric, if_pos symmetric,
          table.write?_flat (Triangle.holds_transpose inside)]
        rfl
      · have index := Word.offset?_of_lt (Packing.square_lt_modulus table.fits) row.isLt col.isLt
        rw [if_neg symmetric, if_neg symmetric, flat_dim, index]
        rfl

theorem setAll_flat (table : Table α n) (value : α) :
    table.flat.setAll value = (table.setAll value).flat := by
  simp [FlatTable.setAll, setAll, flat]

section Reading

variable [Zero α]

theorem value?_flat (table : Table α n) (row col : Fin n) :
    table.flat.value? row col = some (table.entry row col) := by
  by_cases inside : table.triangle.Holds row col
  · have homed : table.home row col = some (Packing.slot table.triangle row col inside) :=
      Packing.home_of_holds inside
    rw [FlatTable.value?, flat_triangle, if_pos inside, table.read?_flat inside, entry, homed]
    rfl
  · have homed : table.home row col = if table.fill = .symmetric then
        some (Packing.slot table.triangle col row (Triangle.holds_transpose inside))
      else none := Packing.home_of_not_holds inside
    rw [FlatTable.value?, flat_triangle, if_neg inside, flat_fill, entry, homed]
    by_cases symmetric : table.fill = .symmetric
    · rw [if_pos symmetric, if_pos symmetric, table.read?_flat (Triangle.holds_transpose inside)]
      rfl
    · rw [if_neg symmetric, if_neg symmetric]

theorem get?_flat (table : Table α n) (row col : Nat) :
    table.flat.get? row col = some (table.get row col) := by
  rcases table.locate_cases row col with
    ⟨error, located, refused⟩ | ⟨row, col, rfl, rfl, located, admitted⟩
  · simp only [FlatTable.get?, refused, get, located, bind, Except.bind]
  · simp only [FlatTable.get?, admitted, get, located, bind, Except.bind, table.value?_flat]
    rfl

theorem values?_flat (table : Table α n) {ι κ : Type} (rows : List ι) (cols : List κ)
    (row : ι → Fin n) (col : κ → Fin n) :
    table.flat.values? (rows.map fun i => (row i : Nat)) (cols.map fun j => (col j : Nat)) =
      some (rows.flatMap fun i => cols.map fun j => table.entry (row i) (col j)) := by
  have pairs : (rows.map fun i => (row i : Nat)).product (cols.map fun j => (col j : Nat)) =
      (rows.product cols).map fun place => ((row place.1 : Nat), (col place.2 : Nat)) := by
    simp only [List.product, List.flatMap_map, List.map_flatMap, List.map_map]
    rfl
  have shown : (rows.product cols).mapM (fun place : ι × κ =>
      table.flat.value? (row place.1) (col place.2)) =
        some ((rows.product cols).map fun place => table.entry (row place.1) (col place.2)) :=
    mapM_eq_some _ fun place _ => table.value?_flat _ _
  rw [FlatTable.values?, pairs, List.mapM_map]
  simp only [Function.comp_def]
  rw [shown]
  simp only [List.product, List.map_flatMap, List.map_map, Function.comp_def]

theorem dense?_flat (table : Table α n) : table.flat.dense? = some table.toGrid.toList := by
  have rows : List.range n = (List.finRange n).map fun i : Fin n => (i : Nat) :=
    List.map_coe_finRange_eq_range.symm
  have shown := table.values?_flat (List.finRange n) (List.finRange n) id id
  simp only [id] at shown
  rw [FlatTable.dense?, toGrid, Grid.toList_ofFn, ← shown, ← rows]
  rfl

/-! ## Making tables -/

theorem zeros?_flat (fill : Fill) (triangle : Triangle) (fits : n * (n + 1) < Word.modulus) :
    FlatTable.zeros? fill triangle n = some (zeroed fill triangle n fits : Table α n).flat := by
  have size : Packing.size? n = some (Packing.triangular n) :=
    Packing.size?_eq_some_iff.mpr ⟨fits, rfl⟩
  simp only [FlatTable.zeros?, size, zeroed, flat, Option.bind_eq_bind, Option.bind_some,
    Option.pure_def, Vector.replicate]

theorem fillRows?_blank (fill : Fill) (triangle : Triangle) (fits : n * (n + 1) < Word.modulus)
    (value? : Nat → Nat → Option α) (value : Fin n → Fin n → α)
    (known : ∀ row col : Fin n, triangle.Holds row col → value? row col = some (value row col)) :
    (zeroed fill triangle n fits : Table α n).flat.fillRows? (List.range n) value? =
      some ((zeroed fill triangle n fits).withWrites
        ((Packing.storedEntries triangle n).map fun (row, col, position) =>
          (position, value row col))).flat := by
  have filled := (zeroed fill triangle n fits : Table α n).fillRows?_flat (List.finRange n) id
    fun row _ col inside => known row col inside
  simp only [id] at filled
  rw [List.map_coe_finRange_eq_range] at filled
  rw [filled, ← rowWrites_finRange]
  rfl

theorem toTriangle?_flat (table : Table α n) (target : Triangle) :
    table.flat.toTriangle? target = some (table.toTriangle target).flat := by
  by_cases same : target = table.triangle
  · rw [FlatTable.toTriangle?, toTriangle, flat_triangle, if_pos same, if_pos same]
    rfl
  · have other : table.triangle = target.opposite := Triangle.eq_opposite_of_ne same
    have known : ∀ row col : Fin n, target.Holds row col →
        table.flat.read? col row = some (table.entry col row) := by
      intro row col inside
      have inside' : table.triangle.Holds col row := by
        rw [other]
        exact Triangle.holds_opposite.mpr inside
      have shown := table.value?_flat col row
      rw [FlatTable.value?, flat_triangle, if_pos inside'] at shown
      exact shown
    have filled := fillRows?_blank table.fill target table.fits
      (fun row col => table.flat.read? col row) (fun row col => table.entry col row) known
    rw [FlatTable.toTriangle?, toTriangle, flat_triangle, if_neg same, if_neg same, flat_fill,
      flat_dim, zeros?_flat table.fill target table.fits]
    exact filled

theorem ofGrid?_flat (fill : Fill) (triangle : Triangle) (n : Nat) (dense : Array α) :
    FlatTable.ofGrid? fill triangle n dense =
      some ((ofGrid fill triangle n dense : Except TableError (Table α n)).map flat) := by
  unfold ofGrid
  split
  · rename_i square
    split
    rename_i length bound
    have fits := Packing.fits_of_square (length ▸ bound)
    let grid : Grid α n n := ⟨dense, length.symm⟩
    have filled := fillRows?_blank fill triangle fits (fun row col => Grid.cell? dense row n col)
      (fun row col => grid.entry row col)
      fun row col _ => grid.cell?_toArray (length ▸ bound) row col
    rw [FlatTable.ofGrid?, if_pos square, zeros?_flat fill triangle fits]
    exact congrArg (Option.bind · fun made => some (Except.ok made)) filled
  · rename_i other
    rw [FlatTable.ofGrid?, if_neg other]
    rfl

end Reading

/-! ## Showing -/

theorem display?_flat {precision : Precision} (table : Table (Binary precision) n) :
    table.flat.display? = some table.display := by
  have shownRow : ∀ row : Fin n, (List.range n).mapM (fun col => table.flat.value? row col) =
      some ((List.finRange n).map fun col => table.entry row col) := by
    intro row
    rw [← List.map_coe_finRange_eq_range, List.mapM_map]
    exact mapM_eq_some _ fun col _ => table.value?_flat row col
  have shown : (List.range n).mapM (fun row =>
      (List.range n).mapM fun col => table.flat.value? row col) = some table.toGrid.toRows := by
    rw [toGrid, Grid.toRows_ofFn]
    conv => lhs; arg 2; rw [← List.map_coe_finRange_eq_range]
    rw [List.mapM_map]
    exact mapM_eq_some _ fun row _ => shownRow row
  rw [FlatTable.display?, flat_dim, shown]
  rfl

end Table

end HalfMatrix
