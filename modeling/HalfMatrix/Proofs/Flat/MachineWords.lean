import HalfMatrix.Proofs.Documents.Accepted
import HalfMatrix.Proofs.Flat.Lending

/-!
# Positions on machine words

Machine words wrap around without notice.  Where the checked computation of a
position gives a result, machine words give the same one, since no step of it
has wrapped around.  A dimension is only taken if `n * (n + 1)` is a word, and
then every position, offset and size in a table of this dimension is checked to
be what it is on whole numbers.
-/

set_option autoImplicit false

namespace HalfMatrix

/-! ## Checked and unchecked words -/

namespace Word

theorem toNat_add_of_add? {left right : UInt64} {sum : Nat}
    (checked : add? left.toNat right.toNat = some sum) : (left + right).toNat = sum := by
  obtain ⟨rfl, bound⟩ := add?_eq_some_iff.mp checked
  rw [UInt64.toNat_add]
  exact Nat.mod_eq_of_lt bound

theorem toNat_sub_of_sub? {left right : UInt64} {difference : Nat}
    (checked : sub? left.toNat right.toNat = some difference) :
    (left - right).toNat = difference := by
  have split := sub?_eq_some_iff.mp checked
  have le : right ≤ left := UInt64.le_iff_toNat_le.mpr (by omega)
  rw [UInt64.toNat_sub_of_le left right le]
  omega

theorem toNat_mul_of_mul? {left right : UInt64} {product : Nat}
    (checked : mul? left.toNat right.toNat = some product) : (left * right).toNat = product := by
  obtain ⟨rfl, bound⟩ := mul?_eq_some_iff.mp checked
  rw [UInt64.toNat_mul]
  exact Nat.mod_eq_of_lt bound

theorem toNat_half (word : UInt64) : (word >>> 1).toNat = word.toNat / 2 := by
  rw [UInt64.toNat_shiftRight]
  exact Nat.shiftRight_eq_div_pow word.toNat 1

def wrappedOffset (row width col : UInt64) : UInt64 := row * width + col

theorem toNat_wrappedOffset {row width col : UInt64} {offset : Nat}
    (checked : offset? row.toNat width.toNat col.toNat = some offset) :
    (wrappedOffset row width col).toNat = offset := by
  obtain ⟨before, product, sum⟩ := Option.bind_eq_some_iff.mp checked
  rw [← toNat_mul_of_mul? product] at sum
  exact toNat_add_of_add? sum

/-- No step of the checked computation leaves the words, and it gives the
number `exact`, as machine words do. -/
structure Exact (checked? : Option Nat) (word : UInt64) (exact : Nat) : Prop where
  checked : checked? = some exact
  word : word.toNat = exact

end Word

namespace Packing

def wrappedSize (rows : UInt64) : UInt64 := (rows * (rows + 1)) >>> 1

def wrappedRowStart : Triangle → UInt64 → UInt64 → UInt64
  | .lower, _, row => wrappedSize row
  | .upper, n, row => (row * (2 * n - row + 1)) >>> 1

def wrappedPosition : Triangle → UInt64 → UInt64 → UInt64 → UInt64
  | .lower, n, row, col => wrappedRowStart .lower n row + col
  | .upper, n, row, col => wrappedRowStart .upper n row + (col - row)

theorem toNat_wrappedSize {rows : UInt64} {size : Nat} (checked : size? rows.toNat = some size) :
    (wrappedSize rows).toNat = size := by
  obtain ⟨next, sum, checked⟩ := Option.bind_eq_some_iff.mp checked
  obtain ⟨product, times, half⟩ := Option.bind_eq_some_iff.mp checked
  cases half
  have sum' : (rows + 1).toNat = next := Word.toNat_add_of_add? sum
  rw [← sum'] at times
  rw [wrappedSize, Word.toNat_half, Word.toNat_mul_of_mul? times]

theorem toNat_wrappedRowStart {triangle : Triangle} {n row : UInt64} {first : Nat}
    (checked : rowStart? triangle n.toNat row.toNat = some first) :
    (wrappedRowStart triangle n row).toNat = first := by
  cases triangle with
  | lower => exact toNat_wrappedSize checked
  | upper =>
      obtain ⟨double, twice, checked⟩ := Option.bind_eq_some_iff.mp checked
      obtain ⟨rest, difference, checked⟩ := Option.bind_eq_some_iff.mp checked
      obtain ⟨length, sum, checked⟩ := Option.bind_eq_some_iff.mp checked
      obtain ⟨product, times, half⟩ := Option.bind_eq_some_iff.mp checked
      cases half
      have twice' : (2 * n).toNat = double := Word.toNat_mul_of_mul? twice
      rw [← twice'] at difference
      rw [← Word.toNat_sub_of_sub? difference] at sum
      have sum' : (2 * n - row + 1).toNat = length := Word.toNat_add_of_add? sum
      rw [← sum'] at times
      rw [wrappedRowStart, Word.toNat_half, Word.toNat_mul_of_mul? times]

theorem toNat_wrappedPosition {triangle : Triangle} {n row col : UInt64} {place : Nat}
    (checked : position? triangle n.toNat row.toNat col.toNat = some place) :
    (wrappedPosition triangle n row col).toNat = place := by
  unfold position? at checked
  split at checked
  · obtain ⟨first, start, checked⟩ := Option.bind_eq_some_iff.mp checked
    rw [← toNat_wrappedRowStart start] at checked
    cases triangle with
    | lower => exact Word.toNat_add_of_add? checked
    | upper =>
        obtain ⟨along, difference, sum⟩ := Option.bind_eq_some_iff.mp checked
        rw [← Word.toNat_sub_of_sub? difference] at sum
        exact Word.toNat_add_of_add? sum
  · cases checked

end Packing

/-! ## The dimensions that are taken -/

namespace Table

variable {α : Type} {n : Nat} {fill : Fill} {triangle : Triangle} {data : Array α}

theorem exists_ofPacked_iff :
    (∃ table : Table α n, ofPacked fill triangle n data = .ok table) ↔
      n * (n + 1) < Word.modulus ∧ data.size = Packing.triangular n := by
  rw [← Packing.size?_eq_some_iff]
  unfold ofPacked
  by_cases accepted : Packing.size? n = some data.size
  · simp [accepted]
  · simp [accepted]

theorem exists_ofGrid_iff [Zero α] (word : data.size < Word.modulus) :
    (∃ table : Table α n, ofGrid fill triangle n data = .ok table) ↔ data.size = n * n := by
  have square : Word.mul? n n = some data.size ↔ data.size = n * n := by
    rw [Word.mul?_eq_some_iff, and_iff_left word]
    exact eq_comm
  rw [← square]
  unfold ofGrid
  by_cases accepted : Word.mul? n n = some data.size
  · rw [dif_pos accepted]
    split
    exact iff_of_true ⟨_, rfl⟩ accepted
  · simp [accepted]

end Table

theorem Document.exists_loadTable_iff {precision : Precision} {fill : Fill} {text : String}
    {record : TableRecord precision}
    (found : Json.readDocument (readTableRecord precision) text = .ok record)
    (named : record.fill = fill.name) :
    (∃ loaded, loadTable precision fill text = .ok loaded) ↔
      record.dim * (record.dim + 1) < Word.modulus ∧
        record.entries.length = Packing.triangular record.dim := by
  have packed : (∃ table : Table (Binary precision) record.dim,
      Table.ofPacked fill record.triangle record.dim record.entries.toArray = .ok table) ↔ _ :=
    Table.exists_ofPacked_iff
  rw [List.size_toArray] at packed
  rw [← packed, loadTable_of_record found, if_pos named]
  cases Table.ofPacked fill record.triangle record.dim record.entries.toArray <;>
    simp [Except.mapError, Except.map]

/-! ## Exact positions -/

section Exact

variable {n row col : UInt64} (fits : n.toNat * (n.toNat + 1) < Word.modulus)
include fits

theorem Packing.exact_size {rows : UInt64} (bound : rows ≤ n) :
    Word.Exact (size? rows.toNat) (wrappedSize rows) (triangular rows.toNat) := by
  have le : rows.toNat ≤ n.toNat := UInt64.le_iff_toNat_le.mp bound
  have product := Nat.mul_le_mul le (Nat.succ_le_succ le)
  have checked := size?_eq_some_iff.mpr ⟨Nat.lt_of_le_of_lt product fits, rfl⟩
  exact ⟨checked, toNat_wrappedSize checked⟩

theorem Packing.exact_rowStart (triangle : Triangle) (rowBound : row < n) :
    Word.Exact (rowStart? triangle n.toNat row.toNat) (wrappedRowStart triangle n row)
      (rowStart triangle n.toNat row.toNat) := by
  have checked := rowStart?_eq fits triangle (UInt64.lt_iff_toNat_lt.mp rowBound)
  exact ⟨checked, toNat_wrappedRowStart checked⟩

theorem Packing.exact_position {triangle : Triangle} (rowBound : row < n) (colBound : col < n)
    (inside : triangle.Holds row.toNat col.toNat) :
    Word.Exact (position? triangle n.toNat row.toNat col.toNat)
      (wrappedPosition triangle n row col) (position triangle n.toNat row.toNat col.toNat) := by
  have checked := position?_eq fits (UInt64.lt_iff_toNat_lt.mp rowBound)
    (UInt64.lt_iff_toNat_lt.mp colBound) inside
  exact ⟨checked, toNat_wrappedPosition checked⟩

theorem Word.exact_offset (rowBound : row < n) (colBound : col < n) :
    Exact (offset? row.toNat n.toNat col.toNat) (wrappedOffset row n col)
      (row.toNat * n.toNat + col.toNat) := by
  have checked := offset?_of_lt (Packing.square_lt_modulus fits)
    (UInt64.lt_iff_toNat_lt.mp rowBound) (UInt64.lt_iff_toNat_lt.mp colBound)
  exact ⟨checked, toNat_wrappedOffset checked⟩

theorem Region.exact_size {region : Region} (within : region.Within n.toNat) :
    Word.Exact (Word.mul? region.count (region.width n.toNat))
      (UInt64.ofNat region.count * UInt64.ofNat (region.width n.toNat))
      (region.count * region.width n.toNat) := by
  have count : region.count < Word.modulus :=
    Nat.lt_of_le_of_lt (Nat.le_add_left _ _) (stop_lt fits within)
  have width : region.width n.toNat < Word.modulus := by
    cases region with
    | rows start count => exact n.toNat_lt
    | column own start count => exact (show 1 < Word.modulus by decide)
  have checked := Word.mul?_of_lt (size_lt fits within)
  refine ⟨checked, Word.toNat_mul_of_mul? ?_⟩
  rw [UInt64.toNat_ofNat_of_lt' count, UInt64.toNat_ofNat_of_lt' width]
  exact checked

theorem Table.set?_flat_of_unstored {α : Type} {table : Table α n.toNat}
    (triangular : table.fill = .triangular) (rowBound : row < n) (colBound : col < n)
    (outside : ¬ table.triangle.Holds row.toNat col.toNat) (value : α) :
    table.flat.set? row.toNat col.toNat value =
      some (.error (.outOfRange .element (Word.wrappedOffset row n col).toNat n.toNat)) := by
  have index := Word.exact_offset fits rowBound colBound
  have admitted : table.flat.misplaced? row.toNat col.toNat = none := by
    rw [FlatTable.misplaced?, flat_dim,
      if_neg (Nat.not_le.mpr (UInt64.lt_iff_toNat_lt.mp rowBound)),
      if_neg (Nat.not_le.mpr (UInt64.lt_iff_toNat_lt.mp colBound))]
  simp only [FlatTable.set?, admitted, flat_triangle, flat_fill, flat_dim, if_neg outside,
    triangular, reduceCtorEq, if_false, index.checked, index.word, Option.bind_eq_bind,
    Option.bind_some, Option.pure_def]

end Exact

structure ExactPositions (n : UInt64) : Prop where
  size : ∀ rows : UInt64, rows ≤ n →
    Word.Exact (Packing.size? rows.toNat) (Packing.wrappedSize rows)
      (rows.toNat * (rows.toNat + 1) / 2)
  rowStart : ∀ (triangle : Triangle) (row : UInt64), row < n →
    Word.Exact (Packing.rowStart? triangle n.toNat row.toNat)
      (Packing.wrappedRowStart triangle n row) (Packing.rowStart triangle n.toNat row.toNat)
  position : ∀ (triangle : Triangle) (row col : UInt64), row < n → col < n →
    triangle.Holds row.toNat col.toNat →
      Word.Exact (Packing.position? triangle n.toNat row.toNat col.toNat)
        (Packing.wrappedPosition triangle n row col)
        (Packing.position triangle n.toNat row.toNat col.toNat)
  offset : ∀ row col : UInt64, row < n → col < n →
    Word.Exact (Word.offset? row.toNat n.toNat col.toNat) (Word.wrappedOffset row n col)
      (row.toNat * n.toNat + col.toNat)
  /-- The number of entries of a view. -/
  view : ∀ region : Region, region.Within n.toNat →
    Word.Exact (Word.mul? region.count (region.width n.toNat))
      (UInt64.ofNat region.count * UInt64.ofNat (region.width n.toNat))
      (region.count * region.width n.toNat)
  /-- Getting and setting entries computes no other positions than those. -/
  access : ∀ {α : Type} [Zero α] (table : Table α n.toNat) (row col : Nat) (value : α),
    table.flat.get? row col = some (table.get row col) ∧
      table.flat.set? row col value = some ((table.set row col value).map Table.flat)
  /-- The index by which a write to an entry that is not stored is refused. -/
  element : ∀ {α : Type} (table : Table α n.toNat) (row col : UInt64) (value : α),
    table.fill = .triangular → row < n → col < n →
      ¬ table.triangle.Holds row.toNat col.toNat →
        table.flat.set? row.toNat col.toNat value =
          some (.error (.outOfRange .element (Word.wrappedOffset row n col).toNat n.toNat))

theorem ExactPositions.of_fits {n : UInt64} (fits : n.toNat * (n.toNat + 1) < Word.modulus) :
    ExactPositions n where
  size _ bound := Packing.exact_size fits bound
  rowStart triangle _ rowBound := Packing.exact_rowStart fits triangle rowBound
  position _ _ _ rowBound colBound inside :=
    Packing.exact_position fits rowBound colBound inside
  offset _ _ rowBound colBound := Word.exact_offset fits rowBound colBound
  view _ within := Region.exact_size fits within
  access table row col value := ⟨table.get?_flat row col, table.set?_flat row col value⟩
  element _ _ _ value triangular rowBound colBound outside :=
    Table.set?_flat_of_unstored fits triangular rowBound colBound outside value

/-- The dimension `n` is judged by whole numbers and used by machine words, and
the two never differ. -/
structure TakesExactly (precision : Precision) (fill : Fill) (triangle : Triangle)
    (n : UInt64) : Prop where
  /-- Packed entries are taken if they are as many as the triangle has. -/
  packed : ∀ data : Array (Binary precision),
    (∃ table : Table (Binary precision) n.toNat,
        Table.ofPacked fill triangle n.toNat data = .ok table) ↔
      n.toNat * (n.toNat + 1) < 2 ^ 64 ∧ data.size = n.toNat * (n.toNat + 1) / 2
  /-- So are those of a document. -/
  document : ∀ (text : String) (record : Document.TableRecord precision),
    Json.readDocument (Document.readTableRecord precision) text = .ok record →
      record.fill = fill.name → record.dim = n.toNat →
        ((∃ loaded, Document.loadTable precision fill text = .ok loaded) ↔
          n.toNat * (n.toNat + 1) < 2 ^ 64 ∧
            record.entries.length = n.toNat * (n.toNat + 1) / 2)
  /-- A dense buffer, whose length is a word, is taken if it is a square. -/
  dense : ∀ data : Array (Binary precision), data.size < 2 ^ 64 →
    ((∃ table : Table (Binary precision) n.toNat,
        Table.ofGrid fill triangle n.toNat data = .ok table) ↔ data.size = n.toNat * n.toNat)
  /-- The zero table that is filled from it can then be made. -/
  blank : ∀ data : Array (Binary precision), data.size < 2 ^ 64 →
    data.size = n.toNat * n.toNat →
      ∃ zeros made : Table (Binary precision) n.toNat,
        Table.zeros fill triangle n.toNat = .ok zeros ∧
        FlatTable.zeros? fill triangle n.toNat = some zeros.flat ∧
        FlatTable.ofGrid? fill triangle n.toNat data = some (.ok made.flat)
  /-- A dimension that is taken either way has exact positions. -/
  positions : n.toNat * (n.toNat + 1) < 2 ^ 64 ∨ n.toNat * n.toNat < 2 ^ 64 → ExactPositions n

/-- Every word is judged and used in this way when it is given as a dimension. -/
theorem dimension_is_taken_exactly (precision : Precision) (fill : Fill) (triangle : Triangle)
    (n : UInt64) : TakesExactly precision fill triangle n where
  packed _ := Table.exists_ofPacked_iff
  document text record found named dim := by
    have loads := Document.exists_loadTable_iff found named
    rw [dim] at loads
    exact loads
  dense _ word := Table.exists_ofGrid_iff word
  blank data word square := by
    obtain ⟨made, grid⟩ : ∃ made : Table (Binary precision) n.toNat,
        Table.ofGrid fill triangle n.toNat data = .ok made :=
      (Table.exists_ofGrid_iff word).mpr square
    have fits : n.toNat * (n.toNat + 1) < Word.modulus := Packing.fits_of_square (square ▸ word)
    refine ⟨Table.zeroed fill triangle n.toNat fits, made, ?_, ?_, ?_⟩
    · exact dif_pos fits
    · exact Table.zeros?_flat fill triangle fits
    · rw [Table.ofGrid?_flat, grid]
      rfl
  positions taken := by
    apply ExactPositions.of_fits
    rcases taken with product | square
    · exact product
    · exact Packing.fits_of_square square

/-- The greatest dimension that is taken has its last entry at the end of the
buffer.  The product of the next one wraps around, and no buffer is taken for
it, not even one with half the wrapped product of entries. -/
theorem wrapped_product_is_refused :
    (Packing.wrappedPosition .upper 4294967295 4294967294 4294967294).toNat =
        4294967295 * 4294967296 / 2 - 1 ∧
      (Packing.wrappedSize 4294967296).toNat = 2147483648 ∧
      ∀ data : Array (Binary .double), ¬ ∃ table : Table (Binary .double) 4294967296,
        Table.ofPacked .symmetric .upper 4294967296 data = .ok table := by
  have greatest := (dimension_is_taken_exactly .double .symmetric .upper 4294967295).positions
    (Or.inl (by decide))
  have last := greatest.position .upper 4294967294 4294967294 (by decide) (by decide) (by decide)
  have next := dimension_is_taken_exactly .double .symmetric .upper 4294967296
  refine ⟨last.word.trans (by decide), by decide, ?_⟩
  intro data taken
  have fits := ((next.packed data).mp taken).1
  exact absurd fits (by decide)

end HalfMatrix
