import HalfMatrix.Proofs.Flat.Entries
import HalfMatrix.Proofs.PackedOrder

/-!
# Tables and their dense forms

Making a table from a dense matrix and showing its dense form again keeps the
stored triangle and replaces the rest: by zeros, or by the reflection.  The
other way round nothing is lost, since every position of the buffer belongs to
an entry of the triangle.
-/

set_option autoImplicit false

namespace HalfMatrix

/-- The matrix has outside the triangle what a table shows there. -/
def Grid.Filled {α : Type} [Zero α] {n : Nat} (dense : Grid α n n) (fill : Fill)
    (triangle : Triangle) : Prop :=
  ∀ row col : Fin n, ¬ triangle.Holds row col →
    dense.entry row col = fill.unstored (dense.entry col row)

theorem Grid.ext_entry {α : Type} {rows cols : Nat} {left right : Grid α rows cols}
    (same : ∀ row col, left.entry row col = right.entry row col) : left = right := by
  rw [← ofFn_entry left, ← ofFn_entry right]
  exact congrArg ofFn (funext fun row => funext fun col => same row col)

namespace Table

variable {α : Type} {n : Nat}

theorem entries_ext_slot (triangle : Triangle) {left right : Vector α (Packing.triangular n)}
    (same : ∀ (row col : Fin n) (inside : triangle.Holds row col),
      left.get (Packing.slot triangle row col inside) =
        right.get (Packing.slot triangle row col inside)) : left = right := by
  apply entries_ext
  intro place
  obtain ⟨row, col, inside, rfl⟩ := Packing.exists_slot triangle place
  exact same row col inside

variable [Zero α]

/-! ## The dense form of a table -/

theorem entry_toGrid (table : Table α n) (row col : Fin n) :
    table.toGrid.entry row col = table.entry row col :=
  Grid.entry_ofFn table.entry row col

def Corresponds {m : Nat} (related : α → α → Prop) (left : Table α n) (right : Table α m) : Prop :=
  ∃ same : n = m, ∀ row col : Fin n,
    related (left.toGrid.entry row col) (right.toGrid.entry (row.cast same) (col.cast same))

instance {m : Nat} (related : α → α → Prop) [DecidableRel related] (left : Table α n)
    (right : Table α m) : Decidable (left.Corresponds related right) :=
  inferInstanceAs (Decidable (∃ _, _))

theorem corresponds_iff {related : α → α → Prop} {left right : Table α n} :
    left.Corresponds related right ↔
      ∀ row col : Fin n, related (left.entry row col) (right.entry row col) := by
  simp only [Corresponds, entry_toGrid, Fin.cast_eq_self, exists_prop, true_and]

/-- Tables of one fill and one triangle that show the same on this triangle, and
have lent the same, are the same. -/
theorem ext_entry {left right : Table α n} (fill : left.fill = right.fill)
    (triangle : left.triangle = right.triangle) (ledger : left.ledger = right.ledger)
    (same : ∀ row col : Fin n, left.triangle.Holds row col →
      left.entry row col = right.entry row col) : left = right := by
  obtain ⟨leftFill, leftTriangle, leftEntries, leftLedger, leftFits⟩ := left
  obtain ⟨rightFill, rightTriangle, rightEntries, rightLedger, rightFits⟩ := right
  dsimp only at fill triangle ledger same
  subst fill triangle ledger
  have entries : leftEntries = rightEntries := by
    apply entries_ext_slot leftTriangle
    intro row col inside
    exact (entry_of_holds inside).symm.trans ((same row col inside).trans (entry_of_holds inside))
  rw [entries]

theorem filled_toGrid (table : Table α n) : table.toGrid.Filled table.fill table.triangle := by
  intro row col outside
  rw [entry_toGrid, entry_toGrid]
  exact entry_of_not_holds outside

/-! ## The table of a dense matrix -/

def packed (fill : Fill) (triangle : Triangle) (dense : Grid α n n)
    (fits : n * (n + 1) < Word.modulus) : Table α n where
  fill := fill
  triangle := triangle
  entries := store (Vector.replicate _ 0) <|
    (Packing.storedEntries triangle n).map fun (row, col, position) =>
      (position, dense.entry row col)
  ledger := .empty
  fits := fits

theorem ofGrid_eq_packed (fill : Fill) (triangle : Triangle) (dense : Grid α n n)
    (square : n * n < Word.modulus) :
    ofGrid fill triangle n dense.toArray =
      .ok (packed fill triangle dense (Packing.fits_of_square square)) := by
  have accepted : Word.mul? n n = some dense.toArray.size :=
    Word.mul?_eq_some_iff.mpr ⟨dense.size_toArray.symm, dense.size_toArray.symm ▸ square⟩
  unfold ofGrid
  rw [dif_pos accepted]
  split
  rfl

theorem get_packed {fill : Fill} {triangle : Triangle} {dense : Grid α n n}
    {fits : n * (n + 1) < Word.modulus} {row col : Fin n} (inside : triangle.Holds row col) :
    (packed fill triangle dense fits).entries.get (Packing.slot triangle row col inside) =
      dense.entry row col :=
  get_store_storedEntries _ (fun row col => dense.entry row col) inside

theorem entry_packed (fill : Fill) (triangle : Triangle) (dense : Grid α n n)
    (fits : n * (n + 1) < Word.modulus) (row col : Fin n) :
    (packed fill triangle dense fits).entry row col =
      if triangle.Holds row col then dense.entry row col
      else fill.unstored (dense.entry col row) := by
  by_cases inside : triangle.Holds row col
  · rw [if_pos inside]
    exact (entry_of_holds inside).trans (get_packed inside)
  · have reflected := Triangle.holds_transpose inside
    rw [if_neg inside]
    have shown : (packed fill triangle dense fits).entry row col =
        fill.unstored ((packed fill triangle dense fits).entry col row) :=
      entry_of_not_holds inside
    have stored : (packed fill triangle dense fits).entry col row = dense.entry col row :=
      (entry_of_holds reflected).trans (get_packed reflected)
    rw [shown, stored]

theorem packed_congr (fill : Fill) (triangle : Triangle) {dense other : Grid α n n}
    (fits : n * (n + 1) < Word.modulus)
    (agree : ∀ row col : Fin n, triangle.Holds row col →
      dense.entry row col = other.entry row col) :
    packed fill triangle dense fits = packed fill triangle other fits := by
  refine ext_entry rfl rfl rfl fun row col inside => ?_
  have inside' : triangle.Holds row col := inside
  rw [entry_packed, entry_packed, if_pos inside', if_pos inside', agree row col inside']

theorem packed_toGrid (table : Table α n) :
    packed table.fill table.triangle table.toGrid table.fits = table.copy := by
  refine ext_entry rfl rfl rfl fun row col inside => ?_
  have inside' : table.triangle.Holds row col := inside
  rw [entry_packed, if_pos inside', entry_toGrid]
  rfl

theorem toGrid_packed_eq_iff {fill : Fill} {triangle : Triangle} {dense : Grid α n n}
    {fits : n * (n + 1) < Word.modulus} :
    (packed fill triangle dense fits).toGrid = dense ↔ dense.Filled fill triangle := by
  constructor
  · intro same
    have filled := (packed fill triangle dense fits).filled_toGrid
    rw [same] at filled
    exact filled
  · intro filled
    apply Grid.ext_entry
    intro row col
    rw [entry_toGrid, entry_packed]
    split
    · rfl
    · rename_i outside
      exact (filled row col outside).symm

/-! ## There and back -/

variable {precision : Precision}

structure PackedFrom (made : Table (Binary precision) n) (fill : Fill) (triangle : Triangle)
    (dense : Grid (Binary precision) n n) : Prop where
  kept : made.fill = fill ∧ made.triangle = triangle
  unlent : made.ledger = .empty
  /-- The loop over the rows and their columns in the triangle gives this table. -/
  computed : FlatTable.ofGrid? fill triangle n dense.toArray = some (.ok made.flat)
  stored : ∀ row col : Fin n, triangle.Holds row col →
    made.toGrid.entry row col = dense.entry row col
  /-- The other half of a triangular table is positive zero. -/
  zero : fill = .triangular → ∀ row col : Fin n, ¬ triangle.Holds row col →
    made.toGrid.entry row col = .ofMagnitude false 0
  reflected : fill = .symmetric → ∀ row col : Fin n, ¬ triangle.Holds row col →
    made.toGrid.entry row col = dense.entry col row
  /-- The dense form is `dense` exactly if that has outside the triangle what a table
  shows there. -/
  whole : made.toGrid = dense ↔ dense.Filled fill triangle

/-- How tables of dimension `n` and dense matrices correspond. -/
structure DenseRetraction (precision : Precision) (n : Nat) : Prop where
  /-- The dense form of a table makes the same table again, with no view outstanding. -/
  repacked : ∀ table : Table (Binary precision) n,
    ofGrid table.fill table.triangle n table.toGrid.toArray = .ok table.copy
  /-- The dense form of a symmetric table is its own transpose. -/
  reflected : ∀ table : Table (Binary precision) n, table.fill = .symmetric →
    ∀ row col : Fin n, table.toGrid.entry row col = table.toGrid.entry col row
  /-- Every matrix that fits the memory makes a table. -/
  packed : ∀ (fill : Fill) (triangle : Triangle) (dense : Grid (Binary precision) n n),
    n * n < Word.modulus → ∃ made : Table (Binary precision) n,
      ofGrid fill triangle n dense.toArray = .ok made ∧ made.PackedFrom fill triangle dense
  /-- Only the triangle of the matrix decides which. -/
  determined : ∀ (fill : Fill) (triangle : Triangle) (dense other : Grid (Binary precision) n n),
    (∀ row col : Fin n, triangle.Holds row col → dense.entry row col = other.entry row col) →
      (ofGrid fill triangle n dense.toArray : Except TableError (Table (Binary precision) n)) =
        ofGrid fill triangle n other.toArray

theorem packedFrom_packed {fill : Fill} {triangle : Triangle}
    {dense : Grid (Binary precision) n n} (square : n * n < Word.modulus) :
    (packed fill triangle dense (Packing.fits_of_square square)).PackedFrom fill triangle dense where
  kept := ⟨rfl, rfl⟩
  unlent := rfl
  computed := by
    rw [ofGrid?_flat, ofGrid_eq_packed fill triangle dense square]
    rfl
  stored row col inside := by rw [entry_toGrid, entry_packed, if_pos inside]
  zero triangular row col outside := by
    rw [entry_toGrid, entry_packed, if_neg outside, triangular]
    rfl
  reflected symmetric row col outside := by
    rw [entry_toGrid, entry_packed, if_neg outside, symmetric]
    rfl
  whole := toGrid_packed_eq_iff

/-- Packing a dense matrix keeps its triangle and nothing else, and the dense form
of a table loses nothing of the table. -/
theorem dense_form_is_retraction (precision : Precision) (n : Nat) :
    DenseRetraction precision n where
  repacked table := by
    have square : n * n < Word.modulus :=
      Nat.lt_of_le_of_lt (Nat.mul_le_mul_left n (Nat.le_succ n)) table.fits
    rw [ofGrid_eq_packed table.fill table.triangle table.toGrid square]
    exact congrArg Except.ok table.packed_toGrid
  reflected table symmetric row col := by
    rw [entry_toGrid, entry_toGrid, entry_comm symmetric]
  packed fill triangle dense square :=
    ⟨_, ofGrid_eq_packed fill triangle dense square, packedFrom_packed square⟩
  determined fill triangle dense other agree := by
    by_cases square : n * n < Word.modulus
    · rw [ofGrid_eq_packed fill triangle dense square,
        ofGrid_eq_packed fill triangle other square,
        packed_congr fill triangle (Packing.fits_of_square square) agree]
    · have refused : ∀ grid : Grid (Binary precision) n n,
          (ofGrid fill triangle n grid.toArray : Except TableError (Table (Binary precision) n)) =
            .error (.sizeMismatch (n * n) n) := by
        intro grid
        have large : Word.mul? n n ≠ some grid.toArray.size :=
          fun accepted => square (by
            obtain ⟨size, bound⟩ := Word.mul?_eq_some_iff.mp accepted
            rwa [← size] at bound)
        rw [ofGrid, dif_neg large, grid.size_toArray]
      rw [refused dense, refused other]

def lopsided : Grid (Binary .double) 2 2 :=
  ⟨#[.ofMagnitude false 1, .ofMagnitude true 0, .nan, .ofMagnitude false 4], rfl⟩

/-- From the lower triangle a symmetric table is made that has the other half
reflected, so its dense form is another matrix. -/
theorem reflection_replaces_upper_half :
    ∃ made : Table (Binary .double) 2,
      ofGrid .symmetric .lower 2 lopsided.toArray = .ok made ∧
        made.toGrid.entry 0 1 = .nan ∧ made.toGrid ≠ lopsided ∧
          ofGrid .symmetric .lower 2 made.toGrid.toArray = .ok made.copy := by
  have retraction := dense_form_is_retraction .double 2
  obtain ⟨made, packed, shows⟩ := retraction.packed .symmetric .lower lopsided (by decide)
  have again := retraction.repacked made
  rw [shows.kept.1, shows.kept.2] at again
  refine ⟨made, packed, shows.reflected rfl 0 1 (by decide), ?_, again⟩
  intro same
  have clash := shows.whole.mp same 0 1 (by decide)
  exact absurd clash (by decide)

end Table

end HalfMatrix
