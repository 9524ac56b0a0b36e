import HalfMatrix.Proofs.Footprints
import HalfMatrix.Table.Lending

/-!
# What a commit writes

A commit writes exactly the positions that its region addresses, with values
that do not depend on what stood there before.  Commits to regions that
address nothing in common can therefore be exchanged, and committing what a
region shows changes nothing.
-/

set_option autoImplicit false

namespace HalfMatrix

namespace Table

variable {α : Type} {n : Nat}

/-! ## Writes in order -/

def lastWrite {size : Nat} : List (Fin size × α) → Fin size → Option α
  | [], _ => none
  | (position, value) :: writes, place =>
      (lastWrite writes place).or (if position = place then some value else none)

theorem get_store {size : Nat} (entries : Vector α size) (writes : List (Fin size × α))
    (place : Fin size) :
    (store entries writes).get place = (lastWrite writes place).getD (entries.get place) := by
  induction writes generalizing entries with
  | nil => rfl
  | cons write writes ih =>
      obtain ⟨position, value⟩ := write
      have unfolded : store entries ((position, value) :: writes) =
          store (entries.set position value position.isLt) writes := rfl
      rw [unfolded, ih, lastWrite]
      cases lastWrite writes place with
      | some later => rfl
      | none =>
          simp only [Option.none_or, Option.getD_none]
          by_cases same : position = place
          · subst same
            rw [if_pos rfl]
            exact Vector.getElem_set_self position.isLt
          · have apart : (position : Nat) ≠ place := fun equal => same (Fin.ext equal)
            rw [if_neg same]
            exact Vector.getElem_set_ne position.isLt place.isLt apart

theorem lastWrite_eq_none_iff {size : Nat} {writes : List (Fin size × α)} {place : Fin size} :
    lastWrite writes place = none ↔ ∀ value, (place, value) ∉ writes := by
  induction writes with
  | nil => simp [lastWrite]
  | cons write writes ih =>
      obtain ⟨position, value⟩ := write
      simp only [lastWrite, Option.or_eq_none_iff, ih, List.mem_cons, Prod.mk.injEq, not_or]
      constructor
      · rintro ⟨later, first⟩ other
        refine ⟨?_, later other⟩
        rintro ⟨rfl, _⟩
        simp at first
      · intro absent
        refine ⟨fun other => (absent other).2, ?_⟩
        by_cases same : position = place
        · exact absurd ⟨same.symm, rfl⟩ (absent value).1
        · exact if_neg same

theorem mem_of_lastWrite {size : Nat} {writes : List (Fin size × α)} {place : Fin size} {value : α}
    (last : lastWrite writes place = some value) : (place, value) ∈ writes := by
  induction writes with
  | nil => cases last
  | cons write writes ih =>
      obtain ⟨position, written⟩ := write
      rw [lastWrite, Option.or_eq_some_iff] at last
      rcases last with last | ⟨_, last⟩
      · exact List.mem_cons_of_mem _ (ih last)
      · split at last
        · rename_i same
          rw [same, Option.some.inj last]
          exact List.mem_cons_self
        · cases last

theorem entries_ext {size : Nat} {left right : Vector α size}
    (same : ∀ place : Fin size, left.get place = right.get place) : left = right :=
  Vector.ext fun index bound => same ⟨index, bound⟩

theorem store_comm {size : Nat} (entries : Vector α size) {writes writes' : List (Fin size × α)}
    (apart : ∀ place, lastWrite writes place = none ∨ lastWrite writes' place = none) :
    store (store entries writes) writes' = store (store entries writes') writes := by
  apply entries_ext
  intro place
  rw [get_store, get_store, get_store, get_store]
  rcases apart place with free | free <;> rw [free] <;> rfl

theorem store_eq_self {size : Nat} {entries : Vector α size} {writes : List (Fin size × α)}
    (same : ∀ place value, (place, value) ∈ writes → entries.get place = value) :
    store entries writes = entries := by
  apply entries_ext
  intro place
  rw [get_store]
  cases last : lastWrite writes place with
  | none => rfl
  | some value => exact (same place value (mem_of_lastWrite last)).symm

/-! ## The writes of a commit -/

end Table

theorem Region.exists_rowAt {n : Nat} {region : Region} (within : region.Within n) (row : Fin n)
    (has : region.HasRow row) :
    ∃ i : Fin region.count, (i : Nat) = row - region.start ∧ region.rowAt within i = row := by
  obtain ⟨lower, upper⟩ := has
  exact ⟨⟨row - region.start, by omega⟩, rfl, Fin.ext (Nat.add_sub_cancel' lower)⟩

theorem Region.covers_iff {n : Nat} {region : Region} (within : region.Within n) {row col : Fin n} :
    region.Covers row col ↔
      ∃ i j, region.rowAt within i = row ∧ region.colAt within j = col := by
  constructor
  · intro covers
    obtain ⟨i, _, atRow⟩ := exists_rowAt within row covers.1
    cases region with
    | rows start count => exact ⟨i, col, atRow, rfl⟩
    | column own start count => exact ⟨i, ⟨0, Nat.one_pos⟩, atRow, Fin.ext covers.2.symm⟩
  · rintro ⟨i, j, rfl, rfl⟩
    have bound := i.isLt
    refine ⟨?_, ?_⟩
    · simp only [HasRow, rowAt]
      omega
    · cases region with
      | rows start count => trivial
      | column own start count => rfl

namespace Table

variable {α : Type} {n : Nat}

theorem mem_cells {region : Region} {within : region.Within n}
    {data : Grid α region.count (region.width n)} {row col : Fin n} {value : α} :
    (row, col, value) ∈ cells region within data ↔
      ∃ i j, region.rowAt within i = row ∧ region.colAt within j = col ∧ data.entry i j = value := by
  simp [cells]

theorem exists_mem_cells {region : Region} (within : region.Within n)
    (data : Grid α region.count (region.width n)) {row col : Fin n}
    (covers : region.Covers row col) : ∃ value, (row, col, value) ∈ cells region within data := by
  obtain ⟨i, j, atRow, atCol⟩ := (Region.covers_iff within).mp covers
  exact ⟨data.entry i j, mem_cells.mpr ⟨i, j, atRow, atCol, rfl⟩⟩

/-- A commit to the region takes the value of its entry `(row, col)`: the entry is
stored, or its reflection has no value of its own in the region. -/
def Counts (table : Table α n) (region : Region) (row col : Nat) : Prop :=
  table.triangle.Holds row col ∨ ¬ region.Covers col row

instance (table : Table α n) (region : Region) (row col : Nat) :
    Decidable (table.Counts region row col) :=
  inferInstanceAs (Decidable (_ ∨ ¬ _))

/-- In one column an entry and its reflection stand together on the diagonal only. -/
theorem counts_column (table : Table α n) (row col start count : Nat) :
    table.Counts (.column col start count) row col := by
  by_cases diagonal : row = col
  · rw [diagonal]
    exact Or.inl (Triangle.holds_diagonal _ _)
  · exact Or.inr fun both => diagonal both.2

theorem counts_row (table : Table α n) (row col : Nat) :
    table.Counts (.rows row 1) row col := by
  by_cases diagonal : row = col
  · rw [diagonal]
    exact Or.inl (Triangle.holds_diagonal _ _)
  · refine Or.inr fun both => diagonal ?_
    have lower : row ≤ col := both.1.1
    have upper : col < row + 1 := both.1.2
    omega

/-- The writes of a commit are the values of the entries that count, at their homes. -/
theorem mem_commitWrites_iff {table : Table α n} {region : Region} {within : region.Within n}
    {data : Grid α region.count (region.width n)} {place : Fin (Packing.triangular n)}
    {value : α} :
    (place, value) ∈ table.commitWrites region within data ↔
      ∃ row col, (row, col, value) ∈ cells region within data ∧
        table.home row col = some place ∧ table.Counts region row col := by
  simp only [commitWrites, List.mem_append, List.mem_filterMap]
  constructor
  · rintro (⟨⟨row, col, held⟩, cell, reflected⟩ | ⟨⟨row, col, held⟩, cell, stored⟩)
    · split at reflected
      · cases reflected
      · rename_i alone
        obtain ⟨home, homed, same⟩ := Option.map_eq_some_iff.mp reflected
        obtain ⟨rfl, rfl⟩ := Prod.mk.inj same
        exact ⟨row, col, cell, homed, Or.inr fun both => alone (Or.inr both)⟩
    · split at stored
      · rename_i inside
        obtain ⟨rfl, rfl⟩ := Prod.mk.inj (Option.some.inj stored)
        exact ⟨row, col, cell, Packing.home_of_holds inside, Or.inl inside⟩
      · cases stored
  · rintro ⟨row, col, cell, homed, counts⟩
    by_cases inside : table.triangle.Holds row col
    · rw [home, Packing.home_of_holds inside, Option.some.injEq] at homed
      subst homed
      exact Or.inr ⟨_, cell, by simp [inside]⟩
    · have alone : ¬ region.Covers col row := counts.resolve_left inside
      exact Or.inl ⟨_, cell, by simp [inside, alone, homed]⟩

theorem cell_of_mem_commitWrites {table : Table α n} {region : Region} {within : region.Within n}
    {data : Grid α region.count (region.width n)} {place : Fin (Packing.triangular n)} {value : α}
    (mem : (place, value) ∈ table.commitWrites region within data) :
    ∃ row col, (row, col, value) ∈ cells region within data ∧
      table.home row col = some place := by
  obtain ⟨row, col, cell, homed, _⟩ := mem_commitWrites_iff.mp mem
  exact ⟨row, col, cell, homed⟩

theorem addresses_of_mem_commitWrites {table : Table α n} {region : Region}
    {within : region.Within n} {data : Grid α region.count (region.width n)}
    {place : Fin (Packing.triangular n)} {value : α}
    (mem : (place, value) ∈ table.commitWrites region within data) :
    table.Addresses region place := by
  obtain ⟨row, col, cell, homed⟩ := cell_of_mem_commitWrites mem
  obtain ⟨i, j, atRow, atCol, _⟩ := mem_cells.mp cell
  exact ⟨row, col, (Region.covers_iff within).mpr ⟨i, j, atRow, atCol⟩, homed⟩

/-- Every position that the region addresses is written: by the entry stored
there if the region has it, and else by its reflection. -/
theorem mem_commitWrites_of_addresses {table : Table α n} {region : Region}
    (within : region.Within n) (data : Grid α region.count (region.width n))
    {place : Fin (Packing.triangular n)} (addressed : table.Addresses region place) :
    ∃ value, (place, value) ∈ table.commitWrites region within data := by
  obtain ⟨row, col, covers, homed⟩ := addressed
  by_cases counts : table.Counts region row col
  · obtain ⟨value, cell⟩ := exists_mem_cells within data covers
    exact ⟨value, mem_commitWrites_iff.mpr ⟨row, col, cell, homed, counts⟩⟩
  · simp only [Counts, not_or, Decidable.not_not] at counts
    obtain ⟨outside, both⟩ := counts
    obtain ⟨value, cell⟩ := exists_mem_cells within data both
    have reflected := (Packing.home_transpose outside homed).2
    exact ⟨value, mem_commitWrites_iff.mpr
      ⟨col, row, cell, reflected, Or.inl (Triangle.holds_transpose outside)⟩⟩

theorem lastWrite_commitWrites_eq_none_iff {table : Table α n} {region : Region}
    {within : region.Within n} {data : Grid α region.count (region.width n)}
    {place : Fin (Packing.triangular n)} :
    lastWrite (table.commitWrites region within data) place = none ↔
      ¬ table.Addresses region place := by
  rw [lastWrite_eq_none_iff]
  constructor
  · intro absent addressed
    obtain ⟨value, mem⟩ := mem_commitWrites_of_addresses within data addressed
    exact absent value mem
  · intro free value mem
    exact free (addresses_of_mem_commitWrites mem)

/-! ## What a region shows -/

variable [Zero α]

theorem entry_of_home {table : Table α n} {row col : Fin n} {place : Fin (Packing.triangular n)}
    (homed : table.home row col = some place) : table.entry row col = table.entries.get place := by
  simp only [entry, homed]
  rfl

theorem store_commitWrites_window (table : Table α n) (region : Region)
    (within : region.Within n) :
    store table.entries (table.commitWrites region within (table.window region within)) =
      table.entries := by
  apply store_eq_self
  intro place value mem
  obtain ⟨row, col, cell, homed⟩ := cell_of_mem_commitWrites mem
  obtain ⟨i, j, rfl, rfl, shown⟩ := mem_cells.mp cell
  rw [window, Grid.entry_ofFn, entry_of_home homed] at shown
  exact shown

theorem window_congr {table : Table α n} {region : Region} {within : region.Within n}
    {entries : Vector α (Packing.triangular n)} (ledger : Ledger)
    (agree : ∀ place, table.Addresses region place → entries.get place = table.entries.get place) :
    ({ table with entries, ledger } : Table α n).window region within =
      table.window region within := by
  have shown : ∀ i j,
      ({ table with entries, ledger } : Table α n).entry (region.rowAt within i)
          (region.colAt within j) =
        table.entry (region.rowAt within i) (region.colAt within j) := by
    intro i j
    have covers := (Region.covers_iff within).mpr ⟨i, j, rfl, rfl⟩
    simp only [entry, home]
    split
    · rename_i place homed
      exact agree place ⟨_, _, covers, homed⟩
    · rfl
  unfold window
  simp only [shown]

end Table

end HalfMatrix
