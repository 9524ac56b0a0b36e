import HalfMatrix.Proofs.Commits

/-!
# The dense matrix behind a table

What the operations do to a table is said here through its dense entries alone:
`entry_write` for a single write, `entry_commit_of_mirrored` for the commit of
a region of a symmetric table, `entry_toTriangle` for the change of triangle.
Nothing on the right of these laws asks which triangle is stored.
-/

set_option autoImplicit false

namespace HalfMatrix

/-- The value of an entry that is not stored, if its reflection is `reflection`. -/
def Fill.unstored {α : Type} [Zero α] (fill : Fill) (reflection : α) : α :=
  match fill with
  | triangular => 0
  | symmetric => reflection

/-! ## Where a region has its entries -/

namespace Region

variable {n : Nat} {region : Region} {within : region.Within n}

theorem rowAt_inj {i i' : Fin region.count} :
    region.rowAt within i = region.rowAt within i' ↔ i = i' := by
  constructor
  · intro same
    have values : region.start + i = region.start + i' := congrArg Fin.val same
    exact Fin.ext (Nat.add_left_cancel values)
  · rintro rfl
    rfl

theorem colAt_inj {j j' : Fin (region.width n)} :
    region.colAt within j = region.colAt within j' ↔ j = j' := by
  constructor
  · intro same
    cases region with
    | rows start count => exact same
    | column own start count =>
        have single : ∀ index : Fin 1, index = 0 := fun index => Subsingleton.elim index 0
        exact (single j).trans (single j').symm
  · rintro rfl
    rfl

/-- Wherever a region has an entry and its reflection too, `data` has one value
for both. -/
def Mirrored {α : Type} (region : Region) (within : region.Within n)
    (data : Grid α region.count (region.width n)) : Prop :=
  ∀ i j i' j', region.rowAt within i' = region.colAt within j →
    region.colAt within j' = region.rowAt within i → data.entry i j = data.entry i' j'

/-- A column has no entry beside the diagonal together with its reflection. -/
theorem mirrored_column {α : Type} {col start count : Nat}
    {within : (Region.column col start count).Within n}
    (data : Grid α count 1) : (Region.column col start count).Mirrored within data := by
  intro i j i' j' crossed crossed'
  have own : (Region.column col start count).rowAt within i' =
      (Region.column col start count).rowAt within i := crossed.trans crossed'
  have sameRow : i = i' := (rowAt_inj.mp own).symm
  have sameCol : j = j' := colAt_inj.mp (rfl : Region.colAt _ within j = Region.colAt _ within j')
  rw [sameRow, sameCol]

end Region

namespace Packing

variable {n : Nat}

theorem exists_home (triangle : Triangle) (row col : Fin n) :
    ∃ place, home .symmetric triangle row col = some place := by
  by_cases inside : triangle.Holds row col
  · exact ⟨_, home_of_holds inside⟩
  · rw [home_of_not_holds inside, if_pos rfl]
    exact ⟨_, rfl⟩

theorem home_eq_home_iff {triangle : Triangle} {row col row' col' : Fin n} :
    home .symmetric triangle row col = home .symmetric triangle row' col' ↔
      (row = row' ∧ col = col') ∨ (row = col' ∧ col = row') := by
  constructor
  · intro same
    obtain ⟨place, found⟩ := exists_home triangle row col
    rcases home_eq_home found (same ▸ found) with direct | ⟨_, reflected⟩
    · exact Or.inl direct
    · exact Or.inr reflected
  · rintro (⟨rfl, rfl⟩ | ⟨rfl, rfl⟩)
    · rfl
    · obtain ⟨place, found⟩ := exists_home triangle row col
      by_cases inside : triangle.Holds row col
      · by_cases inside' : triangle.Holds col row
        · have diagonal : row = col := by
            apply Fin.ext
            cases triangle <;> simp only [Triangle.Holds] at inside inside' <;> omega
          rw [diagonal]
        · obtain ⟨place', found'⟩ := exists_home triangle col row
          rw [found', (home_transpose inside' found').2]
      · rw [found, (home_transpose inside found).2]

theorem mem_storedEntries {triangle : Triangle} {row col : Fin n} {place : Fin (triangular n)} :
    (row, col, place) ∈ storedEntries triangle n ↔
      ∃ inside : triangle.Holds row col, slot triangle row col inside = place := by
  simp only [storedEntries, List.mem_flatMap, List.mem_filterMap]
  constructor
  · rintro ⟨row', _, col', _, found⟩
    split at found
    · rename_i inside
      simp only [Option.some.injEq, Prod.mk.injEq] at found
      obtain ⟨rfl, rfl, same⟩ := found
      exact ⟨inside, same⟩
    · cases found
  · rintro ⟨inside, rfl⟩
    exact ⟨row, List.mem_finRange row, col, List.mem_finRange col, dif_pos inside⟩

end Packing

namespace Table

variable {α : Type} {n : Nat}

/-! ## The last of many writes -/

theorem lastWrite_append {size : Nat} (earlier later : List (Fin size × α)) (place : Fin size) :
    lastWrite (earlier ++ later) place = (lastWrite later place).or (lastWrite earlier place) := by
  induction earlier with
  | nil => rw [List.nil_append, lastWrite, Option.or_none]
  | cons write earlier ih =>
      obtain ⟨position, value⟩ := write
      rw [List.cons_append, lastWrite, lastWrite, ih, Option.or_assoc]

theorem lastWrite_eq_some {size : Nat} {writes : List (Fin size × α)} {place : Fin size}
    {value : α} (mem : (place, value) ∈ writes)
    (only : ∀ other, (place, other) ∈ writes → other = value) :
    lastWrite writes place = some value := by
  cases last : lastWrite writes place with
  | none => exact absurd mem (lastWrite_eq_none_iff.mp last value)
  | some other => rw [only other (mem_of_lastWrite last)]

theorem lastWrite_append_eq_some {size : Nat} {writes later : List (Fin size × α)}
    {place : Fin size} {value : α} (mem : (place, value) ∈ later)
    (only : ∀ other, (place, other) ∈ later → other = value) :
    lastWrite (writes ++ later) place = some value := by
  rw [lastWrite_append, lastWrite_eq_some mem only]
  rfl

theorem get_store_storedEntries {triangle : Triangle}
    (entries : Vector α (Packing.triangular n)) (value : Fin n → Fin n → α) {row col : Fin n}
    (inside : triangle.Holds row col) :
    (store entries ((Packing.storedEntries triangle n).map fun (row, col, position) =>
      (position, value row col))).get (Packing.slot triangle row col inside) = value row col := by
  have last : lastWrite ((Packing.storedEntries triangle n).map fun (row, col, position) =>
      (position, value row col)) (Packing.slot triangle row col inside) =
      some (value row col) := by
    apply lastWrite_eq_some
    · exact List.mem_map.mpr
        ⟨(row, col, _), Packing.mem_storedEntries.mpr ⟨inside, rfl⟩, rfl⟩
    · intro other mem
      obtain ⟨⟨row', col', place⟩, stored, same⟩ := List.mem_map.mp mem
      obtain ⟨inside', rfl⟩ := Packing.mem_storedEntries.mp stored
      obtain ⟨samePlace, rfl⟩ := Prod.mk.inj same
      obtain ⟨rfl, rfl⟩ := Packing.slot_inj.mp samePlace
      rfl
  rw [get_store, last]
  rfl

/-! ## Commits -/

section Commits

variable {table : Table α n} {region : Region} {within : region.Within n}
  {data : Grid α region.count (region.width n)} {i : Fin region.count}
  {j : Fin (region.width n)}

theorem eq_of_mem_cells {value : α}
    (mem : (region.rowAt within i, region.colAt within j, value) ∈ cells region within data) :
    value = data.entry i j := by
  obtain ⟨i', j', sameRow, sameCol, rfl⟩ := mem_cells.mp mem
  rw [Region.rowAt_inj.mp sameRow, Region.colAt_inj.mp sameCol]

theorem lastWrite_commitWrites_of_holds
    (inside : table.triangle.Holds (region.rowAt within i) (region.colAt within j)) :
    lastWrite (table.commitWrites region within data)
        (Packing.slot table.triangle _ _ inside) = some (data.entry i j) := by
  have cell : (region.rowAt within i, region.colAt within j, data.entry i j) ∈
      cells region within data := mem_cells.mpr ⟨i, j, rfl, rfl, rfl⟩
  -- The stored entries are written last, so no reflection is written over them.
  refine lastWrite_append_eq_some (List.mem_filterMap.mpr ⟨_, cell, ?_⟩) ?_
  · simp only [dif_pos inside]
  · intro other mem
    obtain ⟨⟨row, col, value⟩, held, written⟩ := List.mem_filterMap.mp mem
    simp only at written
    split at written
    · obtain ⟨samePlace, rfl⟩ := Prod.mk.inj (Option.some.inj written)
      obtain ⟨rfl, rfl⟩ := Packing.slot_inj.mp samePlace
      exact eq_of_mem_cells held
    · cases written

/-- An entry whose reflection is not in the region gives its value to its home. -/
theorem lastWrite_commitWrites_of_alone {place : Fin (Packing.triangular n)}
    (alone : ¬ region.Covers (region.colAt within j) (region.rowAt within i))
    (homed : table.home (region.rowAt within i) (region.colAt within j) = some place) :
    lastWrite (table.commitWrites region within data) place = some (data.entry i j) := by
  have cell : (region.rowAt within i, region.colAt within j, data.entry i j) ∈
      cells region within data := mem_cells.mpr ⟨i, j, rfl, rfl, rfl⟩
  -- Every entry of the region at this position is the one at hand.
  have here : ∀ row col value, (row, col, value) ∈ cells region within data →
      table.home row col = some place →
      row = region.rowAt within i ∧ col = region.colAt within j := by
    intro row col value mem homed'
    rcases Packing.home_eq_home homed' homed with same | ⟨_, rfl, rfl⟩
    · exact same
    · obtain ⟨i', j', atRow, atCol, _⟩ := mem_cells.mp mem
      exact absurd ((Region.covers_iff within).mpr ⟨i', j', atRow, atCol⟩) alone
  apply lastWrite_eq_some
  · exact mem_commitWrites_iff.mpr ⟨_, _, cell, homed, Or.inr alone⟩
  · intro other mem
    obtain ⟨row, col, held, homed'⟩ := cell_of_mem_commitWrites mem
    obtain ⟨rfl, rfl⟩ := here row col other held homed'
    exact eq_of_mem_cells held

theorem lastWrite_commitWrites_of_counts {place : Fin (Packing.triangular n)}
    (counts : table.Counts region (region.rowAt within i) (region.colAt within j))
    (homed : table.home (region.rowAt within i) (region.colAt within j) = some place) :
    lastWrite (table.commitWrites region within data) place = some (data.entry i j) := by
  rcases counts with inside | alone
  · rw [home, Packing.home_of_holds inside, Option.some.injEq] at homed
    rw [← homed]
    exact lastWrite_commitWrites_of_holds inside
  · exact lastWrite_commitWrites_of_alone alone homed

end Commits

theorem home_eq_none_iff {table : Table α n} {row col : Fin n} :
    table.home row col = none ↔
      table.fill = .triangular ∧ ¬ table.triangle.Holds row col := by
  by_cases inside : table.triangle.Holds row col
  · simp [home, Packing.home_of_holds inside, inside]
  · cases fill : table.fill <;> simp [home, Packing.home_of_not_holds inside, inside, fill]

theorem exists_home {table : Table α n} (symmetric : table.fill = .symmetric)
    (row col : Fin n) : ∃ place, table.home row col = some place := by
  simp only [home, symmetric]
  exact Packing.exists_home table.triangle row col

theorem home_comm {table : Table α n} (symmetric : table.fill = .symmetric) (row col : Fin n) :
    table.home row col = table.home col row := by
  simp only [home, symmetric]
  exact Packing.home_eq_home_iff.mpr (Or.inr ⟨rfl, rfl⟩)

theorem home_eq_iff {table : Table α n} {row col : Fin n} {place : Fin (Packing.triangular n)}
    (homed : table.home row col = some place) (row' col' : Fin n) :
    table.home row' col' = table.home row col ↔
      (row' = row ∧ col' = col) ∨ (table.fill = .symmetric ∧ row' = col ∧ col' = row) := by
  constructor
  · intro same
    exact Packing.home_eq_home (same.trans homed) homed
  · rintro (⟨rfl, rfl⟩ | ⟨symmetric, rfl, rfl⟩)
    · rfl
    · exact home_comm symmetric _ _

/-! ## Dense entries -/

variable [Zero α]

theorem entry_comm {table : Table α n} (symmetric : table.fill = .symmetric) (row col : Fin n) :
    table.entry row col = table.entry col row := by
  simp only [entry, home_comm symmetric row col]

theorem entry_of_holds {table : Table α n} {row col : Fin n}
    (inside : table.triangle.Holds row col) :
    table.entry row col = table.entries.get (Packing.slot table.triangle row col inside) :=
  entry_of_home (Packing.home_of_holds inside)

theorem entry_of_not_holds {table : Table α n} {row col : Fin n}
    (outside : ¬ table.triangle.Holds row col) :
    table.entry row col = table.fill.unstored (table.entry col row) := by
  cases fill : table.fill with
  | symmetric => exact entry_comm fill row col
  | triangular =>
      have homeless : table.home row col = none := home_eq_none_iff.mpr ⟨fill, outside⟩
      simp only [entry, homeless]
      rfl

theorem entry_write {table : Table α n} {row col : Fin n} {place : Fin (Packing.triangular n)}
    (homed : table.home row col = some place) (value : α) (row' col' : Fin n) :
    ({ table with entries := table.entries.set place value place.isLt } : Table α n).entry
        row' col' =
      if table.home row' col' = table.home row col then value else table.entry row' col' := by
  cases homed' : table.home row' col' with
  | none =>
      have apart : none ≠ table.home row col := by simp [homed]
      rw [if_neg apart]
      have same : ({ table with entries := table.entries.set place value place.isLt } :
        Table α n).home row' col' = none := homed'
      simp only [entry, same, homed']
  | some place' =>
      have same : ({ table with entries := table.entries.set place value place.isLt } :
        Table α n).home row' col' = some place' := homed'
      simp only [entry, same, homed', homed, Option.some.injEq]
      by_cases equal : place' = place
      · subst equal
        rw [if_pos rfl]
        exact Vector.getElem_set_self place'.isLt
      · have apart : (place : Nat) ≠ place' := fun clash => equal (Fin.ext clash.symm)
        rw [if_neg equal]
        exact Vector.getElem_set_ne place.isLt place'.isLt apart

theorem entry_setAll {table : Table α n} (symmetric : table.fill = .symmetric) (value : α)
    (row col : Fin n) : (table.setAll value).entry row col = value := by
  obtain ⟨place, homed⟩ := exists_home symmetric row col
  have same : (table.setAll value).home row col = some place := homed
  rw [entry_of_home same]
  exact Vector.getElem_map _ place.isLt

section Commit

variable {table : Table α n} {region : Region} {within : region.Within n}
  {data : Grid α region.count (region.width n)}

theorem entry_commit_of_home {row col : Fin n} {place : Fin (Packing.triangular n)}
    (homed : table.home row col = some place) :
    (table.commit region within data).entry row col =
      (lastWrite (table.commitWrites region within data) place).getD (table.entry row col) := by
  have same : (table.commit region within data).home row col = some place := homed
  rw [entry_of_home same, entry_of_home homed]
  exact get_store table.entries (table.commitWrites region within data) place

/-- A commit leaves alone what neither belongs to its region nor reflects an
entry of it. -/
theorem entry_commit_of_not_covers {row col : Fin n} (outside : ¬ region.Covers row col)
    (outside' : ¬ region.Covers col row) :
    (table.commit region within data).entry row col = table.entry row col := by
  cases homed : table.home row col with
  | none =>
      have same : (table.commit region within data).home row col = none := homed
      simp only [entry, homed, same]
  | some place =>
      have free : ¬ table.Addresses region place := by
        rintro ⟨row', col', covers, homed'⟩
        rcases Packing.home_eq_home homed homed' with ⟨rfl, rfl⟩ | ⟨_, rfl, rfl⟩
        · exact outside covers
        · exact outside' covers
      rw [entry_commit_of_home homed, lastWrite_commitWrites_eq_none_iff.mpr free]
      rfl

/-- A symmetric table shows what was committed to it, if the values agree where
the region has an entry together with its reflection. -/
theorem entry_commit_of_mirrored (symmetric : table.fill = .symmetric)
    (mirrored : region.Mirrored within data) (i : Fin region.count)
    (j : Fin (region.width n)) :
    (table.commit region within data).entry (region.rowAt within i) (region.colAt within j) =
      data.entry i j := by
  by_cases counts : table.Counts region (region.rowAt within i) (region.colAt within j)
  · obtain ⟨place, homed⟩ := exists_home symmetric (region.rowAt within i) (region.colAt within j)
    rw [entry_commit_of_home homed, lastWrite_commitWrites_of_counts counts homed]
    rfl
  · -- The reflection is stored, and has its own value in the region.
    simp only [Counts, not_or, Decidable.not_not] at counts
    obtain ⟨outside, both⟩ := counts
    obtain ⟨i', j', atRow, atCol⟩ := (Region.covers_iff within).mp both
    have inside : table.triangle.Holds (region.rowAt within i') (region.colAt within j') := by
      rw [atRow, atCol]
      exact Triangle.holds_transpose outside
    have kept : (table.commit region within data).fill = .symmetric := symmetric
    rw [entry_comm kept, ← atRow, ← atCol, mirrored i j i' j' atRow atCol,
      entry_commit_of_home (Packing.home_of_holds inside), lastWrite_commitWrites_of_holds inside]
    rfl

end Commit

/-! ## Another triangle -/

theorem toTriangle_self (table : Table α n) : table.toTriangle table.triangle = table.copy :=
  if_pos rfl

theorem fill_toTriangle (table : Table α n) (target : Triangle) :
    (table.toTriangle target).fill = table.fill := by
  unfold toTriangle
  split <;> rfl

theorem triangle_toTriangle (table : Table α n) (target : Triangle) :
    (table.toTriangle target).triangle = target := by
  unfold toTriangle
  split
  · rename_i same
    exact same.symm
  · rfl

theorem ledger_toTriangle (table : Table α n) (target : Triangle) :
    (table.toTriangle target).ledger = .empty := by
  unfold toTriangle
  split <;> rfl

theorem entry_toTriangle_of_holds {table : Table α n} {target : Triangle} {row col : Fin n}
    (other : target ≠ table.triangle) (inside : target.Holds row col) :
    (table.toTriangle target).entry row col = table.entry col row := by
  have inside' : (table.toTriangle target).triangle.Holds row col := by
    rw [triangle_toTriangle]
    exact inside
  rw [entry_of_holds inside']
  simp only [toTriangle, if_neg other, zeroed] at inside' ⊢
  exact get_store_storedEntries _ (fun row col => table.entry col row) inside

/-- The change of triangle does not show in a symmetric table. -/
theorem entry_toTriangle {table : Table α n} (symmetric : table.fill = .symmetric)
    (target : Triangle) (row col : Fin n) :
    (table.toTriangle target).entry row col = table.entry row col := by
  by_cases same : target = table.triangle
  · simp only [toTriangle, if_pos same]
    rfl
  · have kept : (table.toTriangle target).fill = .symmetric :=
      (table.fill_toTriangle target).trans symmetric
    by_cases inside : target.Holds row col
    · rw [entry_toTriangle_of_holds same inside, entry_comm symmetric]
    · rw [entry_comm kept, entry_toTriangle_of_holds same (Triangle.holds_transpose inside)]

end Table

end HalfMatrix
