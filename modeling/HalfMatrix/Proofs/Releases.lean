import HalfMatrix.Proofs.Dense
import HalfMatrix.Proofs.Handovers
import Mathlib.Algebra.GroupWithZero.Nat

/-!
# What a release commits

A view that was acquired for writing gives each position of the table at most
one of its values.  A stored entry of the region gets the value that the view
has for it; a stored entry outside the region gets the value that the view has
for its reflection, if the table is symmetric and the region has that.  All
other positions keep what they had.
-/

set_option autoImplicit false

namespace HalfMatrix

theorem Access.writes_of_ne_readOnly {access : Access} (writable : access ≠ .readOnly) :
    access.writes = true := by
  cases access with
  | readOnly => exact absurd rfl writable
  | writeOnly => rfl
  | readWrite => rfl

theorem View.entry?_of_fits {α : Type} {n : Nat} {view : View α} {region : Region}
    (fits : view.Fits region n) (i : Fin region.count) (j : Fin (region.width n)) :
    view.entry? i j =
      some (Grid.entry (view.data.cast (by rw [fits.2.1, fits.2.2])) i j) := by
  obtain ⟨ticket, own, access, rows, cols, data⟩ := view
  obtain ⟨within, sameRows, sameCols⟩ := fits
  dsimp only at sameRows sameCols
  subst sameRows sameCols
  exact dif_pos ⟨i.isLt, j.isLt⟩

theorem View.entry?_mk {α : Type} (ticket : Ticket) (region : Region) (access : Access)
    {rows cols : Nat} (data : Grid α rows cols) (i : Fin rows) (j : Fin cols) :
    View.entry? (⟨ticket, region, access, rows, cols, data⟩ : View α) i j = some (data.entry i j) :=
  dif_pos ⟨i.isLt, j.isLt⟩

namespace Table

variable {α : Type} {n : Nat}

/-! ## One position after a release -/

section Positions

variable {table : Table α n} {region : Region} {view : View α}
  {place : Fin (Packing.triangular n)}

theorem get_settled_release (fits : view.Fits region n) (writes : view.access.writes = true) :
    (table.settled (.release region) view).entries.get place =
      (lastWrite (table.commitWrites region fits.1
        (view.data.cast (by rw [fits.2.1, fits.2.2]))) place).getD (table.entries.get place) := by
  have committed : table.returnWrites (.release region) view = table.commitWrites region fits.1
      (view.data.cast (by rw [fits.2.1, fits.2.2])) := by
    simp only [returnWrites, Return.region, Return.commits, writes, dif_pos fits, if_true]
  rw [← committed]
  exact get_store _ _ _

theorem get_settled_of_counts (fits : view.Fits region n) (writes : view.access.writes = true)
    {i : Fin region.count} {j : Fin (region.width n)} {row col : Fin n}
    (atRow : region.rowAt fits.1 i = row) (atCol : region.colAt fits.1 j = col)
    (counts : table.Counts region row col) (homed : table.home row col = some place) :
    some ((table.settled (.release region) view).entries.get place) = view.entry? i j := by
  subst atRow atCol
  rw [get_settled_release fits writes, lastWrite_commitWrites_of_counts counts homed,
    View.entry?_of_fits fits]
  rfl

theorem get_settled_of_own (fits : view.Fits region n) (writes : view.access.writes = true)
    {i : Fin region.count} {j : Fin (region.width n)} {row col : Fin n}
    (atRow : region.rowAt fits.1 i = row) (atCol : region.colAt fits.1 j = col)
    (inside : table.triangle.Holds row col) :
    some ((table.settled (.release region) view).entries.get
      (Packing.slot table.triangle row col inside)) = view.entry? i j :=
  get_settled_of_counts fits writes atRow atCol (Or.inl inside) (Packing.home_of_holds inside)

theorem home_reflected {row col : Fin n} (symmetric : table.fill = .symmetric)
    (inside : table.triangle.Holds row col) :
    table.home col row = some (Packing.slot table.triangle row col inside) :=
  (home_comm symmetric col row).trans (Packing.home_of_holds inside)

/-- A stored entry outside the region gets the view's value for its reflection. -/
theorem get_settled_of_reflected (fits : view.Fits region n) (writes : view.access.writes = true)
    {i : Fin region.count} {j : Fin (region.width n)} {row col : Fin n}
    (symmetric : table.fill = .symmetric) (atRow : region.rowAt fits.1 i = col)
    (atCol : region.colAt fits.1 j = row) (inside : table.triangle.Holds row col)
    (foreign : ¬ region.Covers row col) :
    some ((table.settled (.release region) view).entries.get
      (Packing.slot table.triangle row col inside)) = view.entry? i j :=
  get_settled_of_counts fits writes atRow atCol (Or.inr foreign) (home_reflected symmetric inside)

theorem get_settled_of_not_addresses (fits : view.Fits region n)
    (writes : view.access.writes = true) (free : ¬ table.Addresses region place) :
    (table.settled (.release region) view).entries.get place = table.entries.get place := by
  rw [get_settled_release fits writes, lastWrite_commitWrites_eq_none_iff.mpr free]
  rfl

theorem entries_settled_of_keeps (keeps : view.access.writes = false) :
    (table.settled (.release region) view).entries = table.entries := by
  have unwritten : table.returnWrites (.release region) view = [] := by
    simp [returnWrites, Return.commits, keeps]
  rw [settled, unwritten]
  rfl

/-- A region addresses the position of a stored entry if it has the entry, or
if the table is symmetric and it has the reflection. -/
theorem addresses_slot_iff {row col : Fin n} (inside : table.triangle.Holds row col) :
    table.Addresses region (Packing.slot table.triangle row col inside) ↔
      region.Covers row col ∨ (table.fill = .symmetric ∧ region.Covers col row) := by
  have homed : table.home row col = some (Packing.slot table.triangle row col inside) :=
    Packing.home_of_holds inside
  constructor
  · rintro ⟨row', col', covers, homed'⟩
    rcases Packing.home_eq_home homed homed' with ⟨rfl, rfl⟩ | ⟨symmetric, rfl, rfl⟩
    · exact Or.inl covers
    · exact Or.inr ⟨symmetric, covers⟩
  · rintro (covers | ⟨symmetric, covers⟩)
    · exact ⟨row, col, covers, homed⟩
    · exact ⟨col, row, covers, home_reflected symmetric inside⟩

theorem exists_counts_of_addresses (addressed : table.Addresses region place) :
    ∃ row col : Fin n, region.Covers row col ∧ table.home row col = some place ∧
      table.Counts region row col := by
  obtain ⟨row, col, covers, homed⟩ := addressed
  by_cases counts : table.Counts region row col
  · exact ⟨row, col, covers, homed, counts⟩
  · simp only [Counts, not_or, Decidable.not_not] at counts
    obtain ⟨outside, both⟩ := counts
    exact ⟨col, row, both, (Packing.home_transpose outside homed).2,
      Or.inl (Triangle.holds_transpose outside)⟩

end Positions

/-! ## Contents that are not looked at -/

/-- A release of the region takes the value of its entry `(row, col)`: the entry
is stored, or only its reflection is, and that is outside the region. -/
def Decides (table : Table α n) (region : Region) (row col : Nat) : Prop :=
  table.triangle.Holds row col ∨ (table.fill = .symmetric ∧ ¬ region.Covers col row)

theorem decides_of_counts {table : Table α n} {region : Region} {row col : Fin n}
    {place : Fin (Packing.triangular n)} (counts : table.Counts region row col)
    (homed : table.home row col = some place) : table.Decides region row col := by
  rcases counts with inside | alone
  · exact Or.inl inside
  · by_cases inside : table.triangle.Holds row col
    · exact Or.inl inside
    · exact Or.inr ⟨(Packing.home_transpose inside homed).1, alone⟩

/-- Views that agree on the entries that decide are committed alike. -/
theorem entries_settled_congr {table : Table α n} {region : Region} {view view' : View α}
    (fits : view.Fits region n) (fits' : view'.Fits region n)
    (sameAccess : view'.access = view.access)
    (agree : ∀ (i : Fin region.count) (j : Fin (region.width n)),
      table.Decides region (region.rowAt fits.1 i) (region.colAt fits.1 j) →
        view'.entry? i j = view.entry? i j) :
    (table.settled (.release region) view').entries =
      (table.settled (.release region) view).entries := by
  cases writes : view.access.writes with
  | false => rw [entries_settled_of_keeps writes, entries_settled_of_keeps (sameAccess ▸ writes)]
  | true =>
      have writes' : view'.access.writes = true := sameAccess ▸ writes
      apply entries_ext
      intro place
      by_cases addressed : table.Addresses region place
      · obtain ⟨row, col, covers, homed, counts⟩ := exists_counts_of_addresses addressed
        obtain ⟨i, j, rfl, rfl⟩ := (Region.covers_iff fits.1).mp covers
        apply Option.some.inj
        rw [get_settled_of_counts fits writes rfl rfl counts homed,
          get_settled_of_counts fits' writes' rfl rfl counts homed]
        exact agree i j (decides_of_counts counts homed)
      · rw [get_settled_of_not_addresses fits writes addressed,
          get_settled_of_not_addresses fits' writes' addressed]

/-! ## Blocks of rows -/

section Rows

variable {start count : Nat}

def valueUnderRows (table : Table α n) (start : Nat) (data : Grid α count n) (row col : Fin n)
    (inside : table.triangle.Holds row col) : α :=
  if own : start ≤ row ∧ row < start + count then
    data.entry ⟨row - start, by omega⟩ col
  else if reflected : table.fill = .symmetric ∧ start ≤ col ∧ col < start + count then
    data.entry ⟨col - start, by omega⟩ row
  else
    table.entries.get (Packing.slot table.triangle row col inside)

theorem get_settled_rows {table : Table α n} {view : View α} {data : Grid α count n}
    (fits : view.Fits (.rows start count) n) (writes : view.access.writes = true)
    (contents : ∀ (i : Fin count) (j : Fin n), view.entry? i j = some (data.entry i j))
    (row col : Fin n) (inside : table.triangle.Holds row col) :
    (table.settled (.release (.rows start count)) view).entries.get
        (Packing.slot table.triangle row col inside) =
      table.valueUnderRows start data row col inside := by
  have atCol : ∀ j : Fin n, (Region.rows start count).colAt fits.1 j = j := fun _ => rfl
  unfold valueUnderRows
  split
  · -- The entry belongs to the block.
    rename_i own
    obtain ⟨i, place, atRow⟩ := Region.exists_rowAt fits.1 row own
    have committed := get_settled_of_own fits writes atRow (atCol col) inside
    rw [contents i col] at committed
    rw [Option.some.inj committed]
    congr 1
    exact Fin.ext place
  · rename_i foreign
    split
    · -- Only its reflection does.
      rename_i reflected
      obtain ⟨symmetric, own⟩ := reflected
      obtain ⟨i, place, atRow⟩ := Region.exists_rowAt fits.1 col own
      have alone : ¬ (Region.rows start count).Covers row col := fun covers => foreign covers.1
      have committed :=
        get_settled_of_reflected fits writes symmetric atRow (atCol row) inside alone
      rw [contents i row] at committed
      rw [Option.some.inj committed]
      congr 1
      exact Fin.ext place
    · rename_i unreflected
      apply get_settled_of_not_addresses fits writes
      rw [addresses_slot_iff inside]
      rintro (covers | ⟨symmetric, covers⟩)
      · exact foreign covers.1
      · exact unreflected ⟨symmetric, covers.1⟩

/-- What the release of a view of the rows from `start` on, with the contents
`data`, makes of a table. -/
structure RowsReleased (before after : Table α n) (ticket : Ticket) (start : Nat)
    (access : Access) (data : Grid α count n) : Prop where
  fill : after.fill = before.fill
  triangle : after.triangle = before.triangle
  ledger : after.ledger = before.ledger.erase ticket
  committed : access ≠ .readOnly → ∀ (row col : Fin n) (inside : before.triangle.Holds row col),
    after.entries.get (Packing.slot before.triangle row col inside) =
      before.valueUnderRows start data row col inside
  kept : access = .readOnly → after.entries = before.entries

theorem rowsReleased_settled {table : Table α n} {access : Access} {ticket : Ticket}
    (within : (Region.rows start count).Within n) (data : Grid α count n) :
    table.RowsReleased
      (table.settled (.release (.rows start count))
        ⟨ticket, .rows start count, access, count, n, data⟩)
      ticket start access data where
  fill := rfl
  triangle := rfl
  ledger := rfl
  committed writable row col inside :=
    get_settled_rows ⟨within, rfl, rfl⟩ (Access.writes_of_ne_readOnly writable)
      (View.entry?_mk ticket (.rows start count) access data) row col inside
  kept reading := entries_settled_of_keeps (by rw [reading]; rfl)

/-- A block of rows that is lent and comes back with any contents is taken back;
a stored entry gets the value that the block has for it, or else the one that it
has for the reflection.  What else the block shows is not looked at. -/
theorem release_commits_rows [Zero α] {table lent later : Table α n} {access : Access}
    {ticket : Ticket} {view : View α}
    (granted : table.acquire (.rows start count) access ticket = .ok (view, lent))
    (outstanding : later.ledger.find? ticket = some ⟨ticket, .rows start count, access⟩)
    (data : Grid α count n) :
    (view.rows = count ∧ view.cols = n) ∧
      ∃ after,
        later.release (.rows start count) { view with rows := count, cols := n, data } =
          .ok (after, .ok ()) ∧
        later.RowsReleased after ticket start access data ∧
        ∀ other : Grid α count n,
          (∀ (i : Fin count) (j : Fin n), later.Decides (.rows start count) (start + i) j →
            other.entry i j = data.entry i j) →
          later.release (.rows start count) { view with rows := count, cols := n, data := other } =
            .ok (after, .ok ()) := by
  obtain ⟨within, _, rfl, _⟩ := acquire_eq_ok_iff.mp granted
  have fits : ∀ contents : Grid α count n,
      (⟨ticket, .rows start count, access, count, n, contents⟩ : View α).Fits
        (.rows start count) n := fun _ => ⟨within, rfl, rfl⟩
  have taken : ∀ contents : Grid α count n,
      later.takeBack (.release (.rows start count))
          ⟨ticket, .rows start count, access, count, n, contents⟩ =
        .ok (later.settled (.release (.rows start count))
          ⟨ticket, .rows start count, access, count, n, contents⟩, .ok ()) :=
    fun contents => takeBack_of_fits outstanding rfl (fits contents)
  refine ⟨⟨rfl, rfl⟩, _, taken data, rowsReleased_settled within data, ?_⟩
  intro other agree
  refine (taken other).trans ?_
  have entries : (later.settled (.release (.rows start count))
        ⟨ticket, .rows start count, access, count, n, other⟩).entries =
      (later.settled (.release (.rows start count))
        ⟨ticket, .rows start count, access, count, n, data⟩).entries := by
    apply entries_settled_congr (fits data) (fits other) rfl
    intro (i : Fin count) (j : Fin n) decides
    rw [View.entry?_mk, View.entry?_mk]
    exact congrArg some (agree i j decides)
  simp only [settled] at entries ⊢
  rw [entries]

theorem fits_countedByTens : 3 * (3 + 1) < Word.modulus := by decide

def countedByTens : Table Nat 3 where
  fill := .symmetric
  triangle := .lower
  entries := #v[10, 20, 30, 40, 50, 60]
  ledger := .empty
  fits := fits_countedByTens

/-- Of the first two rows the entry `(1, 0)` is stored, so that `(0, 1)` is not
looked at; `(0, 2)` is the reflection of a stored entry outside. -/
theorem stored_entry_wins_in_block :
    ∃ view lent after, countedByTens.acquire (.rows 0 2) .writeOnly 7 = .ok (view, lent) ∧
      lent.ledger.find? 7 = some ⟨7, .rows 0 2, .writeOnly⟩ ∧
      lent.release (.rows 0 2) { view with rows := 2, cols := 3, data := #v[1, 2, 3, 4, 5, 6] } =
        .ok (after, .ok ()) ∧
      after.entries.get (Packing.slot .lower 1 0 (by decide)) = 4 ∧
      after.entries.get (Packing.slot .lower 2 0 (by decide)) = 3 ∧
      after.entries.get (Packing.slot .lower 2 2 (by decide)) = 60 := by
  have within : (Region.rows 0 2).Within 3 := by decide
  have granted : countedByTens.acquire (.rows 0 2) .writeOnly 7 =
      .ok (countedByTens.lentView (.rows 0 2) within .writeOnly 7,
        countedByTens.withLease ⟨7, .rows 0 2, .writeOnly⟩) :=
    acquire_eq_ok_iff.mpr ⟨within, by simp [countedByTens, Ledger.empty], rfl, rfl⟩
  have outstanding : (countedByTens.withLease ⟨7, .rows 0 2, .writeOnly⟩).ledger.find? 7 =
      some ⟨7, .rows 0 2, .writeOnly⟩ := by decide
  obtain ⟨_, after, released, changed, _⟩ :=
    release_commits_rows granted outstanding #v[1, 2, 3, 4, 5, 6]
  have committed := changed.committed (by decide)
  exact ⟨_, _, after, granted, outstanding, released,
    (committed 1 0 (by decide)).trans (by decide), (committed 2 0 (by decide)).trans (by decide),
    (committed 2 2 (by decide)).trans (by decide)⟩

end Rows

/-! ## Columns -/

section Column

variable {own start count : Nat}

def valueUnderColumn (table : Table α n) (own start : Nat) (data : Grid α count 1)
    (row col : Fin n) (inside : table.triangle.Holds row col) : α :=
  if direct : (col : Nat) = own ∧ start ≤ row ∧ row < start + count then
    data.entry ⟨row - start, by omega⟩ ⟨0, Nat.one_pos⟩
  else if reflected : table.fill = .symmetric ∧
      (row : Nat) = own ∧ start ≤ col ∧ col < start + count then
    data.entry ⟨col - start, by omega⟩ ⟨0, Nat.one_pos⟩
  else
    table.entries.get (Packing.slot table.triangle row col inside)

theorem get_settled_column {table : Table α n} {view : View α} {data : Grid α count 1}
    (fits : view.Fits (.column own start count) n) (writes : view.access.writes = true)
    (contents : ∀ i : Fin count, view.entry? i (0 : Fin 1) = some (data.entry i 0))
    (row col : Fin n) (inside : table.triangle.Holds row col) :
    (table.settled (.release (.column own start count)) view).entries.get
        (Packing.slot table.triangle row col inside) =
      table.valueUnderColumn own start data row col inside := by
  have atCol : ∀ col : Fin n, (col : Nat) = own →
      (Region.column own start count).colAt fits.1 (0 : Fin 1) = col :=
    fun col same => Fin.ext same.symm
  unfold valueUnderColumn
  split
  · -- The entry belongs to the column.
    rename_i direct
    obtain ⟨same, has⟩ := direct
    obtain ⟨i, place, atRow⟩ := Region.exists_rowAt fits.1 row has
    have committed := get_settled_of_own fits writes atRow (atCol col same) inside
    rw [contents i] at committed
    rw [Option.some.inj committed]
    congr 1
    exact Fin.ext place
  · rename_i foreign
    split
    · -- The column bends at the diagonal and goes on in the row of the entry.
      rename_i reflected
      obtain ⟨symmetric, same, has⟩ := reflected
      obtain ⟨i, place, atRow⟩ := Region.exists_rowAt fits.1 col has
      have alone : ¬ (Region.column own start count).Covers row col :=
        fun covers => foreign ⟨covers.2, covers.1⟩
      have committed :=
        get_settled_of_reflected fits writes symmetric atRow (atCol row same) inside alone
      rw [contents i] at committed
      rw [Option.some.inj committed]
      congr 1
      exact Fin.ext place
    · rename_i unreflected
      apply get_settled_of_not_addresses fits writes
      rw [addresses_slot_iff inside]
      rintro (covers | ⟨symmetric, covers⟩)
      · exact foreign ⟨covers.2, covers.1⟩
      · exact unreflected ⟨symmetric, covers.2, covers.1⟩

/-- What the release of a view of the column `own` from the row `start` on, with
the contents `data`, makes of a table. -/
structure ColumnReleased (before after : Table α n) (ticket : Ticket) (own start : Nat)
    (access : Access) (data : Grid α count 1) : Prop where
  fill : after.fill = before.fill
  triangle : after.triangle = before.triangle
  ledger : after.ledger = before.ledger.erase ticket
  committed : access ≠ .readOnly → ∀ (row col : Fin n) (inside : before.triangle.Holds row col),
    after.entries.get (Packing.slot before.triangle row col inside) =
      before.valueUnderColumn own start data row col inside
  /-- Two values of the column never have one position. -/
  apart : ∀ (i i' : Fin count) (row row' col : Fin n) (place : Fin (Packing.triangular n)),
    (row : Nat) = start + i → (row' : Nat) = start + i' → (col : Nat) = own →
      before.home row col = some place → before.home row' col = some place → i = i'
  /-- A value whose entry has a position is therefore found there. -/
  placed : access ≠ .readOnly → ∀ (i : Fin count) (row col : Fin n)
    (place : Fin (Packing.triangular n)), (row : Nat) = start + i → (col : Nat) = own →
      before.home row col = some place → after.entries.get place = data.entry i 0
  kept : access = .readOnly → after.entries = before.entries

theorem columnReleased_settled {table : Table α n} {access : Access} {ticket : Ticket}
    (within : (Region.column own start count).Within n) (data : Grid α count 1) :
    table.ColumnReleased
      (table.settled (.release (.column own start count))
        ⟨ticket, .column own start count, access, count, 1, data⟩)
      ticket own start access data where
  fill := rfl
  triangle := rfl
  ledger := rfl
  committed writable row col inside :=
    get_settled_column ⟨within, rfl, rfl⟩ (Access.writes_of_ne_readOnly writable)
      (fun i => View.entry?_mk ticket (.column own start count) access data i 0) row col inside
  apart i i' row row' col place atRow atRow' _ homed homed' := by
    have same : (row : Nat) = row' := congrArg Fin.val (Packing.home_column_inj homed homed')
    exact Fin.ext (by omega)
  placed writable i row col place atRow atCol homed := by
    have fits : (⟨ticket, .column own start count, access, count, 1, data⟩ : View α).Fits
        (.column own start count) n := ⟨within, rfl, rfl⟩
    have counts : table.Counts (.column own start count) row col := by
      rw [atCol]
      exact counts_column table row own start count
    have atRow' : (Region.column own start count).rowAt within i = row := Fin.ext atRow.symm
    have atCol' : (Region.column own start count).colAt within (0 : Fin 1) = col :=
      Fin.ext atCol.symm
    have committed := get_settled_of_counts fits (Access.writes_of_ne_readOnly writable)
      atRow' atCol' counts homed
    rw [View.entry?_mk ticket _ access data i 0] at committed
    exact Option.some.inj committed
  kept reading := entries_settled_of_keeps (by rw [reading]; rfl)

/-- Part of a column that is lent and comes back with any contents is taken back.
Each of its values goes to the position of its entry, which on a symmetric table
is in the column on one side of the diagonal and in the row on the other, and
all other positions keep what they had. -/
theorem release_commits_column [Zero α] {table lent later : Table α n} {access : Access}
    {ticket : Ticket} {view : View α}
    (granted : table.acquire (.column own start count) access ticket = .ok (view, lent))
    (outstanding : later.ledger.find? ticket = some ⟨ticket, .column own start count, access⟩)
    (data : Grid α count 1) :
    (view.rows = count ∧ view.cols = 1) ∧
      ∃ after,
        later.release (.column own start count) { view with rows := count, cols := 1, data } =
          .ok (after, .ok ()) ∧
        later.ColumnReleased after ticket own start access data := by
  obtain ⟨within, _, rfl, _⟩ := acquire_eq_ok_iff.mp granted
  have fits : (⟨ticket, .column own start count, access, count, 1, data⟩ : View α).Fits
      (.column own start count) n := ⟨within, rfl, rfl⟩
  have taken : later.takeBack (.release (.column own start count))
      ⟨ticket, .column own start count, access, count, 1, data⟩ = _ :=
    takeBack_of_fits outstanding rfl fits
  exact ⟨⟨rfl, rfl⟩, _, taken, columnReleased_settled within data⟩

/-- The middle column of a symmetric table goes to the entries `(1, 0)`, `(1, 1)`
and `(2, 1)`, of which the first is the reflection of `(0, 1)`. -/
theorem column_bends_at_diagonal :
    ∃ view lent after, countedByTens.acquire (.column 1 0 3) .readWrite 7 = .ok (view, lent) ∧
      lent.ledger.find? 7 = some ⟨7, .column 1 0 3, .readWrite⟩ ∧
      lent.release (.column 1 0 3) { view with rows := 3, cols := 1, data := #v[1, 2, 3] } =
        .ok (after, .ok ()) ∧
      after.entries.get (Packing.slot .lower 1 0 (by decide)) = 1 ∧
      after.entries.get (Packing.slot .lower 1 1 (by decide)) = 2 ∧
      after.entries.get (Packing.slot .lower 2 1 (by decide)) = 3 ∧
      after.entries.get (Packing.slot .lower 2 0 (by decide)) = 40 := by
  have within : (Region.column 1 0 3).Within 3 := by decide
  have granted : countedByTens.acquire (.column 1 0 3) .readWrite 7 =
      .ok (countedByTens.lentView (.column 1 0 3) within .readWrite 7,
        countedByTens.withLease ⟨7, .column 1 0 3, .readWrite⟩) :=
    acquire_eq_ok_iff.mpr ⟨within, by simp [countedByTens, Ledger.empty], rfl, rfl⟩
  have outstanding : (countedByTens.withLease ⟨7, .column 1 0 3, .readWrite⟩).ledger.find? 7 =
      some ⟨7, .column 1 0 3, .readWrite⟩ := by decide
  obtain ⟨_, after, released, changed⟩ :=
    release_commits_column granted outstanding #v[1, 2, 3]
  have committed := changed.committed (by decide)
  exact ⟨_, _, after, granted, outstanding, released,
    (committed 1 0 (by decide)).trans (by decide), (committed 1 1 (by decide)).trans (by decide),
    (committed 2 1 (by decide)).trans (by decide), (committed 2 0 (by decide)).trans (by decide)⟩

end Column

end Table

end HalfMatrix
