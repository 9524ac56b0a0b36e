import HalfMatrix.Binary.Basic
import HalfMatrix.Proofs.Dense
import HalfMatrix.Proofs.Handovers

/-!
# Every way to write one entry

An entry is written directly, or through a view that is lent for reading and
writing, edited in one place and released.  A release commits every value of
the view, and not only the edited one; the others are those that the table has
already.  So the edit is all that a release does, unless the entry is stored as
a reflection that belongs to the view too: then the value of the reflection is
the one that stays.
-/

set_option autoImplicit false

namespace HalfMatrix

/-! ## Editing a view -/

namespace View

variable {α : Type}

theorem setAt?_of_single_column {view : View α} {index : Nat} (single : view.cols = 1)
    (bound : index < view.rows) (value : α) :
    view.setAt? index value = view.setEntry? index 0 value := by
  have inside : index < view.rows ∧ 0 < view.cols := ⟨bound, single ▸ Nat.one_pos⟩
  have place : index * view.cols + 0 = index := by rw [single, Nat.mul_one, Nat.add_zero]
  unfold setEntry?
  rw [if_pos inside, place]

end View

namespace Table

variable {α : Type} {n : Nat}

/-- The table with `value` at the home of the dense entry `(row, col)`, if it has one. -/
def written (table : Table α n) (row col : Fin n) (value : α) : Table α n :=
  match table.home row col with
  | some place => { table with entries := store table.entries [(place, value)] }
  | none => table

theorem written_of_home {table : Table α n} {row col : Fin n}
    {place : Fin (Packing.triangular n)} (homed : table.home row col = some place) (value : α) :
    table.written row col value =
      { table with entries := table.entries.set place value place.isLt } := by
  simp only [written, homed]
  rfl

theorem written_of_home_eq_none {table : Table α n} {row col : Fin n}
    (homeless : table.home row col = none) (value : α) :
    table.written row col value = table := by
  simp only [written, homeless]

theorem set_eq (table : Table α n) (row col : Fin n) (value : α) :
    table.set row col value =
      if table.home row col = none then .error (.outOfRange .element (row * n + col) n)
      else .ok (table.written row col value) := by
  simp only [set, locate, row.isLt, col.isLt, dif_pos, bind, Except.bind]
  cases homed : table.home row col with
  | none => rfl
  | some place =>
      rw [written_of_home homed]
      rfl

/-! ## One edit among the values of a region -/

section Commits

variable [Zero α]

def editedWindow (table : Table α n) (region : Region) (within : region.Within n)
    (i : Fin region.count) (j : Fin (region.width n)) (value : α) :
    Grid α region.count (region.width n) :=
  (table.window region within).set (Grid.offset i j) value

variable {table : Table α n} {region : Region} {within : region.Within n}
  {i : Fin region.count} {j : Fin (region.width n)} {value : α}

/-- The write of the edited entry apart, the values written are there already. -/
theorem get_of_mem_commitWrites_edited {place : Fin (Packing.triangular n)} {held : α}
    (mem : (place, held) ∈ table.commitWrites region within
      (table.editedWindow region within i j value))
    (other : table.Counts region (region.rowAt within i) (region.colAt within j) →
      table.home (region.rowAt within i) (region.colAt within j) ≠ some place) :
    table.entries.get place = held := by
  obtain ⟨row, col, cell, homed, counts⟩ := mem_commitWrites_iff.mp mem
  obtain ⟨i', j', rfl, rfl, shown⟩ := mem_cells.mp cell
  rw [editedWindow, Grid.entry_set, if_neg, window, Grid.entry_ofFn, entry_of_home homed] at shown
  · exact shown
  · rintro ⟨rfl, rfl⟩
    exact other counts homed

/-- Committing a region in which one entry was edited writes this entry, if it counts. -/
theorem commit_edited (table : Table α n) (region : Region) (within : region.Within n)
    (i : Fin region.count) (j : Fin (region.width n)) (value : α) :
    table.commit region within (table.editedWindow region within i j value) =
      if table.Counts region (region.rowAt within i) (region.colAt within j) then
        table.written (region.rowAt within i) (region.colAt within j) value
      else table := by
  by_cases counts : table.Counts region (region.rowAt within i) (region.colAt within j)
  · rw [if_pos counts]
    cases homed : table.home (region.rowAt within i) (region.colAt within j) with
    | none =>
        rw [written_of_home_eq_none homed, commit, store_eq_self]
        intro place held mem
        exact get_of_mem_commitWrites_edited mem fun _ => by simp [homed]
    | some place =>
        rw [written_of_home homed, commit]
        congr 1
        apply entries_ext
        intro place'
        rw [get_store]
        by_cases same : place' = place
        · subst same
          rw [lastWrite_commitWrites_of_counts counts homed, editedWindow, Grid.entry_set,
            if_pos ⟨rfl, rfl⟩]
          exact (Vector.getElem_set_self place'.isLt).symm
        · have apart : (place : Nat) ≠ place' := fun clash => same (Fin.ext clash.symm)
          have kept : (table.entries.set place value place.isLt).get place' =
              table.entries.get place' :=
            Vector.getElem_set_ne place.isLt place'.isLt apart
          rw [kept]
          cases last : lastWrite (table.commitWrites region within
              (table.editedWindow region within i j value)) place' with
          | none => rfl
          | some held =>
              refine (get_of_mem_commitWrites_edited (mem_of_lastWrite last) fun _ => ?_).symm
              rw [homed]
              exact fun clash => same (Option.some.inj clash).symm
  · rw [if_neg counts, commit, store_eq_self]
    intro place held mem
    exact get_of_mem_commitWrites_edited mem fun counts' => absurd counts' counts

/-! ## Writing through a view -/

/-- The table and the answer after a view of a region was lent for reading and
writing, edited and released. -/
def editThrough (table : Table α n) (region : Region) (ticket : Ticket)
    (edit : View α → Option (View α)) : Except Fault (Table α n × Except TableError Unit) :=
  match table.acquire region .readWrite ticket with
  | .error error => .ok (table, .error error)
  | .ok (view, lent) =>
      match edit view with
      | some edited => lent.release region edited
      | none => .error .indexOutOfBounds

theorem editThrough_eq_commit {ticket : Ticket} {edit : View α → Option (View α)}
    {data : Grid α region.count (region.width n)} (free : table.ledger = .empty)
    (edited : edit (table.lentView region within .readWrite ticket) =
      some { table.lentView region within .readWrite ticket with data }) :
    table.editThrough region ticket edit = .ok (table.commit region within data, .ok ()) := by
  have granted : table.acquire region .readWrite ticket =
      .ok (table.lentView region within .readWrite ticket,
        table.withLease ⟨ticket, region, .readWrite⟩) :=
    acquire_eq_ok_iff.mpr ⟨within, by simp [free, Ledger.empty], rfl, rfl⟩
  obtain ⟨found, erased⟩ := table.ledger.erase_granted ⟨ticket, region, .readWrite⟩
    (by simp [free, Ledger.empty])
  have fits : ({ table.lentView region within .readWrite ticket with data } : View α).Fits
      region n := ⟨within, rfl, rfl⟩
  have released : (table.withLease ⟨ticket, region, .readWrite⟩).takeBack (.release region)
      { table.lentView region within .readWrite ticket with data } = _ :=
    takeBack_of_fits found rfl fits
  have settled : (table.withLease ⟨ticket, region, .readWrite⟩).settled (.release region)
      { table.lentView region within .readWrite ticket with data } =
      table.commit region within data := by
    have writes : (table.withLease ⟨ticket, region, .readWrite⟩).returnWrites (.release region)
        { table.lentView region within .readWrite ticket with data } =
        table.commitWrites region within data :=
      dif_pos fits
    rw [Table.settled, writes, commit, withoutLease]
    congr 1
  simp only [editThrough, granted, edited]
  exact released.trans (by rw [settled])

theorem setEntry?_lentView (table : Table α n) (region : Region) (within : region.Within n)
    (i : Fin region.count) (j : Fin (region.width n)) (value : α) (ticket : Ticket) :
    View.setEntry? (table.lentView region within .readWrite ticket) i j value =
      some { table.lentView region within .readWrite ticket with
        data := table.editedWindow region within i j value } := by
  have inside : (i : Nat) < (table.lentView region within .readWrite ticket).rows ∧
      (j : Nat) < (table.lentView region within .readWrite ticket).cols := ⟨i.isLt, j.isLt⟩
  unfold View.setEntry?
  rw [if_pos inside]
  exact dif_pos (Grid.offset i j).isLt

/-- Through a view an entry is written, if it counts, and nothing else. -/
theorem editThrough_eq (free : table.ledger = .empty) {edit : View α → Option (View α)}
    {ticket : Ticket} {row col : Fin n} (atRow : region.rowAt within i = row)
    (atCol : region.colAt within j = col)
    (edits : edit (table.lentView region within .readWrite ticket) =
      View.setEntry? (table.lentView region within .readWrite ticket) i j value) :
    table.editThrough region ticket edit =
      .ok (if table.Counts region row col then table.written row col value else table, .ok ()) := by
  subst atRow atCol
  have edited := edits.trans (setEntry?_lentView table region within i j value ticket)
  rw [editThrough_eq_commit free edited, commit_edited]

theorem editThrough_rows (free : table.ledger = .empty) (row col : Fin n) (value : α)
    (ticket : Ticket) {start count : Nat} (lower : start ≤ row) (upper : row < start + count)
    (within : start + count ≤ n) :
    table.editThrough (.rows start count) ticket
        (fun view => view.setEntry? (row - start) col value) =
      .ok (if table.Counts (.rows start count) row col then table.written row col value
        else table, .ok ()) := by
  let i : Fin (Region.rows start count).count := ⟨row - start, by simp only [Region.count]; omega⟩
  have atRow : (Region.rows start count).rowAt within i = row := Fin.ext (Nat.add_sub_cancel' lower)
  have atCol : (Region.rows start count).colAt within col = col := rfl
  exact editThrough_eq free atRow atCol rfl

theorem editThrough_column (free : table.ledger = .empty) (row col : Fin n) (value : α)
    (ticket : Ticket) {start count : Nat} (lower : start ≤ row) (upper : row < start + count)
    (within : start + count ≤ n) :
    table.editThrough (.column col start count) ticket
        (fun view => view.setAt? (row - start) value) =
      .ok (table.written row col value, .ok ()) := by
  have inside : (Region.column col start count).Within n := ⟨col.isLt, within⟩
  let i : Fin (Region.column col start count).count :=
    ⟨row - start, by simp only [Region.count]; omega⟩
  have atRow : (Region.column col start count).rowAt inside i = row :=
    Fin.ext (Nat.add_sub_cancel' lower)
  have atCol : (Region.column col start count).colAt inside ⟨0, Nat.one_pos⟩ = col := rfl
  rw [editThrough_eq free atRow atCol (View.setAt?_of_single_column rfl i.isLt value),
    if_pos (counts_column table row col start count)]

/-! ## All ways together -/

/-- Whichever way `value` is written at the dense entry `(row, col)`, the table
becomes `written row col value`. -/
structure SingleWritesAgree (table : Table α n) (row col : Fin n) (value : α) : Prop where
  /-- An entry with a home is written directly. -/
  direct : table.fill = .symmetric ∨ table.triangle.Holds row col →
    table.set row col value = .ok (table.written row col value)
  /-- The half of a triangular table that is not stored cannot be written. -/
  unstored : table.fill = .triangular → ¬ table.triangle.Holds row col →
    table.set row col value = .error (.outOfRange .element (row * n + col) n) ∧
      table.written row col value = table
  /-- The entry is written through a view of its row. -/
  throughRow : ∀ ticket,
    table.editThrough (.rows row 1) ticket (fun view => view.setEntry? 0 col value) =
      .ok (table.written row col value, .ok ())
  /-- The entry is written through a view of any part of its column. -/
  throughColumn : ∀ (ticket : Ticket) (start count : Nat), start ≤ row → row < start + count →
    start + count ≤ n →
    table.editThrough (.column col start count) ticket
        (fun view => view.setAt? (row - start) value) =
      .ok (table.written row col value, .ok ())
  /-- The entry is written through a block of rows, unless its reflection is what
  is stored and the block has that too. -/
  throughBlock : ∀ (ticket : Ticket) (start count : Nat), start ≤ row → row < start + count →
    start + count ≤ n →
    table.editThrough (.rows start count) ticket
        (fun view => view.setEntry? (row - start) col value) =
      .ok (if table.fill = .symmetric ∧ ¬ table.triangle.Holds row col ∧
          start ≤ col ∧ col < start + count then table
        else table.written row col value, .ok ())

/-- The ways to write an entry of a table of which nothing is lent agree. -/
theorem single_writes_agree (table : Table α n) (free : table.ledger = .empty)
    (row col : Fin n) (value : α) : table.SingleWritesAgree row col value where
  direct homed := by
    rw [set_eq, if_neg]
    intro homeless
    obtain ⟨triangular, outside⟩ := home_eq_none_iff.mp homeless
    rcases homed with symmetric | inside
    · rw [triangular] at symmetric
      cases symmetric
    · exact outside inside
  unstored triangular outside := by
    have homeless := home_eq_none_iff.mpr ⟨triangular, outside⟩
    exact ⟨by rw [set_eq, if_pos homeless], written_of_home_eq_none homeless value⟩
  throughRow ticket := by
    have within : (row : Nat) + 1 ≤ n := row.isLt
    have through := editThrough_rows free row col value ticket (Nat.le_refl (row : Nat))
      (Nat.lt_succ_self row) within
    rw [Nat.sub_self, if_pos (counts_row table row col)] at through
    exact through
  throughColumn ticket start count lower upper within :=
    editThrough_column free row col value ticket lower upper within
  throughBlock ticket start count lower upper within := by
    rw [editThrough_rows free row col value ticket lower upper within]
    congr 2
    by_cases counts : table.Counts (.rows start count) row col
    · rw [if_pos counts, if_neg]
      rintro ⟨_, outside, has⟩
      exact counts.elim outside fun alone => alone ⟨has, trivial⟩
    · have outside : ¬ table.triangle.Holds row col := fun inside => counts (Or.inl inside)
      have both : (Region.rows start count).Covers col row :=
        Decidable.not_not.mp fun alone => counts (Or.inr alone)
      rw [if_neg counts]
      cases fill : table.fill with
      | symmetric => rw [if_pos ⟨rfl, outside, both.1⟩]
      | triangular =>
          rw [if_neg (by simp), written_of_home_eq_none (home_eq_none_iff.mpr ⟨fill, outside⟩)]

end Commits

def smallSymmetric : Table (Binary .double) 3 := zeroed .symmetric .lower 3 (by decide)

/-- The entry above the diagonal is written through its row, but not through both rows. -/
theorem reflection_lost_in_block :
    smallSymmetric.ledger = .empty ∧
      smallSymmetric.SingleWritesAgree 0 1 (.ofMagnitude false 1) ∧
      smallSymmetric.editThrough (.rows 0 1) 7
          (fun view => view.setEntry? 0 1 (.ofMagnitude false 1)) =
        .ok (smallSymmetric.written 0 1 (.ofMagnitude false 1), .ok ()) ∧
      smallSymmetric.editThrough (.rows 0 2) 7
          (fun view => view.setEntry? 0 1 (.ofMagnitude false 1)) =
        .ok (smallSymmetric, .ok ()) ∧
      (smallSymmetric.written 0 1 (.ofMagnitude false 1)).entries ≠ smallSymmetric.entries := by
  have agree := single_writes_agree smallSymmetric rfl 0 1 (.ofMagnitude false 1)
  exact ⟨rfl, agree, agree.throughRow 7,
    agree.throughBlock 7 0 2 (by decide) (by decide) (by decide), by decide⟩

end Table

end HalfMatrix
