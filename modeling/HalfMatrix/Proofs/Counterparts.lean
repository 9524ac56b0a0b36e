import HalfMatrix.Proofs.Dense
import HalfMatrix.Proofs.Handovers
import HalfMatrix.Print.Printer

/-!
# The two ways to store a symmetric table

Two symmetric tables are counterparts if they show the same matrix and hold the
same leases, although they store opposite triangles.  Whatever is done to both
has the same outcome and leaves counterparts.  Only a commit asks for something
in return: where a block of rows has an entry together with its reflection, it
must have one value for both, since either of them may be the stored one.
-/

set_option autoImplicit false

namespace HalfMatrix

/-- Both computations fail for the same cause, or both succeed with related results. -/
inductive Alike {ε α β : Type} (related : α → β → Prop) : Except ε α → Except ε β → Prop
  | error (cause : ε) : Alike related (.error cause) (.error cause)
  | ok {left : α} {right : β} (same : related left right) : Alike related (.ok left) (.ok right)

theorem Alike.cases {ε α β : Type} {related : α → β → Prop} {left : Except ε α}
    {right : Except ε β} (alike : Alike related left right) :
    (∃ cause, left = .error cause ∧ right = .error cause) ∨
      ∃ one other, left = .ok one ∧ right = .ok other ∧ related one other := by
  cases alike with
  | error cause => exact Or.inl ⟨cause, rfl, rfl⟩
  | ok same => exact Or.inr ⟨_, _, rfl, rfl, same⟩

/-- As a view of this region the view has one value for each pair of
reflections inside a block of rows. -/
def View.Mirrored {α : Type} (view : View α) : Region → Prop
  | .rows start count => ∀ i < count, ∀ j < count,
      view.entry? i (start + j) = view.entry? j (start + i)
  | .column _ _ _ => True

instance {α : Type} [DecidableEq α] (view : View α) (region : Region) :
    Decidable (view.Mirrored region) :=
  match region with
  | .rows start count => inferInstanceAs (Decidable (∀ i < count, ∀ j < count,
      view.entry? i (start + j) = view.entry? j (start + i)))
  | .column _ _ _ => inferInstanceAs (Decidable True)

theorem View.Mirrored.data {α : Type} {n : Nat} {view : View α} {region : Region}
    (mirrored : view.Mirrored region) (fits : view.Fits region n) :
    region.Mirrored fits.1 (view.data.cast (by rw [fits.2.1, fits.2.2])) := by
  obtain ⟨ticket, own, access, rows, cols, data⟩ := view
  obtain ⟨within, sameRows, sameCols⟩ := fits
  simp only at sameRows sameCols
  subst sameRows sameCols
  cases region with
  | column col start count => exact Region.mirrored_column data
  | rows start count =>
      intro i j i' j' crossed crossed'
      have atCol : start + (i' : Nat) = j := congrArg Fin.val crossed
      have atCol' : (j' : Nat) = start + i := congrArg Fin.val crossed'
      have same := mirrored i i.isLt i' i'.isLt
      rw [atCol, ← atCol'] at same
      simp only [View.entry?] at same
      rw [dif_pos ⟨i.isLt, j.isLt⟩, dif_pos ⟨i'.isLt, j'.isLt⟩] at same
      exact Option.some.inj same

namespace Table

variable {α : Type} {n : Nat}

structure Counterpart [Zero α] (left right : Table α n) : Prop where
  symmetric : left.fill = .symmetric
  fill : right.fill = left.fill
  triangle : right.triangle = left.triangle.opposite
  ledger : right.ledger = left.ledger
  entry : ∀ row col, right.entry row col = left.entry row col

namespace Counterpart

section Entries

variable [Zero α] {left right : Table α n}

/-- A symmetric table of which nothing is lent is a counterpart of what the
change of triangle makes of it. -/
theorem of_toTriangle {table : Table α n} (symmetric : table.fill = .symmetric)
    (idle : table.ledger = .empty) :
    Counterpart table (table.toTriangle table.triangle.opposite) := by
  have other : table.triangle.opposite ≠ table.triangle := by
    cases table.triangle <;> decide
  refine ⟨symmetric, ?_, ?_, ?_, entry_toTriangle symmetric _⟩
  · simp only [toTriangle, if_neg other, zeroed]
  · simp only [toTriangle, if_neg other, zeroed]
  · simp only [toTriangle, if_neg other, zeroed, idle]

theorem symmetric' (same : Counterpart left right) : right.fill = .symmetric :=
  same.fill.trans same.symmetric

theorem isSymmetric (same : Counterpart left right) :
    right.isSymmetric = left.isSymmetric := by
  simp only [Table.isSymmetric, same.fill]

theorem home_eq_home (same : Counterpart left right) (row col row' col' : Fin n) :
    right.home row col = right.home row' col' ↔ left.home row col = left.home row' col' := by
  simp only [home, same.fill, same.symmetric, Packing.home_eq_home_iff]

/-! ## Reading and writing entries -/

theorem get (same : Counterpart left right) (row col : Nat) :
    right.get row col = left.get row col := by
  simp only [Table.get, same.entry]

theorem toGrid (same : Counterpart left right) : right.toGrid = left.toGrid := by
  simp only [Table.toGrid, funext fun row => funext (same.entry row)]

theorem window (same : Counterpart left right) (region : Region) (within : region.Within n) :
    right.window region within = left.window region within := by
  simp only [Table.window, same.entry]

theorem set (same : Counterpart left right) (row col : Nat) (value : α) :
    Alike Counterpart (left.set row col value) (right.set row col value) := by
  simp only [Table.set, bind, Except.bind]
  cases located : locate n row col with
  | error cause => exact .error cause
  | ok entry =>
      obtain ⟨row, col⟩ := entry
      obtain ⟨place, homed⟩ := exists_home same.symmetric row col
      obtain ⟨place', homed'⟩ := exists_home same.symmetric' row col
      simp only [homed, homed']
      refine .ok ⟨same.symmetric, same.fill, same.triangle, same.ledger, ?_⟩
      intro row' col'
      rw [entry_write homed, entry_write homed', same.entry]
      simp only [same.home_eq_home]

theorem setAll (same : Counterpart left right) (value : α) :
    Counterpart (left.setAll value) (right.setAll value) := by
  refine ⟨same.symmetric, same.fill, same.triangle, same.ledger, ?_⟩
  intro row col
  rw [entry_setAll same.symmetric, entry_setAll same.symmetric']

/-! ## Lending and taking back -/

theorem withLedger (same : Counterpart left right) (ledger : Ledger) :
    Counterpart { left with ledger } { right with ledger } :=
  ⟨same.symmetric, same.fill, same.triangle, rfl, same.entry⟩

theorem acquire (same : Counterpart left right) (region : Region) (access : Access)
    (ticket : Ticket) :
    Alike (fun lent lent' : View α × Table α n => lent'.1 = lent.1 ∧ Counterpart lent.2 lent'.2)
      (left.acquire region access ticket) (right.acquire region access ticket) := by
  unfold Table.acquire
  by_cases within : region.Within n
  · simp only [dif_pos within, same.ledger, same.isSymmetric, same.window]
    cases left.ledger.grant left.isSymmetric ⟨ticket, region, access⟩ with
    | error cause => exact .error _
    | ok ledger => exact .ok ⟨rfl, same.withLedger ledger⟩
  · simp only [dif_neg within]
    exact .error _

theorem commit (same : Counterpart left right) {region : Region} {within : region.Within n}
    {data : Grid α region.count (region.width n)} (mirrored : region.Mirrored within data) :
    Counterpart (left.commit region within data) (right.commit region within data) := by
  have kept : (left.commit region within data).fill = .symmetric := same.symmetric
  have kept' : (right.commit region within data).fill = .symmetric := same.symmetric'
  refine ⟨same.symmetric, same.fill, same.triangle, same.ledger, ?_⟩
  intro row col
  by_cases covers : region.Covers row col
  · obtain ⟨i, j, rfl, rfl⟩ := (Region.covers_iff within).mp covers
    rw [entry_commit_of_mirrored same.symmetric mirrored,
      entry_commit_of_mirrored same.symmetric' mirrored]
  · by_cases covers' : region.Covers col row
    · obtain ⟨i, j, rfl, rfl⟩ := (Region.covers_iff within).mp covers'
      rw [entry_comm kept, entry_comm kept', entry_commit_of_mirrored same.symmetric mirrored,
        entry_commit_of_mirrored same.symmetric' mirrored]
    · rw [entry_commit_of_not_covers covers covers', entry_commit_of_not_covers covers covers',
        same.entry]

theorem settled (same : Counterpart left right) {how : Return} {view : View α}
    (mirrored : how.commits view = true → view.Mirrored (how.region view)) :
    Counterpart (left.settled how view) (right.settled how view) := by
  have erased : right.ledger.erase view.ticket = left.ledger.erase view.ticket := by
    rw [same.ledger]
  by_cases fits : view.Fits (how.region view) n
  · by_cases commits : how.commits view = true
    · have committed := same.commit ((mirrored commits).data fits)
      have shape : ∀ table : Table α n, table.settled how view =
          { table.commit (how.region view) fits.1
              (view.data.cast (by rw [fits.2.1, fits.2.2])) with
            ledger := table.ledger.erase view.ticket } := by
        intro table
        simp only [Table.settled, returnWrites, dif_pos fits, if_pos commits]
        rfl
      rw [shape, shape, erased]
      exact committed.withLedger _
    · have shape : ∀ table : Table α n, table.settled how view =
          { table with ledger := table.ledger.erase view.ticket } := by
        intro table
        simp only [Table.settled, returnWrites, dif_pos fits, if_neg commits]
        rfl
      rw [shape, shape, erased]
      exact same.withLedger _
  · have shape : ∀ table : Table α n, table.settled how view =
        { table with ledger := table.ledger.erase view.ticket } := by
      intro table
      simp only [Table.settled, returnWrites, dif_neg fits]
      rfl
    rw [shape, shape, erased]
    exact same.withLedger _

theorem takeBack (same : Counterpart left right) (how : Return) (view : View α)
    (mirrored : ∀ after, left.takeBack how view = .ok (after, .ok ()) →
      how.commits view = true → view.Mirrored (how.region view)) :
    Alike (fun taken taken' : Table α n × Except TableError Unit =>
        Counterpart taken.1 taken'.1 ∧ taken'.2 = taken.2)
      (left.takeBack how view) (right.takeBack how view) := by
  have found' : right.ledger.find? view.ticket = left.ledger.find? view.ticket := by
    rw [same.ledger]
  cases found : left.ledger.find? view.ticket with
  | none =>
      rw [takeBack_of_unknown how found, takeBack_of_unknown how (found'.trans found)]
      exact .ok ⟨same, rfl⟩
  | some lease =>
      by_cases region : lease.region = how.region view
      · by_cases unfit : how.commits view = true ∧ ¬ view.Fits lease.region n
        · rw [takeBack_of_same found region, takeBack_of_same (found'.trans found) region,
            if_pos unfit, if_pos unfit]
          exact .error _
        · rw [takeBack_of_same found region, if_neg unfit] at mirrored ⊢
          rw [takeBack_of_same (found'.trans found) region, if_neg unfit]
          exact .ok ⟨same.settled (mirrored _ rfl), rfl⟩
      · rw [takeBack_of_different found region, takeBack_of_different (found'.trans found) region]
        refine .ok ⟨?_, rfl⟩
        have erased := same.withLedger (left.ledger.erase view.ticket)
        simp only [withoutLease, same.ledger]
        exact erased

end Entries

/-! ## Showing -/

variable {precision : Precision} {left right : Table (Binary precision) n}

theorem display (same : Counterpart left right) : right.display = left.display := by
  simp only [Table.display, same.toGrid]

theorem printRegion (same : Counterpart left right) (printer : Printer) (outlets : Outlets)
    (region : Region) (title : String) (ticket : Ticket) :
    Alike (fun printed printed' :
        Table (Binary precision) n × Printer.Printed (Except Printer.RegionError Unit) =>
        Counterpart printed.1 printed'.1 ∧ printed'.2 = printed.2)
      (printer.printRegion outlets left region title ticket)
      (printer.printRegion outlets right region title ticket) := by
  unfold Printer.printRegion
  rcases (same.acquire region .readOnly ticket).cases with
    ⟨cause, refused, refused'⟩ |
    ⟨⟨view, lent⟩, ⟨view', lent'⟩, granted, granted', sameView, sameLent⟩
  · rw [refused, refused']
    exact .ok ⟨same, rfl⟩
  · obtain rfl : view' = view := sameView
    rw [granted, granted']
    simp only [bind, Except.bind]
    cases printer.printView outlets title view' with
    | error fault => exact .error fault
    | ok printed =>
        -- The view is read-only, so that nothing of it is committed.
        obtain ⟨within, _, rfl, _⟩ := acquire_eq_ok_iff.mp granted
        have keeps : (Return.release region).commits
            (left.lentView region within .readOnly ticket) = false := rfl
        have back := sameLent.takeBack (.release region)
          (left.lentView region within .readOnly ticket)
          (fun _ _ commits => by rw [keeps] at commits; cases commits)
        simp only [Table.takeBack] at back
        rcases back.cases with
          ⟨fault, failed, failed'⟩ | ⟨taken, taken', done, done', sameAfter, sameOutcome⟩
        · rw [failed, failed']
          exact .error fault
        · rw [done, done']
          refine .ok ⟨sameAfter, ?_⟩
          simp only [sameOutcome]

end Counterpart

end Table

end HalfMatrix
