import HalfMatrix.Proofs.Commits
import HalfMatrix.Proofs.Leases

/-!
# Handing views out and taking them back

`acquire_eq_ok` and `takeBack_eq_ok` say all that lending and taking back can
do to a table: the leases afterwards, the view, and which values are written.
-/

set_option autoImplicit false

namespace HalfMatrix

/-- How a view is handed back: to be committed as a view of a region, or not
to be committed. -/
inductive Return where
  | release (region : Region)
  | discard
  deriving DecidableEq, Repr

def Return.region {α : Type} (how : Return) (view : View α) : Region :=
  match how with
  | release region => region
  | discard => view.region

def Return.commits {α : Type} (how : Return) (view : View α) : Bool :=
  match how with
  | release _ => view.access.writes
  | discard => false

theorem Return.access_ne_readOnly {α : Type} {how : Return} {view : View α}
    (commits : how.commits view = true) : view.access ≠ .readOnly := by
  intro reading
  cases how <;> simp [Return.commits, reading, Access.writes] at commits

/-- The view has the shape that the region has in a table of dimension `n`. -/
def View.Fits {α : Type} (view : View α) (region : Region) (n : Nat) : Prop :=
  region.Within n ∧ view.rows = region.count ∧ view.cols = region.width n

instance {α : Type} (view : View α) (region : Region) (n : Nat) :
    Decidable (view.Fits region n) :=
  inferInstanceAs (Decidable (_ ∧ _ ∧ _))

namespace Table

variable {α : Type} {n : Nat}

def Orderly (table : Table α n) : Prop := table.ledger.Orderly table.isSymmetric n

/-! ## Lending -/

def lentView [Zero α] (table : Table α n) (region : Region) (within : region.Within n)
    (access : Access) (ticket : Ticket) : View α where
  ticket := ticket
  region := region
  access := access
  rows := region.count
  cols := region.width n
  data := if access.reads then table.window region within else Grid.ofFn fun _ _ => 0

def withLease (table : Table α n) (lease : Lease) : Table α n :=
  { table with ledger := ⟨table.ledger.leases ++ [lease]⟩ }

theorem acquire_eq_ok_iff [Zero α] {table after : Table α n} {region : Region} {access : Access}
    {ticket : Ticket} {view : View α} :
    table.acquire region access ticket = .ok (view, after) ↔
      ∃ within : region.Within n,
        (∀ held ∈ table.ledger.leases, held.Clear table.isSymmetric ⟨ticket, region, access⟩) ∧
          view = table.lentView region within access ticket ∧
          after = table.withLease ⟨ticket, region, access⟩ := by
  unfold acquire
  split
  · rename_i within
    cases granted : table.ledger.grant table.isSymmetric ⟨ticket, region, access⟩ with
    | error cause =>
        constructor
        · intro lent
          cases lent
        · rintro ⟨_, clear, _, _⟩
          rw [Ledger.grant_eq_ok_iff.mpr ⟨clear, rfl⟩] at granted
          cases granted
    | ok ledger =>
        obtain ⟨clear, rfl⟩ := Ledger.grant_eq_ok_iff.mp granted
        simp only [Except.ok.injEq, Prod.mk.injEq]
        constructor
        · rintro ⟨rfl, rfl⟩
          exact ⟨within, clear, rfl, rfl⟩
        · rintro ⟨_, _, rfl, rfl⟩
          exact ⟨rfl, rfl⟩
  · rename_i outside
    constructor
    · intro lent
      cases lent
    · rintro ⟨within, _⟩
      exact absurd within outside

/-- A region without rows is lent whenever it lies in the table. -/
theorem acquire_of_isEmpty [Zero α] (table : Table α n) {region : Region} (empty : region.IsEmpty)
    (within : region.Within n) (access : Access) (ticket : Ticket) :
    table.acquire region access ticket =
      .ok (table.lentView region within access ticket,
        table.withLease ⟨ticket, region, access⟩) := by
  apply acquire_eq_ok_iff.mpr
  refine ⟨within, ?_, rfl, rfl⟩
  intro held _
  apply Lease.Clear.symm
  obtain ⟨apart, apartReflected⟩ := Region.not_meets_of_isEmpty held.region empty
  simp [Lease.Clear, Lease.conflicts, apart, apartReflected]

theorem Orderly.withLease [Zero α] {table after : Table α n} {region : Region} {access : Access}
    {ticket : Ticket} {view : View α} (orderly : table.Orderly)
    (lent : table.acquire region access ticket = .ok (view, after)) : after.Orderly := by
  obtain ⟨within, clear, _, rfl⟩ := acquire_eq_ok_iff.mp lent
  exact Ledger.Orderly.grant orderly within (Ledger.grant_eq_ok_iff.mpr ⟨clear, rfl⟩)

/-! ## Taking back -/

def takeBack (table : Table α n) (how : Return) (view : View α) :
    Except Fault (Table α n × Except TableError Unit) :=
  match how with
  | .release region => table.release region view
  | .discard => .ok (table.discard view)

def returnWrites (table : Table α n) (how : Return) (view : View α) :
    List (Fin (Packing.triangular n) × α) :=
  if fits : view.Fits (how.region view) n then
    if how.commits view then
      table.commitWrites (how.region view) fits.1 (view.data.cast (by rw [fits.2.1, fits.2.2]))
    else []
  else []

def withoutLease (table : Table α n) (ticket : Ticket) : Table α n :=
  { table with ledger := table.ledger.erase ticket }

/-- The table after it has taken back a view whose lease it held. -/
def settled (table : Table α n) (how : Return) (view : View α) : Table α n :=
  { table.withoutLease view.ticket with
    entries := store table.entries (table.returnWrites how view) }

theorem takeBack_of_unknown {table : Table α n} {view : View α} (how : Return)
    (unknown : table.ledger.find? view.ticket = none) :
    table.takeBack how view = .ok (table, .error (.viewMisuse .unknownTicket)) := by
  cases how <;> simp only [takeBack, release, discard, Ledger.close, unknown]

theorem takeBack_of_different {table : Table α n} {how : Return} {view : View α} {lease : Lease}
    (found : table.ledger.find? view.ticket = some lease)
    (different : lease.region ≠ how.region view) :
    table.takeBack how view =
      .ok (table.withoutLease view.ticket, .error (.viewMisuse .differentRegion)) := by
  cases how <;> simp only [Return.region] at different <;>
    simp only [takeBack, release, discard, Ledger.close, found, if_neg different, withoutLease]

/-- Nothing but a commit of values in the wrong shape is a fault. -/
theorem takeBack_of_same {table : Table α n} {how : Return} {view : View α} {lease : Lease}
    (found : table.ledger.find? view.ticket = some lease) (same : lease.region = how.region view) :
    table.takeBack how view =
      if how.commits view = true ∧ ¬ view.Fits lease.region n then .error .indexOutOfBounds
      else .ok (table.settled how view, .ok ()) := by
  cases how with
  | discard =>
      simp only [Return.region] at same
      by_cases fits : view.Fits view.region n <;>
        simp [takeBack, discard, Ledger.close, found, same, Return.commits, settled, returnWrites,
          Return.region, fits, withoutLease, store]
  | release region =>
      simp only [Return.region] at same
      subst same
      simp only [takeBack, release, Ledger.close, found, if_true]
      cases writes : view.access.writes with
      | false =>
          by_cases fits : view.Fits lease.region n <;>
            simp [Return.commits, writes, settled, returnWrites, Return.region, fits, withoutLease,
              store]
      | true =>
          by_cases fits : view.Fits lease.region n
          · have shape : lease.region.Within n ∧ view.rows = lease.region.count ∧
                view.cols = lease.region.width n := fits
            rw [if_pos rfl, dif_pos shape]
            simp only [Return.commits, writes, fits, not_true, and_false, if_false, settled,
              returnWrites, Return.region, dite_true, if_true]
            rfl
          · have shape : ¬ (lease.region.Within n ∧ view.rows = lease.region.count ∧
                view.cols = lease.region.width n) := fits
            rw [if_pos rfl, dif_neg shape]
            simp [Return.commits, writes, fits]

theorem release_of_keeps (table : Table α n) (region : Region) {view : View α}
    (keeps : view.access.writes = false) : ∃ result, table.release region view = .ok result := by
  unfold release
  split
  · exact ⟨_, rfl⟩
  · rw [keeps]
    exact ⟨_, rfl⟩

theorem takeBack_of_fits {table : Table α n} {how : Return} {view : View α} {lease : Lease}
    (found : table.ledger.find? view.ticket = some lease)
    (same : lease.region = how.region view) (fits : view.Fits lease.region n) :
    table.takeBack how view = .ok (table.settled how view, .ok ()) := by
  rw [takeBack_of_same found same, if_neg]
  rintro ⟨_, unfit⟩
  exact unfit fits

/-- Taking a view back changes nothing, or drops its lease, or drops the lease
and commits. -/
theorem takeBack_eq_ok {table after : Table α n} {how : Return} {view : View α}
    {outcome : Except TableError Unit} (taken : table.takeBack how view = .ok (after, outcome)) :
    (table.ledger.find? view.ticket = none ∧ after = table ∧
        outcome = .error (.viewMisuse .unknownTicket)) ∨
      ∃ lease, table.ledger.find? view.ticket = some lease ∧
        ((lease.region ≠ how.region view ∧ after = table.withoutLease view.ticket ∧
            outcome = .error (.viewMisuse .differentRegion)) ∨
          (lease.region = how.region view ∧ after = table.settled how view ∧
            outcome = .ok ())) := by
  cases found : table.ledger.find? view.ticket with
  | none =>
      rw [takeBack_of_unknown how found] at taken
      obtain ⟨rfl, rfl⟩ := Prod.mk.inj (Except.ok.inj taken)
      exact Or.inl ⟨rfl, rfl, rfl⟩
  | some lease =>
      refine Or.inr ⟨lease, rfl, ?_⟩
      by_cases same : lease.region = how.region view
      · rw [takeBack_of_same found same] at taken
        split at taken
        · cases taken
        · obtain ⟨rfl, rfl⟩ := Prod.mk.inj (Except.ok.inj taken)
          exact Or.inr ⟨same, rfl, rfl⟩
      · rw [takeBack_of_different found same] at taken
        obtain ⟨rfl, rfl⟩ := Prod.mk.inj (Except.ok.inj taken)
        exact Or.inl ⟨same, rfl, rfl⟩

theorem Orderly.takeBack {table after : Table α n} {how : Return} {view : View α}
    {outcome : Except TableError Unit} (orderly : table.Orderly)
    (taken : table.takeBack how view = .ok (after, outcome)) : after.Orderly := by
  rcases takeBack_eq_ok taken with ⟨_, rfl, _⟩ | ⟨lease, found, ⟨_, rfl, _⟩ | ⟨_, rfl, _⟩⟩
  · exact orderly
  · exact Ledger.Orderly.erase orderly found
  · exact Ledger.Orderly.erase orderly found

/-- A view that was lent last under a new ticket, not for writing, is taken back
as if it had never been lent. -/
theorem takeBack_lent [Zero α] {table lent : Table α n} {region : Region} {access : Access}
    {ticket : Ticket} {view : View α}
    (fresh : ∀ held ∈ table.ledger.leases, held.ticket ≠ ticket)
    (granted : table.acquire region access ticket = .ok (view, lent))
    (keeps : access.writes = false) :
    lent.takeBack (.release region) view = .ok (table, .ok ()) := by
  obtain ⟨within, _, rfl, rfl⟩ := acquire_eq_ok_iff.mp granted
  have fits : (table.lentView region within access ticket).Fits region n := ⟨within, rfl, rfl⟩
  obtain ⟨found, erased⟩ := table.ledger.erase_granted ⟨ticket, region, access⟩ fresh
  have unwritten : (table.withLease ⟨ticket, region, access⟩).returnWrites (.release region)
      (table.lentView region within access ticket) = [] := by
    simp [returnWrites, Return.commits, lentView, keeps]
  have settled : (table.withLease ⟨ticket, region, access⟩).settled (.release region)
      (table.lentView region within access ticket) = table := by
    rw [Table.settled, unwritten]
    calc
      _ = { table with
            ledger := (Ledger.mk (table.ledger.leases ++ [⟨ticket, region, access⟩])).erase ticket } :=
        rfl
      _ = table := by rw [erased]
  rw [takeBack_of_fits found rfl fits, settled]

theorem eq_of_takeBack_lent [Zero α] {table lent after : Table α n} {region : Region}
    {access : Access} {ticket : Ticket} {view : View α} {outcome : Except TableError Unit}
    (fresh : ∀ held ∈ table.ledger.leases, held.ticket ≠ ticket)
    (granted : table.acquire region access ticket = .ok (view, lent))
    (keeps : access.writes = false)
    (taken : lent.takeBack (.release region) view = .ok (after, outcome)) : after = table := by
  rw [takeBack_lent fresh granted keeps] at taken
  exact (Prod.mk.inj (Except.ok.inj taken)).1.symm

/-- Taking back the values that the table has for a region changes none of its entries. -/
theorem entries_settled_lentView [Zero α] (table : Table α n) (region : Region)
    (within : region.Within n) {access : Access} (reads : access.reads = true) (ticket : Ticket) :
    (table.settled (.release region) (table.lentView region within access ticket)).entries =
      table.entries := by
  have fits : (table.lentView region within access ticket).Fits region n := ⟨within, rfl, rfl⟩
  have shown : (table.lentView region within access ticket).data = table.window region within :=
    if_pos reads
  simp only [settled, returnWrites, Return.region, dif_pos fits, shown]
  split
  · exact store_commitWrites_window table region within
  · rfl

/-- A view that commits writes exactly what its region addresses. -/
theorem lastWrite_returnWrites_eq_none_iff {table : Table α n} {how : Return} {view : View α}
    {place : Fin (Packing.triangular n)} (fits : view.Fits (how.region view) n) :
    lastWrite (table.returnWrites how view) place = none ↔
      (how.commits view = true → ¬ table.Addresses (how.region view) place) := by
  unfold returnWrites
  rw [dif_pos fits]
  split
  · rename_i commits
    rw [lastWrite_commitWrites_eq_none_iff]
    simp [commits]
  · rename_i keeps
    simp [lastWrite, keeps]

theorem lastWrite_returnWrites_of_lease {table : Table α n} {how : Return} {view : View α}
    {lease other : Lease} {place : Fin (Packing.triangular n)} (orderly : table.Orderly)
    (mem : lease ∈ table.ledger.leases) (same : lease.region = how.region view)
    (access : view.access = lease.access) (fits : view.Fits lease.region n)
    (otherMem : other ∈ table.ledger.leases) (apart : other.ticket ≠ lease.ticket)
    (addressed : table.Addresses other.region place) :
    lastWrite (table.returnWrites how view) place = none := by
  rw [same] at fits
  apply (lastWrite_returnWrites_eq_none_iff fits).mpr
  intro commits addressed'
  have clear : other.Clear table.isSymmetric lease :=
    Ledger.Orderly.clear_of_ticket_ne orderly otherMem mem apart
  have writes : lease.access ≠ .readOnly := access ▸ Return.access_ne_readOnly commits
  rw [← same] at addressed'
  exact not_both_address clear (Or.inr writes) addressed addressed'

end Table

end HalfMatrix
