import HalfMatrix.Proofs.Session.Exclusion
import Mathlib.Algebra.Group.Nat.Defs

/-!
# Every ticket has one view and one lease

As long as no ticket is given out twice, a ticket is that of at most one lease
in all ledgers together and of at most one view.  A view whose ticket has a
lease is of the region and in the mode of the lease, and has the shape that
the region has in the table that holds the lease.
-/

set_option autoImplicit false

namespace HalfMatrix

def SomeTable.leases (owner : SomeTable) : List Lease := owner.table.ledger.leases

structure SomeView.SameLease (left right : SomeView) : Prop
    extends left.view.SameLease right.view where
  precision : left.precision = right.precision

theorem SomeView.sameLease_self (held : SomeView) : held.SameLease held :=
  ⟨⟨rfl, rfl, rfl, rfl, rfl⟩, rfl⟩

/-- The view is one that a table like `owner` hands out with this lease. -/
structure SomeView.Under (held : SomeView) (lease : Lease) (owner : SomeTable) : Prop where
  precision : held.precision = owner.precision
  region : held.view.region = lease.region
  access : held.view.access = lease.access
  fits : held.view.Fits lease.region owner.dim

theorem SomeView.Under.of_sameLease {held before : SomeView} {lease : Lease}
    {owner former : SomeTable} (under : before.Under lease former) (same : held.SameLease before)
    (precision : owner.precision = former.precision) (dim : owner.dim = former.dim) :
    held.Under lease owner := by
  obtain ⟨within, rows, cols⟩ := under.fits
  refine ⟨?_, same.region.trans under.region, same.access.trans under.access, ?_⟩
  · rw [precision, same.precision, under.precision]
  · rw [dim]
    exact ⟨within, same.rows.trans rows, same.cols.trans cols⟩

namespace Session

/-- What holds in every session as long as no ticket is given out twice. -/
structure Sound (session : Session) : Prop where
  orderly : session.Orderly
  distinct : ∀ name owner, session.tables.find? name = some owner → owner.table.ledger.Distinct
  leasesApart : ∀ name owner other stranger, session.tables.find? name = some owner →
    session.tables.find? other = some stranger → ∀ lease ∈ owner.leases,
    ∀ lease' ∈ stranger.leases, lease.ticket = lease'.ticket → name = other
  viewsApart : ∀ view held other rival, session.views.find? view = some held →
    session.views.find? other = some rival → held.view.ticket = rival.view.ticket → view = other
  leaseIssued : ∀ name owner, session.tables.find? name = some owner →
    ∀ lease ∈ owner.leases, lease.ticket.toNat < session.nextTicket.toNat
  viewIssued : ∀ view held, session.views.find? view = some held →
    held.view.ticket.toNat < session.nextTicket.toNat
  under : ∀ name owner view held, session.tables.find? name = some owner →
    session.views.find? view = some held → ∀ lease ∈ owner.leases,
    lease.ticket = held.view.ticket → held.Under lease owner

theorem sound_initial : initial.Sound where
  orderly := orderly_after []
  distinct _ _ found := by cases found
  leasesApart _ _ _ _ found := by cases found
  viewsApart _ _ _ _ found := by cases found
  leaseIssued _ _ found := by cases found
  viewIssued _ _ found := by cases found
  under _ _ _ _ found := by cases found

theorem Sound.fresh {session : Session} (sound : session.Sound) {name : String} {owner : SomeTable}
    (owned : session.tables.find? name = some owner) :
    ∀ lease ∈ owner.leases, lease.ticket ≠ session.nextTicket := by
  intro lease mem clash
  have issued := sound.leaseIssued name owner owned lease mem
  rw [clash] at issued
  exact Nat.lt_irrefl _ issued

/-! ## Where leases and views come from -/

theorem Move.distinct {session : Session} {name : String} {owner : SomeTable} {event : Event}
    {after : Table (Binary owner.precision) owner.dim} (distinct : owner.table.ledger.Distinct)
    (fresh : ∀ lease ∈ owner.leases, lease.ticket ≠ session.nextTicket)
    (move : Move session name owner event after) : after.ledger.Distinct := by
  cases move with
  | written => exact distinct
  | printed granted taken =>
      rw [Table.eq_of_takeBack_lent fresh granted rfl taken]
      exact distinct
  | lent granted =>
      obtain ⟨_, _, _, rfl⟩ := Table.acquire_eq_ok_iff.mp granted
      unfold Ledger.Distinct
      simp only [Table.withLease, List.map_append, List.map_cons, List.map_nil]
      apply List.nodup_append.mpr
      refine ⟨distinct, List.nodup_singleton _, ?_⟩
      intro ticket mem other otherMem
      obtain ⟨lease, held, rfl⟩ := List.mem_map.mp mem
      rw [List.mem_singleton.mp otherMem]
      exact fresh lease held
  | returned _ taken =>
      rcases Table.takeBack_eq_ok taken with
        ⟨_, rfl, _⟩ | ⟨lease, found, ⟨_, rfl, _⟩ | ⟨_, rfl, _⟩⟩
      · exact distinct
      · exact distinct.erase found
      · exact distinct.erase found

/-- A lease was there before, or is the one given with the view lent in this step. -/
theorem Move.lease_cases {session : Session} {name : String} {owner : SomeTable} {event : Event}
    {after : Table (Binary owner.precision) owner.dim}
    (fresh : ∀ lease ∈ owner.leases, lease.ticket ≠ session.nextTicket)
    (move : Move session name owner event after) {lease : Lease}
    (mem : lease ∈ after.ledger.leases) :
    lease ∈ owner.leases ∨ ∃ view region access, event = .lent name view region access ∧
      lease = ⟨session.nextTicket, region, access⟩ := by
  cases move with
  | written => exact Or.inl mem
  | printed granted taken =>
      rw [Table.eq_of_takeBack_lent fresh granted rfl taken] at mem
      exact Or.inl mem
  | lent granted =>
      obtain ⟨_, _, _, rfl⟩ := Table.acquire_eq_ok_iff.mp granted
      rcases List.mem_append.mp mem with old | new
      · exact Or.inl old
      · exact Or.inr ⟨_, _, _, rfl, List.mem_singleton.mp new⟩
  | returned _ taken =>
      rcases Table.takeBack_eq_ok taken with
        ⟨_, rfl, _⟩ | ⟨lease, found, ⟨_, rfl, _⟩ | ⟨_, rfl, _⟩⟩
      · exact Or.inl mem
      · exact Or.inl (Ledger.mem_of_mem_erase found mem)
      · exact Or.inl (Ledger.mem_of_mem_erase found mem)

theorem Effect.lease_cases {session next : Session} {event : Event} (sound : session.Sound)
    (effect : Effect session next event) {name : String} {owner : SomeTable}
    (found : next.tables.find? name = some owner) {lease : Lease} (mem : lease ∈ owner.leases) :
    ∃ before, session.tables.find? name = some before ∧ owner.precision = before.precision ∧
      owner.dim = before.dim ∧
      (lease ∈ before.leases ∨ ∃ view region access, event = .lent name view region access ∧
        lease = ⟨session.nextTicket, region, access⟩) := by
  rcases effect.table_cases found with same | blank | ⟨before, after, owned, rfl, move⟩
  · exact ⟨owner, same, rfl, rfl, Or.inl mem⟩
  · rw [SomeTable.leases, blank] at mem
    exact absurd mem List.not_mem_nil
  · exact ⟨before, owned, rfl, rfl, move.lease_cases (sound.fresh owned) mem⟩

theorem Effect.view_cases {session next : Session} {event : Event}
    (effect : Effect session next event) {view : String} {held : SomeView}
    (found : next.views.find? view = some held) :
    (∃ before, session.views.find? view = some before ∧ held.SameLease before) ∨
      ∃ table owner region access, ∃ within : region.Within owner.dim,
        event = .lent table view region access ∧ session.tables.find? table = some owner ∧
        held = ⟨owner.precision, owner.table.lentView region within access session.nextTicket⟩ := by
  cases effect with
  | edited before same holds =>
      rw [holds.views] at found
      rcases find?_insert_cases found with ⟨rfl, rfl⟩ | ⟨_, found⟩
      · exact Or.inl ⟨_, before, same, rfl⟩
      · exact Or.inl ⟨held, found, held.sameLease_self⟩
  | lent owned granted holds =>
      rw [holds.views] at found
      rcases find?_insert_cases found with ⟨rfl, rfl⟩ | ⟨_, found⟩
      · obtain ⟨within, _, rfl, _⟩ := Table.acquire_eq_ok_iff.mp granted
        exact Or.inr ⟨_, _, _, _, within, rfl, owned, rfl⟩
      · exact Or.inl ⟨held, found, held.sameLease_self⟩
  | returned _ _ _ holds =>
      rw [holds.views] at found
      exact Or.inl ⟨held, find?_of_find?_erase found, held.sameLease_self⟩
  | forgotten holds =>
      rw [holds.views] at found
      exact Or.inl ⟨held, find?_of_find?_erase found, held.sameLease_self⟩
  | idle holds =>
      rw [holds.views] at found
      exact Or.inl ⟨held, found, held.sameLease_self⟩
  | printed _ _ _ holds =>
      rw [holds.views] at found
      exact Or.inl ⟨held, found, held.sameLease_self⟩
  | made _ holds =>
      rw [holds.views] at found
      exact Or.inl ⟨held, found, held.sameLease_self⟩
  | dropped holds =>
      rw [holds.views] at found
      exact Or.inl ⟨held, found, held.sameLease_self⟩
  | written _ holds =>
      rw [holds.views] at found
      exact Or.inl ⟨held, found, held.sameLease_self⟩

theorem Effect.ticket_cases {session next : Session} {event : Event}
    (effect : Effect session next event) :
    ((∀ table view region access, event ≠ .lent table view region access) ∧
        next.nextTicket = session.nextTicket) ∨
      next.nextTicket = session.nextTicket + 1 := by
  cases effect with
  | printed _ _ _ holds => exact Or.inr holds.ticket
  | lent _ _ holds => exact Or.inr holds.ticket
  | idle holds => exact Or.inl ⟨fun _ _ _ _ same => (nomatch same), holds.ticket⟩
  | edited _ _ holds => exact Or.inl ⟨fun _ _ _ _ same => (nomatch same), holds.ticket⟩
  | made _ holds => exact Or.inl ⟨fun _ _ _ _ same => (nomatch same), holds.ticket⟩
  | dropped holds => exact Or.inl ⟨fun _ _ _ _ same => (nomatch same), holds.ticket⟩
  | written _ holds => exact Or.inl ⟨fun _ _ _ _ same => (nomatch same), holds.ticket⟩
  | returned _ _ _ holds => exact Or.inl ⟨fun _ _ _ _ same => (nomatch same), holds.ticket⟩
  | forgotten holds => exact Or.inl ⟨fun _ _ _ _ same => (nomatch same), holds.ticket⟩

theorem succ_ne_self (ticket : Ticket) : ticket + 1 ≠ ticket := by
  intro same
  have values := congrArg UInt64.toNat same
  rw [UInt64.toNat_add] at values
  have bound := ticket.toNat_lt
  have one : (1 : Ticket).toNat = 1 := rfl
  rw [one] at values
  omega

def HasRoom (session next : Session) : Prop :=
  next.nextTicket ≠ session.nextTicket → session.nextTicket.toNat + 1 < 2 ^ 64

theorem Effect.ticket_toNat {session next : Session} {event : Event}
    (effect : Effect session next event) (room : HasRoom session next) :
    next.nextTicket.toNat =
      session.nextTicket.toNat + if next.nextTicket = session.nextTicket then 0 else 1 := by
  rcases effect.ticket_cases with ⟨_, same⟩ | more
  · rw [if_pos same, same]
    rfl
  · have moved : next.nextTicket ≠ session.nextTicket := more ▸ succ_ne_self session.nextTicket
    rw [if_neg moved, more, UInt64.toNat_add]
    exact Nat.mod_eq_of_lt (room moved)

theorem Effect.ticket_le {session next : Session} {event : Event}
    (effect : Effect session next event) (room : HasRoom session next) :
    session.nextTicket.toNat ≤ next.nextTicket.toNat := by
  rw [effect.ticket_toNat room]
  exact Nat.le_add_right _ _

theorem Effect.ticket_lt {session next : Session} {table view : String} {region : Region}
    {access : Access} (effect : Effect session next (.lent table view region access))
    (room : HasRoom session next) : session.nextTicket.toNat < next.nextTicket.toNat := by
  rcases effect.ticket_cases with ⟨unlent, _⟩ | more
  · exact absurd rfl (unlent table view region access)
  · have moved : next.nextTicket ≠ session.nextTicket := more ▸ succ_ne_self session.nextTicket
    rw [effect.ticket_toNat room, if_neg moved]
    exact Nat.lt_succ_self _

/-! ## Steps and runs -/

theorem Sound.effect {session next : Session} {event : Event} (sound : session.Sound)
    (effect : Effect session next event) (room : HasRoom session next) : next.Sound where
  orderly := sound.orderly.effect effect
  distinct := by
    intro name owner found
    rcases effect.table_cases found with same | blank | ⟨before, after, owned, rfl, move⟩
    · exact sound.distinct name owner same
    · unfold Ledger.Distinct
      rw [blank]
      exact List.nodup_nil
    · have kept : after.ledger.Distinct :=
        move.distinct (sound.distinct name before owned) (sound.fresh owned)
      exact kept
  leasesApart := by
    intro name owner other stranger found found' lease mem lease' mem' clash
    obtain ⟨before, owned, _, _, old | ⟨_, _, _, lent, rfl⟩⟩ := effect.lease_cases sound found mem
    · obtain ⟨before', owned', _, _, old' | ⟨_, _, _, _, rfl⟩⟩ :=
        effect.lease_cases sound found' mem'
      · exact sound.leasesApart name before other before' owned owned' lease old lease' old' clash
      · exact absurd clash (sound.fresh owned lease old)
    · obtain ⟨before', owned', _, _, old' | ⟨_, _, _, lent', rfl⟩⟩ :=
        effect.lease_cases sound found' mem'
      · exact absurd clash.symm (sound.fresh owned' lease' old')
      · rw [lent] at lent'
        exact (Event.lent.inj lent').1
  viewsApart := by
    intro view held other rival found found' clash
    rcases effect.view_cases found with ⟨before, was, same⟩ | ⟨_, _, _, _, _, lent, _, rfl⟩
    · rcases effect.view_cases found' with ⟨before', was', same'⟩ | ⟨_, _, _, _, _, _, _, rfl⟩
      · rw [same.ticket, same'.ticket] at clash
        exact sound.viewsApart view before other before' was was' clash
      · have issued := sound.viewIssued view before was
        rw [← same.ticket, clash] at issued
        exact absurd issued (Nat.lt_irrefl _)
    · rcases effect.view_cases found' with ⟨before', was', same'⟩ | ⟨_, _, _, _, _, lent', _, rfl⟩
      · have issued := sound.viewIssued other before' was'
        rw [← same'.ticket, ← clash] at issued
        exact absurd issued (Nat.lt_irrefl _)
      · rw [lent] at lent'
        exact (Event.lent.inj lent').2.1
  leaseIssued := by
    intro name owner found lease mem
    obtain ⟨before, owned, _, _, old | ⟨_, _, _, rfl, rfl⟩⟩ := effect.lease_cases sound found mem
    · exact Nat.lt_of_lt_of_le (sound.leaseIssued name before owned lease old)
        (effect.ticket_le room)
    · exact effect.ticket_lt room
  viewIssued := by
    intro view held found
    rcases effect.view_cases found with ⟨before, was, same⟩ | ⟨_, _, _, _, _, rfl, _, rfl⟩
    · rw [same.ticket]
      exact Nat.lt_of_lt_of_le (sound.viewIssued view before was) (effect.ticket_le room)
    · exact effect.ticket_lt room
  under := by
    intro name owner view held found found' lease mem clash
    obtain ⟨before, owned, precision, dim, old | ⟨_, _, _, lent, rfl⟩⟩ :=
      effect.lease_cases sound found mem
    · rcases effect.view_cases found' with ⟨before', was, same⟩ | ⟨_, _, _, _, _, _, _, rfl⟩
      · rw [same.ticket] at clash
        exact (sound.under name before view before' owned was lease old clash).of_sameLease same
          precision dim
      · exact absurd clash (sound.fresh owned lease old)
    · rcases effect.view_cases found' with ⟨before', was, same⟩ | ⟨_, _, _, _, within, lent', owned', rfl⟩
      · have issued := sound.viewIssued view before' was
        rw [← same.ticket, ← clash] at issued
        exact absurd issued (Nat.lt_irrefl _)
      · rw [lent] at lent'
        obtain ⟨rfl, _, rfl, rfl⟩ := Event.lent.inj lent'
        rw [owned] at owned'
        cases Option.some.inj owned'
        refine ⟨precision.symm, rfl, rfl, ?_⟩
        rw [dim]
        exact ⟨within, rfl, rfl⟩

theorem Effect.hasRoom {session : Session} {command : Command} {commands : List Command}
    {event : Event} (effect : Effect session (session.step command).2 event)
    (room : session.nextTicket.toNat + session.issued (command :: commands) < 2 ^ 64) :
    HasRoom session (session.step command).2 ∧
      (session.step command).2.nextTicket.toNat + (session.step command).2.issued commands
        < 2 ^ 64 := by
  simp only [issued] at room
  have hasRoom : HasRoom session (session.step command).2 := by
    intro moved
    rw [if_neg moved] at room
    omega
  refine ⟨hasRoom, ?_⟩
  rw [effect.ticket_toNat hasRoom]
  omega

theorem Sound.after {session : Session} (sound : session.Sound) (commands : List Command)
    (room : session.nextTicket.toNat + session.issued commands < 2 ^ 64) :
    (session.after commands).Sound := by
  induction commands generalizing session with
  | nil => exact sound
  | cons command commands ih =>
      have effect := step_effect session command
      obtain ⟨hasRoom, roomAfter⟩ := effect.hasRoom room
      exact ih (sound.effect effect hasRoom) roomAfter

/-- A run that hands out fewer than `2 ^ 64 - 1` views never gives a ticket twice. -/
theorem sound_after {commands : List Command} (few : initial.issued commands < 2 ^ 64 - 1) :
    (initial.after commands).Sound := by
  have first : initial.nextTicket.toNat = 1 := rfl
  exact sound_initial.after commands (by omega)

theorem ticket_after {session : Session} (commands : List Command)
    (room : session.nextTicket.toNat + session.issued commands < 2 ^ 64) :
    (session.after commands).nextTicket.toNat =
      session.nextTicket.toNat + session.issued commands := by
  induction commands generalizing session with
  | nil => rfl
  | cons command commands ih =>
      have effect := step_effect session command
      obtain ⟨hasRoom, roomAfter⟩ := effect.hasRoom room
      rw [after_cons, ih roomAfter, effect.ticket_toNat hasRoom, issued, Nat.add_assoc]

theorem few_append {commands later : List Command}
    (few : initial.issued (commands ++ later) < 2 ^ 64 - 1) :
    initial.issued commands < 2 ^ 64 - 1 ∧
      (initial.after commands).nextTicket.toNat + (initial.after commands).issued later
        < 2 ^ 64 := by
  have first : initial.nextTicket.toNat = 1 := rfl
  rw [issued_append] at few
  rw [ticket_after commands (by omega)]
  omega

end Session

end HalfMatrix
