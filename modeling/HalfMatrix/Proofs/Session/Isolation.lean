import HalfMatrix.Proofs.Session.Custody

/-!
# Views are snapshots

As long as a view is outstanding and nobody writes past the views, its region of
the table keeps the values that it had when the view was handed out, whatever
is lent, taken back and committed in the meantime.
-/

set_option autoImplicit false

namespace HalfMatrix.Session

/-- Wherever a lease of this ticket is outstanding, it is this lease, of the
table of this name, and its region there has these values. -/
def Frozen (session : Session) (name : String) {precision : Precision} {dim : Nat} (lease : Lease)
    (values : Grid (Binary precision) lease.region.count (lease.region.width dim)) : Prop :=
  ∀ place owner, session.tables.find? place = some owner →
    ∀ held ∈ owner.leases, held.ticket = lease.ticket →
      place = name ∧ held = lease ∧
        ∃ (table : Table (Binary precision) dim) (within : lease.region.Within dim),
          owner = ⟨precision, dim, table⟩ ∧ table.window lease.region within = values

/-- A step that does not write past the views keeps the values in the region of
every lease that it leaves in place. -/
theorem Move.window {session : Session} (sound : session.Sound) {name : String}
    {owner : SomeTable} {event : Event} {after : Table (Binary owner.precision) owner.dim}
    (owned : session.tables.find? name = some owner) (move : Move session name owner event after)
    (unwritten : event ≠ .written name) {lease : Lease} (mem : lease ∈ owner.leases)
    (kept : lease ∈ after.ledger.leases) (within : lease.region.Within owner.dim) :
    after.window lease.region within = owner.table.window lease.region within := by
  cases move with
  | written => exact absurd rfl unwritten
  | printed granted taken =>
      rw [Table.eq_of_takeBack_lent (sound.fresh owned) granted rfl taken]
  | lent granted =>
      obtain ⟨_, _, _, rfl⟩ := Table.acquire_eq_ok_iff.mp granted
      exact Table.window_congr _ fun _ _ => rfl
  | @returned view held how after outcome found taken =>
      rcases Table.takeBack_eq_ok taken with
        ⟨_, rfl, _⟩ | ⟨closed, leased, ⟨_, rfl, _⟩ | ⟨same, rfl, _⟩⟩
      · rfl
      · exact Table.window_congr _ fun _ _ => rfl
      · obtain ⟨closedMem, ticket⟩ := Ledger.mem_of_find? leased
        have under := sound.under name owner view _ owned found closed closedMem ticket
        have apart : lease.ticket ≠ closed.ticket := by
          rw [ticket]
          exact ((Ledger.mem_erase_iff (sound.distinct name owner owned) leased).mp kept).2
        apply Table.window_congr
        intro place addressed
        have free := Table.lastWrite_returnWrites_of_lease (sound.orderly name owner owned)
          closedMem same under.access under.fits mem apart addressed
        rw [Table.get_store, free]
        rfl

theorem Frozen.effect {session next : Session} {event : Event} {name : String}
    {precision : Precision} {dim : Nat} {lease : Lease}
    {values : Grid (Binary precision) lease.region.count (lease.region.width dim)}
    (frozen : session.Frozen name lease values) (sound : session.Sound)
    (issued : lease.ticket.toNat < session.nextTicket.toNat) (effect : Effect session next event)
    (unwritten : event ≠ .written name) : next.Frozen name lease values := by
  intro place owner found held mem clash
  rcases effect.table_cases found with same | blank | ⟨before, after, owned, rfl, move⟩
  · exact frozen place owner same held mem clash
  · rw [SomeTable.leases, blank] at mem
    exact absurd mem List.not_mem_nil
  · rcases move.lease_cases (sound.fresh owned) mem with old | ⟨_, _, _, _, rfl⟩
    · obtain ⟨rfl, rfl, table, within, rfl, shown⟩ := frozen place before owned held old clash
      refine ⟨rfl, rfl, after, within, rfl, ?_⟩
      rw [← shown]
      exact move.window sound owned unwritten old mem within
    · rw [← clash] at issued
      exact absurd issued (Nat.lt_irrefl _)

theorem Frozen.after {session : Session} {name : String} {precision : Precision} {dim : Nat}
    {lease : Lease}
    {values : Grid (Binary precision) lease.region.count (lease.region.width dim)}
    (frozen : session.Frozen name lease values) (sound : session.Sound)
    (issued : lease.ticket.toNat < session.nextTicket.toNat) (commands : List Command)
    (room : session.nextTicket.toNat + session.issued commands < 2 ^ 64)
    (unwritten : .written name ∉ session.events commands) :
    (session.after commands).Frozen name lease values := by
  induction commands generalizing session with
  | nil => exact frozen
  | cons command commands ih =>
      have effect := step_effect session command
      obtain ⟨hasRoom, roomAfter⟩ := effect.hasRoom room
      simp only [events, List.mem_cons, not_or] at unwritten
      exact ih (frozen.effect sound issued effect (Ne.symm unwritten.1))
        (sound.effect effect hasRoom) (Nat.lt_of_lt_of_le issued (effect.ticket_le hasRoom))
        roomAfter unwritten.2

theorem frozen_of_acquire {session : Session} (sound : session.Sound) {name : String}
    (view : String) {owner : SomeTable} {region : Region} {access : Access}
    {lent : View (Binary owner.precision)} {after : Table (Binary owner.precision) owner.dim}
    (owned : session.tables.find? name = some owner)
    (granted : owner.table.acquire region access session.nextTicket = .ok (lent, after))
    (within : region.Within owner.dim) :
    (session.step (.table name (.acquire view region access))).2.Frozen name
      ⟨session.nextTicket, region, access⟩ (owner.table.window region within) := by
  obtain ⟨_, _, _, rfl⟩ := Table.acquire_eq_ok_iff.mp granted
  rw [step_lent owned granted]
  intro place holder found held mem clash
  rcases find?_insert_cases found with ⟨rfl, rfl⟩ | ⟨_, found⟩
  · rcases List.mem_append.mp mem with old | new
    · exact absurd clash (sound.fresh owned held old)
    · exact ⟨rfl, List.mem_singleton.mp new, _, within, rfl, Table.window_congr _ fun _ _ => rfl⟩
  · exact absurd clash (sound.fresh found held mem)

theorem release_unedited {session : Session} (sound : session.Sound) {name view : String}
    {precision : Precision} {dim : Nat} {table : Table (Binary precision) dim} {region : Region}
    {within : region.Within dim} {access : Access} {ticket : Ticket}
    (owned : session.tables.find? name = some ⟨precision, dim, table⟩)
    (reads : access.reads = true) (mem : ⟨ticket, region, access⟩ ∈ table.ledger.leases)
    (unedited : session.views.find? view =
      some ⟨precision, table.lentView region within access ticket⟩) :
    ∃ after : Table (Binary precision) dim, after.entries = table.entries ∧
      (session.step (.table name (.release view region))).1.answer = .ok .done ∧
      (session.step (.table name (.release view region))).2.tables.find? name =
        some ⟨precision, dim, after⟩ := by
  have leased := Ledger.find?_of_mem (sound.distinct name _ owned) mem
  have taken : table.takeBack (.release region) (table.lentView region within access ticket) =
      .ok (_, .ok ()) :=
    Table.takeBack_of_fits leased rfl ⟨within, rfl, rfl⟩
  have settled := step_returned owned unedited taken
  simp only [Return.command] at settled
  rw [settled]
  exact ⟨_, table.entries_settled_lentView region within reads ticket, rfl,
    Names.find?_insert_name _ name _⟩

/-- What was handed out with a view that is still outstanding is, entry for entry,
what its region of the table shows now, provided that nobody wrote past the
views in the meantime and that no ticket was given out twice.  Handing the view
back unedited therefore changes no entry of the table. -/
theorem outstanding_view_is_a_snapshot (before later : List Command) (name view place : String)
    (region : Region) (access : Access) (owner now : SomeTable) (lending last : Session)
    (lent : View (Binary owner.precision)) (lentTable : Table (Binary owner.precision) owner.dim)
    (lends : initial.after (before ++ [.table name (.acquire view region access)]) = lending)
    (ends : lending.after later = last)
    (few : initial.issued (before ++ [.table name (.acquire view region access)] ++ later) <
      2 ^ 64 - 1)
    (owned : (initial.after before).tables.find? name = some owner)
    (granted : owner.table.acquire region access (initial.after before).nextTicket =
      .ok (lent, lentTable))
    (reads : access.reads = true)
    (unwritten : .written name ∉ lending.events later)
    (found : last.tables.find? place = some now)
    (outstanding : ∃ lease ∈ now.leases, lease.ticket = lent.ticket) :
    ∃ (table : Table (Binary owner.precision) owner.dim) (within : region.Within owner.dim),
      place = name ∧ now = ⟨owner.precision, owner.dim, table⟩ ∧
        lent.data.toList = (table.window region within).toList ∧
        (last.views.find? view = some ⟨owner.precision, lent⟩ →
          ∃ after : Table (Binary owner.precision) owner.dim, after.entries = table.entries ∧
            (last.step (.table name (.release view region))).1.answer = .ok .done ∧
            (last.step (.table name (.release view region))).2.tables.find? name =
              some ⟨owner.precision, owner.dim, after⟩) := by
  obtain ⟨fewLending, room⟩ := few_append few
  have soundBefore := sound_after (few_append fewLending).1
  have soundLending := sound_after fewLending
  rw [lends] at room soundLending
  have soundLast : last.Sound := ends ▸ soundLending.after later room
  obtain ⟨within, _, rfl, rfl⟩ := Table.acquire_eq_ok_iff.mp granted
  rw [after_append] at lends
  have stepped : ((initial.after before).step (.table name (.acquire view region access))).2 =
    lending := lends
  -- The region is frozen from the moment at which the view is handed out.
  have frozen := frozen_of_acquire soundBefore view owned granted within
  rw [stepped] at frozen
  rw [step_lent owned granted] at stepped
  have held : lending.tables.find? name = some { owner with
      table := owner.table.withLease ⟨(initial.after before).nextTicket, region, access⟩ } := by
    rw [← stepped]
    exact Names.find?_insert_name _ name _
  have issued := soundLending.leaseIssued name _ held _
    (List.mem_append_right _ (List.mem_singleton_self _))
  have frozenLast := frozen.after soundLending issued later room unwritten
  rw [ends] at frozenLast
  obtain ⟨lease, mem, clash⟩ := outstanding
  obtain ⟨rfl, rfl, table, _, rfl, shown⟩ := frozenLast place now found lease mem clash
  have same : owner.table.lentView region within access (initial.after before).nextTicket =
      table.lentView region within access (initial.after before).nextTicket := by
    simp only [Table.lentView, shown]
  refine ⟨table, within, rfl, rfl, ?_, ?_⟩
  · simp only [Table.lentView, reads, if_true, shown]
  · intro unedited
    rw [same] at unedited
    exact release_unedited soundLast found reads mem unedited

def columnCommits : List Command :=
  [.table "t" (.acquire "column" (.column 2 1 2) .writeOnly),
    .view "column" (.fill [.bits 64 1, .bits 64 2]),
    .table "t" (.release "column" (.column 2 1 2))]

theorem row_is_kept_while_column_commits :
    ∃ (owner : SomeTable) (lent : View (Binary owner.precision))
      (table : Table (Binary owner.precision) owner.dim)
      (within : (Region.rows 0 1).Within owner.dim),
      table.entries.toList.map (fun entry => entry.bits.toNat) = [0, 0, 0, 0, 1, 2] ∧
        lent.data.toList = (table.window (.rows 0 1) within).toList := by
  have kept := outstanding_view_is_a_snapshot [.create "t" .double .symmetric .lower 3 .zeros]
    columnCommits "t" "row" "t" (.rows 0 1) .readWrite _ _ _ _ _ _ rfl rfl (by decide) rfl rfl rfl
    (by decide) rfl ⟨_, List.mem_singleton_self _, rfl⟩
  obtain ⟨table, within, _, now, shown, _⟩ := kept
  refine ⟨_, _, table, within, ?_, shown⟩
  cases now
  rfl

end HalfMatrix.Session
