import HalfMatrix.Proofs.Session.Custody

/-!
# Refusals leave a table intact

A request that a table refuses changes neither its entries nor its leases.  The
one exception is a view that comes back as a view of another region than the
one it was lent for: its lease is gone, so that the region can be lent again,
and nothing is committed.
-/

set_option autoImplicit false

namespace HalfMatrix

/-- What a table can be asked for, and can refuse. -/
inductive Request where
  | get (row col : Nat)
  | set (row col : Nat) (value : Numeral)
  | acquire (view : String) (region : Region) (access : Access)
  | takeBack (view : String) (how : Return)
  deriving DecidableEq, Repr

def Request.command : Request → TableCommand
  | get row col => .get row col
  | set row col value => .set row col value
  | acquire view region access => .acquire view region access
  | takeBack view how => how.command view

namespace Table

variable {α : Type} {n : Nat} {table after : Table α n}

theorem entries_of_refused {how : Return} {view : View α} {error : TableError}
    (taken : table.takeBack how view = .ok (after, .error error)) :
    after.entries = table.entries := by
  rcases takeBack_eq_ok taken with ⟨_, rfl, _⟩ | ⟨_, _, ⟨_, rfl, _⟩ | ⟨_, _, done⟩⟩
  · rfl
  · rfl
  · cases done

theorem acquire_of_withoutLease [Zero α] {lease : Lease} {ticket : Ticket}
    (orderly : table.Orderly) (found : table.ledger.find? ticket = some lease)
    (next : Ticket) :
    ∃ view lent,
      (table.withoutLease ticket).acquire lease.region lease.access next = .ok (view, lent) := by
  have mem : lease ∈ table.ledger.leases := (Ledger.mem_of_find? found).1
  have within : lease.region.Within n := orderly.within lease mem
  have rearranged : (lease :: (table.ledger.erase ticket).leases).Pairwise
      (Lease.Clear table.isSymmetric) :=
    (List.Perm.pairwise_iff Lease.Clear.symm (Ledger.erase_perm found)).mpr orderly.clear
  have clear : ∀ held ∈ (table.withoutLease ticket).ledger.leases,
      held.Clear (table.withoutLease ticket).isSymmetric ⟨next, lease.region, lease.access⟩ := by
    intro held kept
    have apart : lease.Clear table.isSymmetric held :=
      (List.pairwise_cons.mp rearranged).1 held kept
    exact apart.symm
  exact ⟨_, _, acquire_eq_ok_iff.mpr ⟨within, clear, rfl, rfl⟩⟩

end Table

namespace Session

variable {session : Session} {name : String} {owner : SomeTable}

/-! ## What the answers tell -/

theorem step_takeBack (owned : session.tables.find? name = some owner) (view : String)
    (how : Return) :
    (∃ (held : View (Binary owner.precision)) (after : Table (Binary owner.precision) owner.dim)
        (outcome : Except TableError Unit),
        session.views.find? view = some ⟨owner.precision, held⟩ ∧
          owner.table.takeBack how held = .ok (after, outcome)) ∨
      ((session.step (.table name (how.command view))).2 = session ∧
        (∀ error, (session.step (.table name (how.command view))).1.answer ≠
          .error (.table error)) ∧
        (session.step (.table name (how.command view))).1.answer ≠ .ok .done) := by
  have handed : session.step (.table name (how.command view)) =
      session.handBack name owner view (owner.table.takeBack how) := by
    cases how <;> simp only [step, Return.command, withFound, find, owned, tableStep] <;> rfl
  rw [handed]
  cases found : session.views.find? view with
  | none =>
      refine Or.inr ?_
      simp [handBack, withFound, find, found, refuse]
  | some held =>
      obtain ⟨precision, held⟩ := held
      by_cases same : precision = owner.precision
      · subst same
        cases taken : owner.table.takeBack how held with
        | ok result => exact Or.inl ⟨held, result.1, result.2, rfl, taken⟩
        | error fault =>
            refine Or.inr ?_
            simp [handBack, withFound, find, found, taken, SomeTable.fullReply]
      · refine Or.inr ?_
        simp [handBack, withFound, find, found, same, refuse]

theorem answer_returned {view : String} {held : View (Binary owner.precision)} {how : Return}
    {after : Table (Binary owner.precision) owner.dim} {outcome : Except TableError Unit}
    (owned : session.tables.find? name = some owner)
    (found : session.views.find? view = some ⟨owner.precision, held⟩)
    (taken : owner.table.takeBack how held = .ok (after, outcome)) :
    (session.step (.table name (how.command view))).1.answer =
        (outcome.mapError Refusal.table).map (fun () => Answer.done) ∧
      ∀ other, (session.step (.table name (how.command view))).2.tables.find? other =
        if other = name then some { owner with table := after }
        else session.tables.find? other := by
  rw [step_returned owned found taken]
  exact ⟨rfl, fun other => Names.find?_insert session.tables name other _⟩

/-! ## Requests that are refused -/

/-- The request releases a view, of which the table holds this lease, as a view
of another region. -/
def Misnames (session : Session) (request : Request) (owner : SomeTable) (lease : Lease) : Prop :=
  ∃ (view : String) (region : Region) (held : View (Binary owner.precision)),
    request = .takeBack view (.release region) ∧
      session.views.find? view = some ⟨owner.precision, held⟩ ∧
      owner.table.ledger.find? held.ticket = some lease ∧ lease.region ≠ region

/-- These are the tables that a refused request leaves: the entries are what they
were, and so are the leases.  Only a view that is released as another one loses
its lease, and then its region can be lent again. -/
def LeavesIntact (session : Session) (name : String) (owner : SomeTable) (request : Request)
    (tables : Names SomeTable) : Prop :=
  ∃ after : Table (Binary owner.precision) owner.dim,
    (∀ other, tables.find? other =
      if other = name then some { owner with table := after }
      else session.tables.find? other) ∧
    after.entries = owner.table.entries ∧
    ((∀ lease, ¬ session.Misnames request owner lease) → after.ledger = owner.table.ledger) ∧
    ∀ lease, session.Misnames request owner lease →
      (lease :: after.ledger.leases).Perm owner.leases ∧
        ∀ ticket, ∃ lent lending,
          after.acquire lease.region lease.access ticket = .ok (lent, lending)

/-- What a session promises about the requests to one of its tables. -/
structure Withstands (session : Session) (name : String) (owner : SomeTable) : Prop where
  /-- A request that is refused leaves the tables intact. -/
  refused : ∀ (request : Request) (error : TableError),
    (session.step (.table name request.command)).1.answer = .error (.table error) →
      session.LeavesIntact name owner request
        (session.step (.table name request.command)).2.tables
  /-- A view that is released as another one is refused. -/
  misnamed : ∀ (request : Request) (lease : Lease), session.Misnames request owner lease →
    (session.step (.table name request.command)).1.answer =
      .error (.table (.viewMisuse .differentRegion))
  /-- A view is released exactly if the table holds its ticket for the region
  that it is said to be of. -/
  released : ∀ (view : String) (region : Region) (held : View (Binary owner.precision)),
    session.views.find? view = some ⟨owner.precision, held⟩ →
      ((session.step (.table name (.release view region))).1.answer = .ok .done ↔
        ∃ lease ∈ owner.leases, lease.ticket = held.ticket ∧ lease.region = region)
  /-- Handing views back changes no entry unless one is released. -/
  written : ∀ (view : String) (how : Return) (after : Table (Binary owner.precision) owner.dim),
    (session.step (.table name (how.command view))).2.tables.find? name =
        some { owner with table := after } →
      after.entries ≠ owner.table.entries →
      (∃ region, how = .release region) ∧
        (session.step (.table name (how.command view))).1.answer = .ok .done

theorem leavesIntact_self (owned : session.tables.find? name = some owner) (request : Request)
    (named : ∀ lease, ¬ session.Misnames request owner lease) :
    session.LeavesIntact name owner request session.tables := by
  refine ⟨owner.table, ?_, rfl, fun _ => rfl, fun lease misnamed => absurd misnamed (named lease)⟩
  intro other
  split
  · rename_i same
    rw [same, owned]
  · rfl

theorem refused_takeBack (sound : session.Sound) {view : String} {how : Return}
    {error : TableError} (owned : session.tables.find? name = some owner)
    (refused : (session.step (.table name (how.command view))).1.answer =
      .error (.table error)) :
    session.LeavesIntact name owner (.takeBack view how)
      (session.step (.table name (how.command view))).2.tables := by
  rcases step_takeBack owned view how with ⟨held, after, outcome, found, taken⟩ | ⟨_, never, _⟩
  · obtain ⟨answer, tables⟩ := answer_returned owned found taken
    rw [answer] at refused
    have leased : ∀ lease, session.Misnames (.takeBack view how) owner lease →
        owner.table.ledger.find? held.ticket = some lease ∧ lease.region ≠ how.region held := by
      rintro lease ⟨view', region, held', same, found', leased, different⟩
      obtain ⟨rfl, rfl⟩ := Request.takeBack.inj same
      rw [found] at found'
      cases Option.some.inj found'
      exact ⟨leased, different⟩
    rcases Table.takeBack_eq_ok taken with
      ⟨unknown, rfl, _⟩ | ⟨lease, held', ⟨different, rfl, _⟩ | ⟨_, _, rfl⟩⟩
    · refine ⟨_, tables, rfl, fun _ => rfl, ?_⟩
      intro lease misnamed
      rw [(leased lease misnamed).1] at unknown
      cases unknown
    · refine ⟨_, tables, rfl, ?_, ?_⟩
      · -- A view that is discarded is of the region of its lease.
        intro named
        obtain ⟨mem, ticket⟩ := Ledger.mem_of_find? held'
        have under := sound.under name owner view _ owned found lease mem ticket
        cases how with
        | release region =>
            exact absurd ⟨view, region, held, rfl, found, held', different⟩ (named lease)
        | discard => exact absurd under.region.symm different
      · intro other misnamed
        have same := (leased other misnamed).1
        rw [held'] at same
        cases Option.some.inj same
        exact ⟨Ledger.erase_perm held',
          Table.acquire_of_withoutLease (sound.orderly name owner owned) held'⟩
    · cases refused
  · exact absurd refused (never error)

theorem refused_request (sound : session.Sound)
    (owned : session.tables.find? name = some owner) (request : Request) (error : TableError)
    (refused : (session.step (.table name request.command)).1.answer = .error (.table error)) :
    session.LeavesIntact name owner request
      (session.step (.table name request.command)).2.tables := by
  cases request with
  | get row col =>
      have idle : (session.step (.table name (.get row col))).2 = session := by
        simp only [step, withFound, find, owned, tableStep]
      rw [Request.command, idle]
      exact leavesIntact_self owned _ (by rintro _ ⟨_, _, _, ⟨⟩, _⟩)
  | set row col value =>
      have idle : (session.step (.table name (.set row col value))).2 = session := by
        simp only [Request.command, step, withFound, find, owned, tableStep] at refused ⊢
        cases written : owner.table.set row col (value.toBinary owner.precision) with
        | error cause => rfl
        | ok after =>
            rw [written] at refused
            cases refused
      rw [Request.command, idle]
      exact leavesIntact_self owned _ (by rintro _ ⟨_, _, _, ⟨⟩, _⟩)
  | acquire view region access =>
      have idle : (session.step (.table name (.acquire view region access))).2 = session := by
        simp only [Request.command, step, withFound, find, owned, tableStep, acquire] at refused ⊢
        cases granted : owner.table.acquire region access session.nextTicket with
        | error cause => rfl
        | ok lent =>
            rw [granted] at refused
            cases refused
      rw [Request.command, idle]
      exact leavesIntact_self owned _ (by rintro _ ⟨_, _, _, ⟨⟩, _⟩)
  | takeBack view how => exact refused_takeBack sound owned refused

theorem answer_misnamed (owned : session.tables.find? name = some owner) (request : Request)
    (lease : Lease) (misnamed : session.Misnames request owner lease) :
    (session.step (.table name request.command)).1.answer =
      .error (.table (.viewMisuse .differentRegion)) := by
  obtain ⟨view, region, held, rfl, found, leased, different⟩ := misnamed
  have taken : owner.table.takeBack (.release region) held = _ :=
    Table.takeBack_of_different leased different
  exact (answer_returned owned found taken).1

/-! ## Views that are released -/

theorem released_iff (sound : session.Sound) {view : String} {region : Region}
    {held : View (Binary owner.precision)} (owned : session.tables.find? name = some owner)
    (found : session.views.find? view = some ⟨owner.precision, held⟩) :
    (session.step (.table name (.release view region))).1.answer = .ok .done ↔
      ∃ lease ∈ owner.leases, lease.ticket = held.ticket ∧ lease.region = region := by
  constructor
  · intro accepted
    rcases step_takeBack owned view (.release region) with
      ⟨held', after, outcome, found', taken⟩ | ⟨_, _, never⟩
    · have same : held' = held := by
        rw [found] at found'
        cases Option.some.inj found'
        rfl
      subst same
      have answer := (answer_returned owned found taken).1
      simp only [Return.command] at answer
      rw [accepted] at answer
      rcases Table.takeBack_eq_ok taken with
        ⟨_, _, rfl⟩ | ⟨lease, leased, ⟨_, _, rfl⟩ | ⟨same, _, _⟩⟩
      · cases answer
      · cases answer
      · obtain ⟨mem, ticket⟩ := Ledger.mem_of_find? leased
        exact ⟨lease, mem, ticket, same⟩
    · exact absurd accepted never
  · rintro ⟨lease, mem, ticket, rfl⟩
    have leased := Ledger.find?_of_mem (sound.distinct name owner owned) mem
    rw [ticket] at leased
    have under := sound.under name owner view _ owned found lease mem ticket
    have taken : owner.table.takeBack (.release lease.region) held = _ :=
      Table.takeBack_of_fits leased rfl under.fits
    exact (answer_returned owned found taken).1

theorem written_by_release {view : String} {how : Return}
    {after : Table (Binary owner.precision) owner.dim}
    (owned : session.tables.find? name = some owner)
    (left : (session.step (.table name (how.command view))).2.tables.find? name =
      some { owner with table := after })
    (changed : after.entries ≠ owner.table.entries) :
    (∃ region, how = .release region) ∧
      (session.step (.table name (how.command view))).1.answer = .ok .done := by
  rcases step_takeBack owned view how with ⟨held, taken, outcome, found, result⟩ | ⟨idle, _, _⟩
  · obtain ⟨answer, tables⟩ := answer_returned owned found result
    rw [tables name, if_pos rfl] at left
    cases Option.some.inj left
    cases outcome with
    | error cause => exact absurd (Table.entries_of_refused result) changed
    | ok _ =>
        refine ⟨?_, answer⟩
        cases how with
        | release region => exact ⟨region, rfl⟩
        | discard =>
            -- A discarded view has nothing to commit.
            rcases Table.takeBack_eq_ok result with
              ⟨_, rfl, _⟩ | ⟨lease, _, ⟨_, rfl, _⟩ | ⟨_, rfl, _⟩⟩
            · exact absurd rfl changed
            · exact absurd rfl changed
            · refine absurd ?_ changed
              simp [Table.settled, Table.returnWrites, Return.commits, Table.store]
  · rw [idle, owned] at left
    obtain ⟨precision, dim, table⟩ := owner
    cases Option.some.inj left
    exact absurd rfl changed

/-- In every session that a run leads to which hands out fewer than `2 ^ 64 - 1`
views, whatever a table refuses leaves it intact, but for the lease of a view
that is released as something else than it was lent as. -/
theorem refusals_leave_tables_intact (commands : List Command) (name : String)
    (owner : SomeTable) (few : initial.issued commands < 2 ^ 64 - 1)
    (owned : (initial.after commands).tables.find? name = some owner) :
    (initial.after commands).Withstands name owner where
  refused := refused_request (sound_after few) owned
  misnamed := answer_misnamed owned
  released _ _ _ found := released_iff (sound_after few) owned found
  written _ _ _ left changed := written_by_release owned left changed

def lentBeside : List Command :=
  [.create "t" .double .symmetric .lower 3 .zeros,
    .create "u" .double .triangular .upper 2 .zeros,
    .table "t" (.acquire "row" (.rows 0 1) .readWrite),
    .table "u" (.acquire "stranger" (.rows 0 1) .writeOnly),
    .table "t" (.acquire "column" (.column 2 1 2) .readOnly)]

/-- A row that is released as another one is not committed, and can be lent anew. -/
theorem misnamed_row_is_dropped :
    ∃ owner, (initial.after lentBeside).tables.find? "t" = some owner ∧
      (initial.after lentBeside).Withstands "t" owner ∧
      ((initial.after lentBeside).step (.table "t" (.release "row" (.rows 1 1)))).1.answer =
        .error (.table (.viewMisuse .differentRegion)) ∧
      ((initial.after lentBeside).step (.table "t" (.release "stranger" (.rows 0 1)))).1.answer =
        .error (.table (.viewMisuse .unknownTicket)) ∧
      ((initial.after lentBeside).step (.table "t" (.release "row" (.rows 0 1)))).1.answer =
        .ok .done :=
  ⟨_, rfl, refusals_leave_tables_intact lentBeside "t" _ (by decide) rfl, rfl, rfl, rfl⟩

end Session

end HalfMatrix
