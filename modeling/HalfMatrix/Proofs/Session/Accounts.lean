import HalfMatrix.Proofs.Session.Custody

/-!
# Who lent what

An account is kept from the events of a run alone.  It says which table lent a
view, what region and in which mode, until the view is used up or the table is
gone, and it counts what each table has lent and taken back.  The ledgers of
the session agree with it.
-/

set_option autoImplicit false

namespace HalfMatrix

structure Loan where
  table : String
  region : Region
  access : Access
  deriving DecidableEq, Repr

structure Account where
  /-- The loans whose view is not used up and whose table is there. -/
  loan : String → Option Loan := fun _ => none
  /-- How many views the table of this name has lent. -/
  lent : String → Nat := fun _ => 0
  /-- How many views that it had lent were handed back to the table. -/
  closed : String → Nat := fun _ => 0

namespace Account

def void (account : Account) (table : String) : Account where
  loan view := (account.loan view).filter fun loan => loan.table ≠ table
  lent name := if name = table then 0 else account.lent name
  closed name := if name = table then 0 else account.closed name

def lend (account : Account) (view : String) (loan : Loan) : Account :=
  { account with
    loan := fun other => if other = view then some loan else account.loan other
    lent := fun name => if name = loan.table then account.lent name + 1 else account.lent name }

def forget (account : Account) (view : String) : Account :=
  { account with loan := fun other => if other = view then none else account.loan other }

def Owes (account : Account) (view table : String) : Prop :=
  ∃ loan, account.loan view = some loan ∧ loan.table = table

instance (account : Account) (view table : String) : Decidable (account.Owes view table) :=
  match found : account.loan view with
  | none => isFalse fun ⟨_, owed, _⟩ => by
      rw [found] at owed
      cases owed
  | some loan =>
      decidable_of_iff (loan.table = table)
        ⟨fun same => ⟨loan, found, same⟩, fun ⟨_, owed, same⟩ => by
          rw [found] at owed
          rw [Option.some.inj owed]
          exact same⟩

def close (account : Account) (table : String) : Account :=
  { account with
    closed := fun name => if name = table then account.closed name + 1 else account.closed name }

def follow (account : Account) : Event → Account
  | .none => account
  | .written _ => account
  | .made table => account.void table
  | .dropped table => account.void table
  | .lent table view region access => account.lend view ⟨table, region, access⟩
  | .returned table view =>
      if account.Owes view table then (account.forget view).close table else account.forget view
  | .forgotten view => account.forget view

end Account

namespace Session

def account (session : Session) (commands : List Command) : Account :=
  (session.events commands).foldl Account.follow {}

def leases? (session : Session) (name : String) : Option (List Lease) :=
  (session.tables.find? name).map SomeTable.leases

def ticket? (session : Session) (view : String) : Option Ticket :=
  (session.views.find? view).map fun held => held.view.ticket

theorem Holds.leases? {session : Session} {tables : Names SomeTable} {views : Names SomeView}
    {ticket : Ticket} (holds : session.Holds tables views ticket) (name : String) :
    session.leases? name = (tables.find? name).map SomeTable.leases := by
  rw [Session.leases?, holds.tables]

theorem Holds.ticket? {session : Session} {tables : Names SomeTable} {views : Names SomeView}
    {ticket : Ticket} (holds : session.Holds tables views ticket) (view : String) :
    session.ticket? view = (views.find? view).map fun held => held.view.ticket := by
  rw [Session.ticket?, holds.views]

variable {session next : Session}

theorem leases?_of_find? {name : String} {owner : SomeTable}
    (owned : session.tables.find? name = some owner) :
    session.leases? name = some owner.leases := by
  rw [leases?, owned]
  rfl

theorem find?_of_leases? {name : String} {leases : List Lease}
    (found : session.leases? name = some leases) :
    ∃ owner, session.tables.find? name = some owner ∧ owner.leases = leases :=
  Option.map_eq_some_iff.mp found

theorem ticket?_of_find? {view : String} {held : SomeView}
    (found : session.views.find? view = some held) :
    session.ticket? view = some held.view.ticket := by
  rw [ticket?, found]
  rfl

theorem find?_of_ticket? {view : String} {ticket : Ticket}
    (held : session.ticket? view = some ticket) :
    ∃ found, session.views.find? view = some found ∧ found.view.ticket = ticket :=
  Option.map_eq_some_iff.mp held

theorem Holds.leases?_insert {tables : Names SomeTable} {views : Names SomeView} {ticket : Ticket}
    {table : String} {owner : SomeTable} (holds : next.Holds (tables.insert table owner) views ticket)
    (name : String) :
    next.leases? name =
      if name = table then some owner.leases else (tables.find? name).map SomeTable.leases := by
  rw [holds.leases?, Names.find?_insert]
  split <;> rfl

theorem leases?_same {table : String} {owner after : SomeTable}
    (owned : session.tables.find? table = some owner) (same : after.leases = owner.leases)
    (tables : ∀ name, next.leases? name =
      if name = table then some after.leases else session.leases? name) (name : String) :
    next.leases? name = session.leases? name := by
  rw [tables]
  split
  · rename_i home
    rw [home, leases?_of_find? owned, same]
  · rfl

theorem Sound.unheld (sound : session.Sound) (view : String) :
    session.ticket? view ≠ some session.nextTicket := by
  intro clash
  obtain ⟨held, found, same⟩ := find?_of_ticket? clash
  have issued := sound.viewIssued view held found
  rw [same] at issued
  exact Nat.lt_irrefl _ issued

end Session

/-- The ledgers of the session agree with the account. -/
structure Account.Matches (account : Account) (session : Session) : Prop where
  recorded : ∀ view loan, account.loan view = some loan → ∃ leases ticket,
    session.leases? loan.table = some leases ∧ session.ticket? view = some ticket ∧
      ⟨ticket, loan.region, loan.access⟩ ∈ leases
  known : ∀ name leases view, session.leases? name = some leases → ∀ lease ∈ leases,
    session.ticket? view = some lease.ticket →
      account.loan view = some ⟨name, lease.region, lease.access⟩
  counted : ∀ name leases, session.leases? name = some leases →
    leases.length + account.closed name = account.lent name

namespace Account

open Session

variable {account : Account} {session next : Session}

theorem matches_initial : Account.Matches {} Session.initial where
  recorded _ _ owed := by cases owed
  known _ _ _ found := by cases found
  counted _ _ found := by cases found

theorem Matches.of_same (agreed : account.Matches session)
    (sameLeases : ∀ name, next.leases? name = session.leases? name)
    (sameTickets : ∀ view, next.ticket? view = session.ticket? view) : account.Matches next := by
  constructor
  · intro view loan owed
    rw [sameLeases, sameTickets]
    exact agreed.recorded view loan owed
  · intro name leases view found
    rw [sameLeases] at found
    rw [sameTickets]
    exact agreed.known name leases view found
  · intro name leases found
    rw [sameLeases] at found
    exact agreed.counted name leases found

theorem Matches.void (agreed : account.Matches session) {table : String}
    (blank : ∀ leases, next.leases? table = some leases → leases = [])
    (others : ∀ name, name ≠ table → next.leases? name = session.leases? name)
    (sameTickets : ∀ view, next.ticket? view = session.ticket? view) :
    (account.void table).Matches next := by
  constructor
  · intro view loan owed
    obtain ⟨owed, apart⟩ := Option.filter_eq_some_iff.mp owed
    rw [others loan.table (of_decide_eq_true apart), sameTickets]
    exact agreed.recorded view loan owed
  · intro name leases view found lease mem ticket
    by_cases same : name = table
    · subst same
      rw [blank leases found] at mem
      exact absurd mem List.not_mem_nil
    · rw [others name same] at found
      rw [sameTickets] at ticket
      exact Option.filter_eq_some_iff.mpr
        ⟨agreed.known name leases view found lease mem ticket, decide_eq_true same⟩
  · intro name leases found
    simp only [Account.void]
    by_cases same : name = table
    · subst same
      simp [blank leases found]
    · rw [others name same] at found
      simp only [if_neg same]
      exact agreed.counted name leases found

/-- Where one lease more is held, a lease was held before or is that one. -/
theorem lease_cases_of_lend {name table : String} {leases held : List Lease} {lease new : Lease}
    (owned : session.leases? table = some leases)
    (found : (if name = table then some (leases ++ [new]) else session.leases? name) = some held)
    (mem : lease ∈ held) :
    (∃ before, session.leases? name = some before ∧ lease ∈ before) ∨
      (name = table ∧ lease = new) := by
  split at found
  · rename_i home
    rw [← Option.some.inj found] at mem
    rcases List.mem_append.mp mem with old | added
    · exact Or.inl ⟨leases, home ▸ owned, old⟩
    · exact Or.inr ⟨home, List.mem_singleton.mp added⟩
  · exact Or.inl ⟨held, found, mem⟩

theorem Matches.lend (agreed : account.Matches session) {view : String} {loan : Loan}
    {leases : List Lease} {ticket : Ticket} (owned : session.leases? loan.table = some leases)
    (fresh : ∀ name leases, session.leases? name = some leases →
      ∀ lease ∈ leases, lease.ticket ≠ ticket)
    (unheld : ∀ view, session.ticket? view ≠ some ticket)
    (tables : ∀ name, next.leases? name =
      if name = loan.table then some (leases ++ [⟨ticket, loan.region, loan.access⟩])
      else session.leases? name)
    (views : ∀ other, next.ticket? other =
      if other = view then some ticket else session.ticket? other) :
    (account.lend view loan).Matches next := by
  constructor
  · intro other owed found
    simp only [Account.lend] at found
    rw [tables, views]
    split at found
    · rename_i same
      cases Option.some.inj found
      refine ⟨_, ticket, if_pos rfl, if_pos same, ?_⟩
      simp
    · rename_i apart
      obtain ⟨held, ticket', heldFound, ticketFound, mem⟩ := agreed.recorded other owed found
      rw [if_neg apart]
      by_cases home : owed.table = loan.table
      · rw [home, owned] at heldFound
        cases Option.some.inj heldFound
        exact ⟨_, ticket', if_pos home, ticketFound, List.mem_append_left _ mem⟩
      · exact ⟨held, ticket', by rw [if_neg home, heldFound], ticketFound, mem⟩
  · intro name held other found lease mem ticketFound
    simp only [Account.lend]
    rw [tables] at found
    rw [views] at ticketFound
    rcases lease_cases_of_lend owned found mem with ⟨before, foundBefore, old⟩ | ⟨home, rfl⟩
    · have older := fresh name before foundBefore lease old
      split at ticketFound
      · exact absurd (Option.some.inj ticketFound).symm older
      · rename_i apart
        rw [if_neg apart]
        exact agreed.known name before other foundBefore lease old ticketFound
    · split at ticketFound
      · rename_i same
        rw [if_pos same, home]
      · exact absurd ticketFound (unheld other)
  · intro name held found
    simp only [Account.lend]
    rw [tables] at found
    split at found
    · rename_i home
      subst home
      have counted := agreed.counted _ leases owned
      rw [if_pos rfl, ← Option.some.inj found, List.length_append, List.length_singleton]
      omega
    · rename_i away
      rw [if_neg away]
      exact agreed.counted name held found

theorem Matches.forget (agreed : account.Matches session) {view : String}
    (sameLeases : ∀ name, next.leases? name = session.leases? name)
    (views : ∀ other, next.ticket? other =
      if other = view then none else session.ticket? other) :
    (account.forget view).Matches next := by
  constructor
  · intro other loan owed
    simp only [Account.forget] at owed
    split at owed
    · cases owed
    · rename_i apart
      rw [sameLeases, views, if_neg apart]
      exact agreed.recorded other loan owed
  · intro name leases other found lease mem ticketFound
    rw [sameLeases] at found
    rw [views] at ticketFound
    simp only [Account.forget]
    split at ticketFound
    · cases ticketFound
    · rename_i apart
      rw [if_neg apart]
      exact agreed.known name leases other found lease mem ticketFound
  · intro name leases found
    rw [sameLeases] at found
    exact agreed.counted name leases found

theorem Matches.close (agreed : account.Matches session) {table : String} {ledger : Ledger}
    {ticket : Ticket} {lease : Lease} (owned : session.leases? table = some ledger.leases)
    (distinct : ledger.Distinct) (leased : ledger.find? ticket = some lease)
    (unheld : ∀ view, session.ticket? view ≠ some ticket)
    (tables : ∀ name, next.leases? name =
      if name = table then some (ledger.erase ticket).leases else session.leases? name)
    (sameTickets : ∀ view, next.ticket? view = session.ticket? view) :
    (account.close table).Matches next := by
  constructor
  · intro view loan owed
    obtain ⟨leases, ticket', found, ticketFound, mem⟩ := agreed.recorded view loan owed
    rw [tables, sameTickets]
    by_cases home : loan.table = table
    · rw [home, owned] at found
      cases Option.some.inj found
      refine ⟨_, ticket', if_pos home, ticketFound, ?_⟩
      apply (Ledger.mem_erase_iff distinct leased).mpr
      refine ⟨mem, ?_⟩
      intro clash
      rw [← clash] at unheld
      exact unheld view ticketFound
    · exact ⟨leases, ticket', by rw [if_neg home, found], ticketFound, mem⟩
  · intro name leases view found other mem ticketFound
    rw [tables] at found
    rw [sameTickets] at ticketFound
    split at found
    · rename_i home
      subst home
      rw [← Option.some.inj found] at mem
      exact agreed.known name ledger.leases view owned other (Ledger.mem_of_mem_erase leased mem)
        ticketFound
    · exact agreed.known name leases view found other mem ticketFound
  · intro name leases found
    rw [tables] at found
    simp only [Account.close]
    split at found
    · rename_i home
      subst home
      have counted := agreed.counted name ledger.leases owned
      have shorter := Ledger.size_erase leased
      rw [if_pos rfl, ← Option.some.inj found]
      simp only [Ledger.size] at shorter
      omega
    · rename_i away
      rw [if_neg away]
      exact agreed.counted name leases found

theorem Matches.owes_iff (agreed : account.Matches session) {table view : String}
    {leases : List Lease} {ticket : Ticket} (owned : session.leases? table = some leases)
    (held : session.ticket? view = some ticket) :
    account.Owes view table ↔ ∃ lease ∈ leases, lease.ticket = ticket := by
  constructor
  · rintro ⟨loan, owed, rfl⟩
    obtain ⟨found, ticket', leasesFound, ticketFound, mem⟩ := agreed.recorded view loan owed
    rw [owned] at leasesFound
    rw [held] at ticketFound
    cases Option.some.inj leasesFound
    cases Option.some.inj ticketFound
    exact ⟨_, mem, rfl⟩
  · rintro ⟨lease, mem, rfl⟩
    exact ⟨_, agreed.known table leases view owned lease mem held, rfl⟩

/-! ## Steps and runs -/

theorem Matches.returned (agreed : account.Matches session) (sound : session.Sound)
    {table view : String} {owner : SomeTable} {held : View (Binary owner.precision)} {how : Return}
    {after : Table (Binary owner.precision) owner.dim} {outcome : Except TableError Unit}
    (owned : session.tables.find? table = some owner)
    (found : session.views.find? view = some ⟨owner.precision, held⟩)
    (taken : owner.table.takeBack how held = .ok (after, outcome))
    (holds : next.Holds (session.tables.insert table { owner with table := after })
      (session.views.erase view) session.nextTicket) :
    (account.follow (.returned table view)).Matches next := by
  have tickets : ∀ other, next.ticket? other =
      if other = view then none else session.ticket? other := by
    intro other
    rw [holds.ticket?, Names.find?_erase]
    split <;> rfl
  have dropped : ∀ other, (session.dropView view).ticket? other =
      if other = view then none else session.ticket? other := by
    intro other
    simp only [ticket?, dropView, Names.find?_erase]
    split <;> rfl
  have forgotten : (account.forget view).Matches (session.dropView view) :=
    agreed.forget (fun _ => rfl) dropped
  have same : ∀ other, next.ticket? other = (session.dropView view).ticket? other := by
    intro other
    rw [tickets, dropped]
  have owes := agreed.owes_iff (leases?_of_find? owned) (ticket?_of_find? found)
  simp only [Account.follow]
  rcases Table.takeBack_eq_ok taken with ⟨unknown, rfl, _⟩ | ⟨lease, leased, kind⟩
  · have missed := Ledger.find?_eq_none_iff.mp unknown
    rw [if_neg]
    · exact forgotten.of_same (leases?_same owned rfl holds.leases?_insert) same
    · rw [owes]
      rintro ⟨lease, mem, clash⟩
      exact missed lease mem clash
  · have erased : after.ledger = owner.table.ledger.erase held.ticket := by
      rcases kind with ⟨_, rfl, _⟩ | ⟨_, rfl, _⟩ <;> rfl
    obtain ⟨mem, clash⟩ := Ledger.mem_of_find? leased
    rw [if_pos (owes.mpr ⟨lease, mem, clash⟩)]
    apply forgotten.close (leases?_of_find? owned) (sound.distinct table owner owned) leased
    · intro other
      rw [dropped]
      split
      · exact nofun
      · rename_i apart
        intro rival
        obtain ⟨stranger, strange, ticket⟩ := find?_of_ticket? rival
        exact apart (sound.viewsApart other stranger view _ strange found ticket)
    · intro name
      rw [holds.leases?_insert, SomeTable.leases, erased]
      rfl
    · exact same

theorem Matches.effect (agreed : account.Matches session) (sound : session.Sound) {event : Event}
    (effect : Effect session next event) : (account.follow event).Matches next := by
  cases effect with
  | idle holds => exact agreed.of_same holds.leases? holds.ticket?
  | edited found same holds =>
      apply agreed.of_same holds.leases?
      intro other
      rw [holds.ticket?, Names.find?_insert]
      split
      · rename_i home
        rw [home, ticket?_of_find? found, ← same.ticket]
        rfl
      · rfl
  | printed owned granted taken holds =>
      obtain rfl := Table.eq_of_takeBack_lent (sound.fresh owned) granted rfl taken
      exact agreed.of_same (leases?_same owned rfl holds.leases?_insert) holds.ticket?
  | written owned holds =>
      exact agreed.of_same (leases?_same owned rfl holds.leases?_insert) holds.ticket?
  | made blank holds =>
      refine agreed.void ?_ ?_ holds.ticket?
      · intro leases found
        rw [holds.leases?_insert, if_pos rfl] at found
        rw [← Option.some.inj found, SomeTable.leases, blank]
        rfl
      · intro name apart
        rw [holds.leases?_insert, if_neg apart]
        rfl
  | dropped holds =>
      refine agreed.void ?_ ?_ holds.ticket?
      · intro leases found
        rw [holds.leases?, Names.find?_erase, if_pos rfl] at found
        cases found
      · intro name apart
        rw [holds.leases?, Names.find?_erase, if_neg apart]
        rfl
  | lent owned granted holds =>
      obtain ⟨within, _, rfl, rfl⟩ := Table.acquire_eq_ok_iff.mp granted
      apply agreed.lend (leases?_of_find? owned)
      · intro name leases found
        obtain ⟨holder, foundHolder, rfl⟩ := find?_of_leases? found
        exact sound.fresh foundHolder
      · exact sound.unheld
      · exact holds.leases?_insert
      · intro other
        rw [holds.ticket?, Names.find?_insert]
        split <;> rfl
  | returned owned found taken holds => exact agreed.returned sound owned found taken holds
  | forgotten holds =>
      apply agreed.forget holds.leases?
      intro other
      rw [holds.ticket?, Names.find?_erase]
      split <;> rfl

theorem Matches.after (agreed : account.Matches session) (sound : session.Sound)
    (commands : List Command) (room : session.nextTicket.toNat + session.issued commands < 2 ^ 64) :
    ((session.events commands).foldl Account.follow account).Matches (session.after commands) := by
  induction commands generalizing session account with
  | nil => exact agreed
  | cons command commands ih =>
      have effect := step_effect session command
      obtain ⟨hasRoom, roomAfter⟩ := effect.hasRoom room
      exact ih (agreed.effect sound effect) (sound.effect effect hasRoom) roomAfter

/-- A run that hands out fewer than `2 ^ 64 - 1` views leaves ledgers that agree
with its account. -/
theorem matches_after {commands : List Command} (few : initial.issued commands < 2 ^ 64 - 1) :
    (initial.account commands).Matches (initial.after commands) := by
  have first : initial.nextTicket.toNat = 1 := rfl
  exact matches_initial.after sound_initial commands (by omega)

end Account

end HalfMatrix
