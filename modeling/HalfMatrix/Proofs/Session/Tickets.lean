import HalfMatrix.Proofs.Session.Accounts

/-!
# A view belongs to the table that lent it

Tickets tie every view to one table: there its lease is found, and it is taken
back; every other table refuses it.
-/

set_option autoImplicit false

namespace HalfMatrix.Session

/-- What a session in agreement with the account does for those who hold views. -/
structure Honours (session : Session) (account : Account) : Prop where
  /-- No ticket occurs twice in a ledger. -/
  ticketsDistinct : ∀ name owner, session.tables.find? name = some owner →
    (owner.leases.map Lease.ticket).Nodup
  /-- No ticket occurs in two ledgers. -/
  ticketsApart : ∀ name other owner stranger, name ≠ other →
    session.tables.find? name = some owner → session.tables.find? other = some stranger →
    ∀ lease ∈ owner.leases, ∀ lease' ∈ stranger.leases, lease.ticket ≠ lease'.ticket
  /-- A view in use has one lease where it was lent, of its region and mode. -/
  leased : ∀ view loan, account.loan view = some loan → ∃ held owner,
    session.views.find? view = some held ∧ session.tables.find? loan.table = some owner ∧
      held.view.region = loan.region ∧ held.view.access = loan.access ∧
      owner.leases.filter (fun lease => lease.ticket = held.view.ticket) =
        [⟨held.view.ticket, loan.region, loan.access⟩]
  /-- A view has no lease where it was not lent. -/
  unleased : ∀ view held name owner, session.views.find? view = some held →
    session.tables.find? name = some owner → ¬ account.Owes view name →
    ∀ lease ∈ owner.leases, lease.ticket ≠ held.view.ticket
  /-- The table that lent a view takes it back. -/
  accepts : ∀ view loan, account.loan view = some loan →
    ∀ how : Return, how = .release loan.region ∨ how = .discard →
      (session.step (.table loan.table (how.command view))).1.answer = .ok .done
  /-- Every other table of its precision refuses it, and no table changes. -/
  refuses : ∀ view held name owner (how : Return), session.views.find? view = some held →
    session.tables.find? name = some owner → held.precision = owner.precision →
    ¬ account.Owes view name →
    (session.step (.table name (how.command view))).1.answer =
        .error (.table (.viewMisuse .unknownTicket)) ∧
      ∀ other, (session.step (.table name (how.command view))).2.tables.find? other =
        session.tables.find? other
  /-- What is outstanding was lent and has not come back. -/
  balanced : ∀ name owner, session.tables.find? name = some owner →
    owner.outstanding + account.closed name = account.lent name

theorem filter_ticket {ledger : Ledger} {lease : Lease} (distinct : ledger.Distinct)
    (mem : lease ∈ ledger.leases) :
    ledger.leases.filter (fun other => other.ticket = lease.ticket) = [lease] := by
  have nodup : ledger.leases.Nodup := List.Nodup.of_map Lease.ticket distinct
  have same : ∀ other ∈ ledger.leases,
      decide (other.ticket = lease.ticket) = (other == lease) := by
    intro other otherMem
    rw [Bool.eq_iff_iff, decide_eq_true_iff, beq_iff_eq]
    exact ⟨List.inj_on_of_nodup_map distinct otherMem mem, congrArg Lease.ticket⟩
  rw [List.filter_congr same, List.filter_beq, List.count_eq_one_of_mem nodup mem,
    List.replicate_one]

theorem unleased_of_not_owes {session : Session} {account : Account}
    (agreed : account.Matches session) {view name : String} {held : SomeView} {owner : SomeTable}
    (found : session.views.find? view = some held)
    (owned : session.tables.find? name = some owner) (unowed : ¬ account.Owes view name) :
    ∀ lease ∈ owner.leases, lease.ticket ≠ held.view.ticket := by
  intro lease mem clash
  rw [agreed.owes_iff (leases?_of_find? owned) (ticket?_of_find? found)] at unowed
  exact unowed ⟨lease, mem, clash⟩

theorem lease_of_loan {session : Session} {account : Account} (sound : session.Sound)
    (agreed : account.Matches session) {view : String} {loan : Loan}
    (owed : account.loan view = some loan) :
    ∃ held owner, session.views.find? view = some held ∧
      session.tables.find? loan.table = some owner ∧
      ⟨held.view.ticket, loan.region, loan.access⟩ ∈ owner.leases ∧
      held.Under ⟨held.view.ticket, loan.region, loan.access⟩ owner := by
  obtain ⟨leases, ticket, leasesFound, ticketFound, mem⟩ := agreed.recorded view loan owed
  obtain ⟨owner, owned, rfl⟩ := find?_of_leases? leasesFound
  obtain ⟨held, found, rfl⟩ := find?_of_ticket? ticketFound
  exact ⟨held, owner, found, owned, mem, sound.under loan.table owner view held owned found _ mem rfl⟩

theorem accepts_of_loan {session : Session} {account : Account} (sound : session.Sound)
    (agreed : account.Matches session) {view : String} {loan : Loan}
    (owed : account.loan view = some loan) {how : Return}
    (kind : how = .release loan.region ∨ how = .discard) :
    (session.step (.table loan.table (how.command view))).1.answer = .ok .done := by
  obtain ⟨⟨precision, held⟩, owner, found, owned, mem, under⟩ := lease_of_loan sound agreed owed
  obtain rfl : precision = owner.precision := under.precision
  have leased := Ledger.find?_of_mem (sound.distinct loan.table owner owned) mem
  have same : loan.region = how.region held := by
    rcases kind with rfl | rfl
    · rfl
    · exact under.region.symm
  rw [step_returned owned found (Table.takeBack_of_fits leased same under.fits)]
  rfl

theorem refuses_of_not_owes {session : Session} {account : Account}
    (agreed : account.Matches session) {view name : String} {held : SomeView} {owner : SomeTable}
    (how : Return) (found : session.views.find? view = some held)
    (owned : session.tables.find? name = some owner) (kind : held.precision = owner.precision)
    (unowed : ¬ account.Owes view name) :
    (session.step (.table name (how.command view))).1.answer =
        .error (.table (.viewMisuse .unknownTicket)) ∧
      ∀ other, (session.step (.table name (how.command view))).2.tables.find? other =
        session.tables.find? other := by
  obtain ⟨precision, held⟩ := held
  obtain rfl : precision = owner.precision := kind
  have unknown : owner.table.ledger.find? held.ticket = none :=
    Ledger.find?_eq_none_iff.mpr (unleased_of_not_owes agreed found owned unowed)
  rw [step_returned owned found (Table.takeBack_of_unknown how unknown)]
  exact ⟨rfl, find?_insert_self owned⟩

/-- However tables are made, lent from, named anew and dropped, a view stays tied
to the table that lent it, as long as fewer than `2 ^ 64 - 1` views are handed out. -/
theorem views_belong_to_one_table (commands : List Command)
    (few : initial.issued commands < 2 ^ 64 - 1) :
    (initial.after commands).Honours (initial.account commands) where
  ticketsDistinct := (sound_after few).distinct
  ticketsApart := by
    intro name other owner stranger apart owned owned' lease mem lease' mem' clash
    exact apart
      ((sound_after few).leasesApart name owner other stranger owned owned' lease mem lease' mem' clash)
  leased := by
    intro view loan owed
    have sound := sound_after few
    obtain ⟨held, owner, found, owned, mem, under⟩ :=
      lease_of_loan sound (Account.matches_after few) owed
    exact ⟨held, owner, found, owned, under.region, under.access,
      filter_ticket (sound.distinct loan.table owner owned) mem⟩
  unleased := by
    intro view held name owner found owned unowed
    exact unleased_of_not_owes (Account.matches_after few) found owned unowed
  accepts := by
    intro view loan owed how kind
    exact accepts_of_loan (sound_after few) (Account.matches_after few) owed kind
  refuses := by
    intro view held name owner how found owned kind unowed
    exact refuses_of_not_owes (Account.matches_after few) how found owned kind unowed
  balanced := by
    intro name owner owned
    exact (Account.matches_after few).counted name owner.leases (leases?_of_find? owned)

def lentAndCopied : List Command :=
  [.create "t" .double .triangular .upper 2 .zeros,
    .table "t" (.acquire "v" (.rows 0 1) .readWrite),
    .table "t" (.acquire "w" (.column 1 1 1) .readOnly),
    .table "t" (.copy "u"),
    .table "u" (.discard "w")]

theorem view_stays_with_original :
    initial.issued lentAndCopied < 2 ^ 64 - 1 ∧
      (initial.after lentAndCopied).Honours (initial.account lentAndCopied) ∧
      (initial.account lentAndCopied).loan "v" = some ⟨"t", .rows 0 1, .readWrite⟩ ∧
      (initial.account lentAndCopied).loan "w" = none ∧
      (initial.account lentAndCopied).lent "t" = 2 ∧
      (initial.account lentAndCopied).closed "t" = 0 :=
  ⟨by decide, views_belong_to_one_table lentAndCopied (by decide), rfl, rfl, rfl, rfl⟩

end HalfMatrix.Session
