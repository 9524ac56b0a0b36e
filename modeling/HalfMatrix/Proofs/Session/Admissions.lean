import HalfMatrix.Proofs.Conflicts
import HalfMatrix.Proofs.Session.Exclusion
import Mathlib.Data.List.Perm.Basic

/-!
# Requests that are granted together

In every session that a run leads to, a request for a region of a table is
refused exactly if an outstanding view contests it.  Requests that are made one
after the other are all granted exactly if no outstanding view contests any of
them and no two of them contest each other.  Neither depends on their order, so
neither does whether all can be outstanding together.
-/

set_option autoImplicit false

namespace HalfMatrix

structure Acquisition where
  table : String
  view : String
  region : Region
  access : Access
  deriving DecidableEq, Repr

def Acquisition.command (request : Acquisition) : Command :=
  .table request.table (.acquire request.view request.region request.access)

namespace Session

def Admits (session : Session) (request : Acquisition) : Prop :=
  ∃ owner, session.tables.find? request.table = some owner ∧ request.region.Within owner.dim ∧
    ∀ held ∈ owner.table.ledger.leases,
      ¬ owner.table.Contests held.region held.access request.region request.access

/-- The requests are for different tables or do not contest each other. -/
def Compatible (session : Session) (left right : Acquisition) : Prop :=
  left.table = right.table → ∀ owner, session.tables.find? left.table = some owner →
    ¬ owner.table.Contests left.region left.access right.region right.access

def GrantsAll (session : Session) (requests : List Acquisition) : Prop :=
  ∀ reply ∈ (session.run (requests.map Acquisition.command)).1, reply.answer.isOk = true

def Lends (session : Session) (request : Acquisition) : Prop :=
  ∃ owner, session.tables.find? request.table = some owner ∧
    ∃ lease ∈ owner.table.ledger.leases,
      lease.region = request.region ∧ lease.access = request.access

theorem Compatible.symm {session : Session} {left right : Acquisition}
    (compatible : session.Compatible left right) : session.Compatible right left := by
  intro same owner owned contests
  rw [same] at owned
  exact compatible same.symm owner owned contests.symm

/-! ## One request -/

theorem answer_acquire {session : Session} {table view : String} {owner : SomeTable}
    {region : Region} {access : Access} (owned : session.tables.find? table = some owner) :
    (session.step (.table table (.acquire view region access))).1.answer =
      match owner.table.acquire region access session.nextTicket with
      | .error error => .error (.table error)
      | .ok (lent, _) => .ok (.window lent.rows lent.cols
          (SomeView.mk owner.precision lent).numerals) := by
  simp only [step, withFound, find, owned, tableStep, acquire]
  cases owner.table.acquire region access session.nextTicket <;> rfl

theorem isOk_answer_acquire {session : Session} {table view : String} {owner : SomeTable}
    {region : Region} {access : Access} (owned : session.tables.find? table = some owner) :
    (session.step (.table table (.acquire view region access))).1.answer.isOk = true ↔
      ∃ lent, owner.table.acquire region access session.nextTicket = .ok lent := by
  rw [answer_acquire owned]
  cases owner.table.acquire region access session.nextTicket with
  | error error => simp [Except.isOk, Except.toBool]
  | ok lent => simp [Except.isOk, Except.toBool]

theorem isOk_answer_iff {session : Session} (orderly : session.Orderly) (request : Acquisition) :
    (session.step request.command).1.answer.isOk = true ↔ session.Admits request := by
  cases owned : session.tables.find? request.table with
  | none =>
      simp [Acquisition.command, step, withFound, find, owned, refuse, Admits, Except.isOk,
        Except.toBool]
  | some owner =>
      rw [Acquisition.command, isOk_answer_acquire owned,
        Table.exists_acquire_iff (orderly _ owner owned)]
      simp [Admits, owned]

/-- Once a request is granted its table has one more lease, and nothing else
has become of the tables. -/
theorem find?_step_admitted {session : Session} (orderly : session.Orderly) {request : Acquisition}
    (admitted : session.Admits request) :
    ∃ owner, session.tables.find? request.table = some owner ∧
      ∀ name, (session.step request.command).2.tables.find? name =
        if name = request.table then
          some { owner with
            table := owner.table.withLease ⟨session.nextTicket, request.region, request.access⟩ }
        else session.tables.find? name := by
  obtain ⟨owner, owned, within, free⟩ := admitted
  obtain ⟨⟨view, after⟩, granted⟩ :=
    (Table.exists_acquire_iff (orderly _ owner owned) request.region request.access
      session.nextTicket).mpr ⟨within, free⟩
  obtain ⟨_, _, _, rfl⟩ := Table.acquire_eq_ok_iff.mp granted
  refine ⟨owner, owned, ?_⟩
  intro name
  rw [Acquisition.command, step_lent owned granted]
  exact Names.find?_insert _ _ _ _

/-- After a request another one is admitted if it was before and the two are compatible. -/
theorem admits_step_iff {session : Session} (orderly : session.Orderly) {first : Acquisition}
    (admitted : session.Admits first) (second : Acquisition) :
    (session.step first.command).2.Admits second ↔
      session.Admits second ∧ session.Compatible first second := by
  obtain ⟨owner, owned, tables⟩ := find?_step_admitted orderly admitted
  unfold Admits Compatible
  rw [tables]
  by_cases same : second.table = first.table
  · rw [if_pos same, same, owned]
    simp only [Option.some.injEq, exists_eq_left', forall_eq', true_implies]
    constructor
    · rintro ⟨within, free⟩
      exact ⟨⟨within, fun held mem => free held (List.mem_append_left _ mem)⟩,
        free _ (List.mem_append_right _ (List.mem_singleton_self _))⟩
    · rintro ⟨⟨within, free⟩, compatible⟩
      refine ⟨within, ?_⟩
      intro held mem
      rcases List.mem_append.mp mem with mem | mem
      · exact free held mem
      · rw [List.mem_singleton.mp mem]
        exact compatible
  · rw [if_neg same]
    simp [Ne.symm same]

theorem compatible_step_iff {session : Session} (orderly : session.Orderly) {first : Acquisition}
    (admitted : session.Admits first) (left right : Acquisition) :
    (session.step first.command).2.Compatible left right ↔ session.Compatible left right := by
  obtain ⟨owner, owned, tables⟩ := find?_step_admitted orderly admitted
  unfold Compatible
  rw [tables]
  by_cases same : left.table = first.table
  · rw [if_pos same, same, owned]
    simp only [Option.some.injEq, forall_eq']
    exact Iff.rfl
  · rw [if_neg same]

theorem lends_step {session : Session} (orderly : session.Orderly) {request : Acquisition}
    (admitted : session.Admits request) : (session.step request.command).2.Lends request := by
  obtain ⟨owner, _, tables⟩ := find?_step_admitted orderly admitted
  refine ⟨_, (tables request.table).trans (if_pos rfl),
    ⟨session.nextTicket, request.region, request.access⟩, ?_, rfl, rfl⟩
  exact List.mem_append_right _ (List.mem_singleton_self _)

theorem Lends.step {session : Session} (orderly : session.Orderly) {first second : Acquisition}
    (lends : session.Lends second) (admitted : session.Admits first) :
    (session.step first.command).2.Lends second := by
  obtain ⟨owner, owned, tables⟩ := find?_step_admitted orderly admitted
  obtain ⟨lender, lending, lease, mem, same⟩ := lends
  by_cases named : second.table = first.table
  · rw [named, owned] at lending
    obtain rfl := Option.some.inj lending
    exact ⟨_, (tables second.table).trans (if_pos named), lease, List.mem_append_left _ mem, same⟩
  · exact ⟨lender, ((tables second.table).trans (if_neg named)).trans lending, lease, mem, same⟩

/-! ## Several requests -/

theorem Orderly.step {session : Session} (orderly : session.Orderly) (command : Command) :
    (session.step command).2.Orderly :=
  orderly.effect (step_effect session command)

theorem grantsAll_cons {session : Session} (orderly : session.Orderly) (request : Acquisition)
    (requests : List Acquisition) :
    session.GrantsAll (request :: requests) ↔
      session.Admits request ∧ (session.step request.command).2.GrantsAll requests := by
  rw [← isOk_answer_iff orderly]
  simp [GrantsAll, run]

theorem grantsAll_iff {session : Session} (orderly : session.Orderly)
    (requests : List Acquisition) :
    session.GrantsAll requests ↔
      (∀ request ∈ requests, session.Admits request) ∧ requests.Pairwise session.Compatible := by
  induction requests generalizing session with
  | nil => simp [GrantsAll, run]
  | cons request requests ih =>
      rw [grantsAll_cons orderly, List.forall_mem_cons, List.pairwise_cons]
      by_cases admitted : session.Admits request
      · have pairs : (session.step request.command).2.Compatible = session.Compatible := by
          funext left right
          exact propext (compatible_step_iff orderly admitted left right)
        rw [ih (orderly.step request.command), pairs]
        simp only [admits_step_iff orderly admitted, true_and, admitted]
        constructor
        · rintro ⟨each, apart⟩
          exact ⟨fun other mem => (each other mem).1, fun other mem => (each other mem).2, apart⟩
        · rintro ⟨each, first, apart⟩
          exact ⟨fun other mem => ⟨each other mem, first other mem⟩, apart⟩
      · simp [admitted]

theorem Lends.after {session : Session} (orderly : session.Orderly) {request : Acquisition}
    {requests : List Acquisition} (lends : session.Lends request)
    (granted : session.GrantsAll requests) :
    (session.after (requests.map Acquisition.command)).Lends request := by
  induction requests generalizing session with
  | nil => exact lends
  | cons first requests ih =>
      obtain ⟨admitted, granted⟩ := (grantsAll_cons orderly first requests).mp granted
      exact ih (orderly.step first.command) (lends.step orderly admitted) granted

/-- When all requests are granted, all of their views are outstanding together. -/
theorem lends_after {session : Session} (orderly : session.Orderly) {requests : List Acquisition}
    (granted : session.GrantsAll requests) :
    ∀ request ∈ requests, (session.after (requests.map Acquisition.command)).Lends request := by
  induction requests generalizing session with
  | nil => exact fun _ mem => (List.not_mem_nil mem).elim
  | cons first requests ih =>
      obtain ⟨admitted, granted⟩ := (grantsAll_cons orderly first requests).mp granted
      rintro request (_ | ⟨_, mem⟩)
      · exact (lends_step orderly admitted).after (orderly.step first.command) granted
      · exact ih (orderly.step first.command) granted request mem

theorem grantsAll_perm {session : Session} (orderly : session.Orderly)
    {requests others : List Acquisition} (same : requests.Perm others) :
    session.GrantsAll requests ↔ session.GrantsAll others := by
  rw [grantsAll_iff orderly, grantsAll_iff orderly,
    same.pairwise_iff fun compatible => Compatible.symm compatible]
  simp only [same.mem_iff]

/-- The session refuses what is contested and nothing else that lies in a
table, and grants requests together whatever their order. -/
structure AdmitsExactly (session : Session) : Prop where
  refused : ∀ (name view : String) (owner : SomeTable) (region : Region) (access : Access),
    session.tables.find? name = some owner → region.Within owner.dim →
      ((session.step (.table name (.acquire view region access))).1.answer =
          .error (.table (.viewMisuse .overlap)) ↔
        ∃ lease ∈ owner.table.ledger.leases,
          owner.table.Contests lease.region lease.access region access)
  granted : ∀ (name view : String) (owner : SomeTable) (region : Region) (access : Access),
    session.tables.find? name = some owner → region.Within owner.dim →
      ((session.step (.table name (.acquire view region access))).1.answer.isOk = true ↔
        ¬ ∃ lease ∈ owner.table.ledger.leases,
          owner.table.Contests lease.region lease.access region access)
  together : ∀ requests : List Acquisition, session.GrantsAll requests →
    ∀ request ∈ requests, (session.after (requests.map Acquisition.command)).Lends request
  unordered : ∀ requests others : List Acquisition, requests.Perm others →
    (session.GrantsAll requests ↔ session.GrantsAll others)

theorem granted_iff_uncontested {session : Session} (orderly : session.Orderly)
    {name : String} (view : String) {owner : SomeTable} {region : Region} {access : Access}
    (owned : session.tables.find? name = some owner) (within : region.Within owner.dim) :
    (session.step (.table name (.acquire view region access))).1.answer.isOk = true ↔
      ¬ ∃ lease ∈ owner.table.ledger.leases,
        owner.table.Contests lease.region lease.access region access := by
  rw [isOk_answer_acquire owned, Table.exists_acquire_iff (orderly _ owner owned)]
  simp [within]

theorem refused_iff_contested {session : Session} (orderly : session.Orderly)
    {name : String} (view : String) {owner : SomeTable} {region : Region} {access : Access}
    (owned : session.tables.find? name = some owner) (within : region.Within owner.dim) :
    (session.step (.table name (.acquire view region access))).1.answer =
        .error (.table (.viewMisuse .overlap)) ↔
      ∃ lease ∈ owner.table.ledger.leases,
        owner.table.Contests lease.region lease.access region access := by
  rw [← not_iff_not, ← granted_iff_uncontested orderly view owned within,
    answer_acquire owned]
  cases refused : owner.table.acquire region access session.nextTicket with
  | ok lent => simp [Except.isOk, Except.toBool]
  | error error =>
      rw [Table.acquire_eq_error within refused]
      simp [Except.isOk, Except.toBool]

theorem admitsExactly {session : Session} (orderly : session.Orderly) : session.AdmitsExactly where
  refused _ view _ _ _ owned within := refused_iff_contested orderly view owned within
  granted _ view _ _ _ owned within := granted_iff_uncontested orderly view owned within
  together _ granted := lends_after orderly granted
  unordered _ _ same := grantsAll_perm orderly same

/-- Regions of a table are compared without a missed or a spurious conflict,
and every session that a run leads to admits requests accordingly. -/
theorem conflicts_are_shared_entries {n : Nat} {left right : Region} (within : left.Within n)
    (within' : right.Within n) (commands : List Command) :
    Region.ComparedExactly n left right ∧ (initial.after commands).AdmitsExactly :=
  ⟨Region.comparedExactly within within', admitsExactly (orderly_after commands)⟩

/-- Where row 0 of a symmetric table is lent for writing, column 0 below it is
contested through its transpose, and part of column 1 is free. -/
theorem transpose_of_lent_row_contested :
    (Region.rows 0 1).meetsReflected (.column 0 1 2) = true ∧
      (Region.rows 0 1).meets (.column 0 1 2) = false ∧
      ((initial.after rowAndColumn).step
        (.table "t" (.acquire "other" (.column 0 1 2) .readOnly))).1.answer =
          .error (.table (.viewMisuse .overlap)) ∧
      ((initial.after rowAndColumn).step
        (.table "t" (.acquire "other" (.column 1 1 2) .readOnly))).1.answer.isOk = true := by
  have within : (Region.rows 0 1).Within 3 := by decide
  have within' : (Region.column 0 1 2).Within 3 := by decide
  obtain ⟨compared, admits⟩ := conflicts_are_shared_entries within within' rowAndColumn
  refine ⟨compared.meetsReflected.mpr ⟨0, 1, by decide⟩, ?_, ?_, ?_⟩
  · rw [← Bool.not_eq_true, compared.meets]
    decide
  · apply (admits.refused "t" "other" _ _ _ rfl within').mpr
    decide
  · apply (admits.granted "t" "other" _ _ _ rfl (by decide)).mpr
    decide

end Session

end HalfMatrix
