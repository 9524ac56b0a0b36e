import HalfMatrix.Proofs.Session.Runs

/-!
# Writers share no position

In every session that a run leads to, the leases of a table are on regions of
the table and no two of them conflict.  Two views that are outstanding at one
time, one of them for writing, therefore address no packed position in common.
-/

set_option autoImplicit false

namespace HalfMatrix.Session

def Orderly (session : Session) : Prop :=
  ∀ name owner, session.tables.find? name = some owner → owner.table.Orderly

theorem Move.orderly {session : Session} {name : String} {owner : SomeTable} {event : Event}
    {after : Table (Binary owner.precision) owner.dim} (orderly : owner.table.Orderly)
    (move : Move session name owner event after) : after.Orderly := by
  cases move with
  | written => exact orderly
  | printed granted taken => exact (orderly.withLease granted).takeBack taken
  | lent granted => exact orderly.withLease granted
  | returned _ taken => exact orderly.takeBack taken

theorem Orderly.effect {session next : Session} {event : Event} (orderly : session.Orderly)
    (effect : Effect session next event) : next.Orderly := by
  intro name owner found
  rcases effect.table_cases found with same | blank | ⟨before, after, owned, rfl, move⟩
  · exact orderly name owner same
  · unfold Table.Orderly
    rw [blank]
    exact Ledger.orderly_empty _ _
  · have kept : after.Orderly := move.orderly (orderly name before owned)
    exact kept

theorem orderly_after (commands : List Command) : (initial.after commands).Orderly := by
  apply after_induction
  · intro before next event orderly effect
    exact orderly.effect effect
  · intro name owner found
    cases found

/-- Of two outstanding views of a table, not both read-only, no packed position
is addressed by both.  A region of no rows addresses nothing, and is lent
whenever it lies in the table. -/
theorem outstanding_views_share_no_position (commands : List Command) (name : String)
    (owner : SomeTable) (owned : (initial.after commands).tables.find? name = some owner) :
    (owner.table.ledger.leases.Pairwise fun left right =>
        left.access ≠ .readOnly ∨ right.access ≠ .readOnly →
          ∀ place, ¬ (owner.table.Addresses left.region place ∧
            owner.table.Addresses right.region place)) ∧
      ∀ region : Region, region.count = 0 →
        (∀ place, ¬ owner.table.Addresses region place) ∧
          (region.Within owner.dim → ∀ access ticket, ∃ view after,
            owner.table.acquire region access ticket = .ok (view, after)) := by
  have orderly := orderly_after commands name owner owned
  constructor
  · apply orderly.clear.imp
    rintro left right clear writable place ⟨addressed, addressed'⟩
    exact Table.not_both_address clear writable addressed addressed'
  · intro region empty
    refine ⟨Table.not_addresses_of_isEmpty empty, ?_⟩
    intro within access ticket
    exact ⟨_, _, owner.table.acquire_of_isEmpty empty within access ticket⟩

def rowAndColumn : List Command :=
  [.create "t" .double .symmetric .lower 3 .zeros,
    .table "t" (.acquire "row" (.rows 0 1) .readWrite),
    .table "t" (.acquire "column" (.column 2 1 2) .readOnly)]

theorem row_and_column_share_no_position :
    ∃ owner, (initial.after rowAndColumn).tables.find? "t" = some owner ∧
      owner.table.ledger.leases =
        [⟨1, .rows 0 1, .readWrite⟩, ⟨2, .column 2 1 2, .readOnly⟩] ∧
      ∀ place, ¬ (owner.table.Addresses (.rows 0 1) place ∧
        owner.table.Addresses (.column 2 1 2) place) := by
  refine ⟨_, rfl, rfl, ?_⟩
  have apart := (outstanding_views_share_no_position rowAndColumn "t" _ rfl).1
  exact (List.pairwise_cons.mp apart).1 _ (List.mem_singleton_self _) (Or.inl (by decide))

end HalfMatrix.Session
