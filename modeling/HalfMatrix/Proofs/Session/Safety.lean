import HalfMatrix.Proofs.Flat.Lending
import HalfMatrix.Proofs.Session.Custody

/-!
# No step leaves the words or the buffers

In every session that a run leads to, the operations of a flat table give a
result, and it is that of the table: they never index a buffer outside its
bounds and never overflow.  A view always has the shape that its region has in
the table that lent it, and what is committed always has the shape of its
region in the table that it is committed to.
-/

set_option autoImplicit false

namespace HalfMatrix

/-- The operations of the table stay inside the words and the buffers. -/
structure SomeTable.InBounds (owner : SomeTable) : Prop where
  get : ∀ row col, owner.table.flat.get? row col = some (owner.table.get row col)
  set : ∀ row col value,
    owner.table.flat.set? row col value = some ((owner.table.set row col value).map Table.flat)
  setAll : ∀ value, owner.table.flat.setAll value = (owner.table.setAll value).flat
  dense : owner.table.flat.dense? = some owner.table.toGrid.toList
  display : owner.table.flat.display? = some owner.table.display
  toTriangle : ∀ target,
    owner.table.flat.toTriangle? target = some (owner.table.toTriangle target).flat
  acquire : ∀ region access ticket,
    owner.table.flat.acquire? region access ticket =
      some ((owner.table.acquire region access ticket).map fun (view, after) =>
        (view.flat, after.flat))
  discard : ∀ view : View (Binary owner.precision),
    owner.table.flat.discard? view.flat =
      some ((owner.table.discard view).1.flat, (owner.table.discard view).2)

theorem SomeTable.inBounds (owner : SomeTable) (orderly : owner.table.Orderly) :
    owner.InBounds where
  get := owner.table.get?_flat
  set := owner.table.set?_flat
  setAll := owner.table.setAll_flat
  dense := owner.table.dense?_flat
  display := owner.table.display?_flat
  toTriangle := owner.table.toTriangle?_flat
  acquire := owner.table.acquire?_flat orderly
  discard := owner.table.discard?_flat

def TableCommand.IsSafe : TableCommand → Prop
  | .get _ _ => True
  | .set _ _ _ => True
  | .setAll _ => True
  | .dense => True
  | .display => True
  | .copy _ => True
  | .toTriangle _ _ => True
  | .acquire _ _ _ => True
  | .discard _ => True
  | _ => False

namespace Session

variable {session next : Session}

/-! ## The shape of views -/

abbrev Lenders : Type := String → Option Nat

def noteLender (session : Session) (lenders : Lenders) : Event → Lenders
  | .lent table view _ _ => fun other =>
      if other = view then (session.tables.find? table).map SomeTable.dim else lenders other
  | _ => lenders

def lendersAfter (session : Session) (lenders : Lenders) : List Command → Lenders
  | [] => lenders
  | command :: commands =>
      (session.step command).2.lendersAfter
        (session.noteLender lenders (command.event (session.step command).1)) commands

/-- Every view has the shape that its region has in the table that lent it, and
as many values as that shape has room for. -/
def ViewsFit (session : Session) (lenders : Lenders) : Prop :=
  ∀ view held, session.views.find? view = some held →
    ∃ dim, lenders view = some dim ∧ held.view.Fits held.view.region dim ∧
      held.view.flat.data.size = held.view.rows * held.view.cols

theorem ViewsFit.effect {lenders : Lenders} {event : Event} (fit : session.ViewsFit lenders)
    (effect : Effect session next event) : next.ViewsFit (session.noteLender lenders event) := by
  have kept : ∀ (view : String) (held before : SomeView), session.views.find? view = some before →
      held.SameLease before →
      ∃ dim, lenders view = some dim ∧ held.view.Fits held.view.region dim ∧
        held.view.flat.data.size = held.view.rows * held.view.cols := by
    intro view held before was same
    obtain ⟨dim, lent, fits, _⟩ := fit view before was
    obtain ⟨within, rows, cols⟩ := fits
    refine ⟨dim, lent, ?_, held.view.data.size_toArray⟩
    rw [same.region]
    exact ⟨within, same.rows.trans rows, same.cols.trans cols⟩
  intro view held found
  cases effect with
  | lent owned granted holds =>
      rw [holds.views] at found
      rcases find?_insert_cases found with ⟨rfl, rfl⟩ | ⟨apart, found⟩
      · obtain ⟨within, _, rfl, _⟩ := Table.acquire_eq_ok_iff.mp granted
        refine ⟨_, ?_, ⟨within, rfl, rfl⟩, Vector.size_toArray _⟩
        simp only [noteLender, if_true, owned, Option.map_some]
      · have old := kept view held held found held.sameLease_self
        simpa only [noteLender, if_neg apart] using old
  | edited before same holds =>
      rw [holds.views] at found
      rcases find?_insert_cases found with ⟨rfl, rfl⟩ | ⟨_, found⟩
      · exact kept _ _ _ before ⟨same, rfl⟩
      · exact kept view held held found held.sameLease_self
  | returned _ _ _ holds =>
      rw [holds.views] at found
      exact kept view held held (find?_of_find?_erase found) held.sameLease_self
  | forgotten holds =>
      rw [holds.views] at found
      exact kept view held held (find?_of_find?_erase found) held.sameLease_self
  | idle holds | made _ holds | dropped holds | written _ holds | printed _ _ _ holds =>
      rw [holds.views] at found
      exact kept view held held found held.sameLease_self

theorem ViewsFit.after {lenders : Lenders} (fit : session.ViewsFit lenders)
    (commands : List Command) :
    (session.after commands).ViewsFit (session.lendersAfter lenders commands) := by
  induction commands generalizing session lenders with
  | nil => exact fit
  | cons command commands ih => exact ih (fit.effect (step_effect session command))

/-! ## Answers -/

theorem answer_of_isSafe (session : Session) (name : String) {command : TableCommand}
    (safe : command.IsSafe) (fault : Fault) :
    (session.step (.table name command)).1.answer ≠ .error (.fault fault) := by
  simp only [step]
  cases owned : session.tables.find? name with
  | none => simp [withFound, find, owned, refuse]
  | some owner =>
      simp only [withFound, find, owned]
      cases command with
      | get row col =>
          simp only [tableStep, SomeTable.reply]
          cases owner.table.get row col <;> simp [Except.map, Except.mapError]
      | set row col value =>
          simp only [tableStep]
          cases owner.table.set row col (value.toBinary owner.precision) <;>
            simp [SomeTable.fullReply]
      | setAll value => simp [tableStep, SomeTable.fullReply]
      | dense => simp [tableStep, SomeTable.reply]
      | display => simp [tableStep, SomeTable.reply]
      | copy target => simp [tableStep, derive, SomeTable.reply]
      | toTriangle target triangle => simp [tableStep, derive, SomeTable.reply]
      | acquire view region access =>
          simp only [tableStep, acquire]
          cases owner.table.acquire region access session.nextTicket <;> simp [SomeTable.reply]
      | discard view =>
          simp only [tableStep, handBack, withFound, find]
          cases session.views.find? view with
          | none => simp [refuse]
          | some held =>
              by_cases same : held.precision = owner.precision
              · simp only [dif_pos same, SomeTable.fullReply]
                cases (owner.table.discard (same ▸ held.view)).2 <;>
                  simp [Except.map, Except.mapError]
              · simp [same, refuse]
      | _ => exact safe.elim

theorem answer_of_dense (session : Session) (name : String) (precision : Precision) (fill : Fill)
    (triangle : Triangle) (dim : Nat) (entries : List Numeral) (fault : Fault) :
    (session.step (.create name precision fill triangle dim (.dense entries))).1.answer ≠
      .error (.fault fault) := by
  simp only [step, create, makeTable]
  cases (Table.ofGrid fill triangle dim (entries.map (Numeral.toBinary precision)).toArray :
    Except TableError (Table (Binary precision) dim)) <;>
    simp [Except.map, Except.mapError, withFound, refuse, SomeTable.reply]

/-! ## Reachable sessions -/

/-- Tables are made, read, written, lent and shown inside the words and the
buffers, and views have the shape of their regions. -/
structure InBounds (session : Session) (lenders : Lenders) : Prop where
  tables : ∀ name owner, session.tables.find? name = some owner → owner.InBounds
  ofGrid : ∀ (precision : Precision) (fill : Fill) (triangle : Triangle) (dim : Nat)
    (dense : Array (Binary precision)), FlatTable.ofGrid? fill triangle dim dense =
      some ((Table.ofGrid fill triangle dim dense :
        Except TableError (Table (Binary precision) dim)).map Table.flat)
  views : session.ViewsFit lenders
  /-- None of the operations answers with a fault. -/
  answers : ∀ (name : String) (command : TableCommand), command.IsSafe → ∀ fault,
    (session.step (.table name command)).1.answer ≠ .error (.fault fault)
  created : ∀ (name : String) (precision : Precision) (fill : Fill) (triangle : Triangle)
    (dim : Nat) (entries : List Numeral) fault,
    (session.step (.create name precision fill triangle dim (.dense entries))).1.answer ≠
      .error (.fault fault)

/-- Views are released, to whatever table and as whatever region, inside the
words and the buffers. -/
structure ReleasesInBounds (session : Session) : Prop where
  /-- What a table would commit lies in it and has the shape of its region. -/
  commits : ∀ name owner view (held : View (Binary owner.precision)) (region : Region),
    session.tables.find? name = some owner →
    session.views.find? view = some ⟨owner.precision, held⟩ →
    (owner.table.ledger.close held.ticket region).2 = .ok () → held.Fits region owner.dim
  release : ∀ name owner view (held : View (Binary owner.precision)) (region : Region),
    session.tables.find? name = some owner →
    session.views.find? view = some ⟨owner.precision, held⟩ →
    ∃ after outcome, owner.table.release region held = .ok (after, outcome) ∧
      owner.table.flat.release? region held.flat = some (after.flat, outcome)
  answers : ∀ (name view : String) (region : Region) (fault : Fault),
    (session.step (.table name (.release view region))).1.answer ≠ .error (.fault fault)

theorem Sound.fits_of_close (sound : session.Sound) {name view : String} {owner : SomeTable}
    {held : View (Binary owner.precision)} {region : Region}
    (owned : session.tables.find? name = some owner)
    (found : session.views.find? view = some ⟨owner.precision, held⟩)
    (closed : (owner.table.ledger.close held.ticket region).2 = .ok ()) :
    held.Fits region owner.dim := by
  unfold Ledger.close at closed
  cases leased : owner.table.ledger.find? held.ticket with
  | none =>
      rw [leased] at closed
      cases closed
  | some lease =>
      rw [leased] at closed
      simp only at closed
      split at closed
      · rename_i same
        obtain ⟨mem, ticket⟩ := Ledger.mem_of_find? leased
        exact same ▸ (sound.under name owner view _ owned found lease mem ticket).fits
      · cases closed

theorem Sound.releasesInBounds (sound : session.Sound) : session.ReleasesInBounds where
  commits _ _ _ _ _ owned found closed := sound.fits_of_close owned found closed
  release _ owner _ held region owned found :=
    owner.table.release?_flat region held (sound.fits_of_close owned found)
  answers := by
    intro name view region fault
    simp only [step]
    cases owned : session.tables.find? name with
    | none => simp [withFound, find, owned, refuse]
    | some owner =>
        simp only [withFound, find, owned, tableStep, handBack]
        cases found : session.views.find? view with
        | none => simp [refuse]
        | some held =>
            obtain ⟨precision, held⟩ := held
            by_cases same : precision = owner.precision
            · subst same
              obtain ⟨after, outcome, released, _⟩ :=
                owner.table.release?_flat region held (sound.fits_of_close owned found)
              simp only [dif_pos, released, SomeTable.fullReply]
              cases outcome <;> simp [Except.map, Except.mapError]
            · simp [same, refuse]

/-- Whatever is done to tables and views, in whatever order and with whatever
arguments, nothing is indexed outside its bounds and nothing overflows.  That a
released view fits the table that commits it rests on its ticket, of which there
are `2 ^ 64 - 1`. -/
theorem no_operation_leaves_the_buffers (commands : List Command) :
    (initial.after commands).InBounds (initial.lendersAfter (fun _ => none) commands) ∧
      (initial.issued commands < 2 ^ 64 - 1 → (initial.after commands).ReleasesInBounds) := by
  refine ⟨⟨?_, ?_, ?_, ?_, ?_⟩, ?_⟩
  · intro name owner owned
    exact owner.inBounds (orderly_after commands name owner owned)
  · intro precision fill triangle dim dense
    exact Table.ofGrid?_flat fill triangle dim dense
  · have start : initial.ViewsFit fun _ => none := by
      intro view held found
      cases found
    exact start.after commands
  · intro name command safe fault
    exact answer_of_isSafe _ name safe fault
  · intro name precision fill triangle dim entries fault
    exact answer_of_dense _ name precision fill triangle dim entries fault
  · intro few
    exact (sound_after few).releasesInBounds

def lentAcross : List Command :=
  [.create "t" .double .symmetric .lower 3 .zeros,
    .create "u" .double .triangular .upper 2 .zeros,
    .create "blank" .double .triangular .upper 0 .zeros,
    .table "t" (.acquire "rows" (.rows 1 2) .readWrite),
    .table "t" (.acquire "column" (.column 0 0 1) .writeOnly),
    .table "blank" (.acquire "nothing" (.rows 0 0) .readWrite),
    .table "u" (.release "column" (.column 0 0 1))]

theorem rows_stay_in_bounds_across_tables :
    initial.issued lentAcross < 2 ^ 64 - 1 ∧
      (initial.after lentAcross).InBounds (initial.lendersAfter (fun _ => none) lentAcross) ∧
      (initial.after lentAcross).ReleasesInBounds ∧
      initial.lendersAfter (fun _ => none) lentAcross "rows" = some 3 ∧
      initial.lendersAfter (fun _ => none) lentAcross "nothing" = some 0 :=
  ⟨by decide, (no_operation_leaves_the_buffers lentAcross).1,
    (no_operation_leaves_the_buffers lentAcross).2 (by decide), rfl, rfl⟩

end Session

end HalfMatrix
