import HalfMatrix.Proofs.Session.Events

/-!
# Runs of a session

A run is a list of commands.  It leads to a session, shows a list of events,
and uses up as many tickets as views are handed out in its course.
-/

set_option autoImplicit false

namespace HalfMatrix.Session

def initial : Session := {}

def after (session : Session) (commands : List Command) : Session := (session.run commands).2

def events (session : Session) : List Command → List Event
  | [] => []
  | command :: commands =>
      command.event (session.step command).1 :: (session.step command).2.events commands

/-- How many views the commands hand out, those of printing included. -/
def issued (session : Session) : List Command → Nat
  | [] => 0
  | command :: commands =>
      (if (session.step command).2.nextTicket = session.nextTicket then 0 else 1) +
        (session.step command).2.issued commands

theorem after_nil (session : Session) : session.after [] = session := rfl

theorem after_cons (session : Session) (command : Command) (commands : List Command) :
    session.after (command :: commands) = (session.step command).2.after commands := rfl

theorem after_append (session : Session) (commands later : List Command) :
    session.after (commands ++ later) = (session.after commands).after later := by
  induction commands generalizing session with
  | nil => rfl
  | cons command commands ih => exact ih (session.step command).2

theorem issued_append (session : Session) (commands later : List Command) :
    session.issued (commands ++ later) =
      session.issued commands + (session.after commands).issued later := by
  induction commands generalizing session with
  | nil => simp [issued, after_nil]
  | cons command commands ih =>
      simp only [List.cons_append, issued, after_cons, ih]
      omega

/-- What no step destroys holds after every run. -/
theorem after_induction {Kept : Session → Prop} {session : Session}
    (kept : ∀ before next event, Kept before → Effect before next event → Kept next)
    (start : Kept session) (commands : List Command) : Kept (session.after commands) := by
  induction commands generalizing session with
  | nil => exact start
  | cons command commands ih =>
      exact ih (kept session _ _ start (step_effect session command))

theorem find?_insert_cases {α : Type} {names : Names α} {name other : String} {value held : α}
    (found : (names.insert name value).find? other = some held) :
    (other = name ∧ held = value) ∨ (other ≠ name ∧ names.find? other = some held) := by
  rw [Names.find?_insert] at found
  split at found
  · rename_i same
    exact Or.inl ⟨same, (Option.some.inj found).symm⟩
  · rename_i apart
    exact Or.inr ⟨apart, found⟩

theorem find?_of_find?_erase {α : Type} {names : Names α} {name other : String} {held : α}
    (found : (names.erase name).find? other = some held) : names.find? other = some held := by
  rw [Names.find?_erase] at found
  split at found
  · cases found
  · exact found

/-- What a step with this event makes of a table that keeps its name. -/
inductive Move (session : Session) (name : String) (owner : SomeTable) :
    Event → Table (Binary owner.precision) owner.dim → Prop where
  | written {entries : Vector (Binary owner.precision) (Packing.triangular owner.dim)} :
      Move session name owner (.written name) { owner.table with entries }
  | printed {region : Region} {shown : View (Binary owner.precision)}
      {lent after : Table (Binary owner.precision) owner.dim} {outcome : Except TableError Unit}
      (granted : owner.table.acquire region .readOnly session.nextTicket = .ok (shown, lent))
      (taken : lent.takeBack (.release region) shown = .ok (after, outcome)) :
      Move session name owner .none after
  | lent {view : String} {region : Region} {access : Access} {lent : View (Binary owner.precision)}
      {after : Table (Binary owner.precision) owner.dim}
      (granted : owner.table.acquire region access session.nextTicket = .ok (lent, after)) :
      Move session name owner (.lent name view region access) after
  | returned {view : String} {held : View (Binary owner.precision)} {how : Return}
      {after : Table (Binary owner.precision) owner.dim} {outcome : Except TableError Unit}
      (found : session.views.find? view = some ⟨owner.precision, held⟩)
      (taken : owner.table.takeBack how held = .ok (after, outcome)) :
      Move session name owner (.returned name view) after

/-- After a step a name stands for the table it stood for, for one that has no
view outstanding, or for what became of the table it stood for. -/
theorem Effect.table_cases {session next : Session} {event : Event} {name : String}
    {owner : SomeTable} (effect : Effect session next event)
    (found : next.tables.find? name = some owner) :
    session.tables.find? name = some owner ∨ owner.table.ledger = .empty ∨
      ∃ before after, session.tables.find? name = some before ∧
        owner = { before with table := after } ∧ Move session name before event after := by
  cases effect with
  | idle holds =>
      rw [holds.tables] at found
      exact Or.inl found
  | edited _ _ holds =>
      rw [holds.tables] at found
      exact Or.inl found
  | forgotten holds =>
      rw [holds.tables] at found
      exact Or.inl found
  | dropped holds =>
      rw [holds.tables] at found
      exact Or.inl (find?_of_find?_erase found)
  | made blank holds =>
      rw [holds.tables] at found
      rcases find?_insert_cases found with ⟨_, rfl⟩ | ⟨_, found⟩
      · exact Or.inr (Or.inl blank)
      · exact Or.inl found
  | written owned holds =>
      rw [holds.tables] at found
      rcases find?_insert_cases found with ⟨rfl, rfl⟩ | ⟨_, found⟩
      · exact Or.inr (Or.inr ⟨_, _, owned, rfl, .written⟩)
      · exact Or.inl found
  | printed owned granted taken holds =>
      rw [holds.tables] at found
      rcases find?_insert_cases found with ⟨rfl, rfl⟩ | ⟨_, found⟩
      · exact Or.inr (Or.inr ⟨_, _, owned, rfl, .printed granted taken⟩)
      · exact Or.inl found
  | lent owned granted holds =>
      rw [holds.tables] at found
      rcases find?_insert_cases found with ⟨rfl, rfl⟩ | ⟨_, found⟩
      · exact Or.inr (Or.inr ⟨_, _, owned, rfl, .lent granted⟩)
      · exact Or.inl found
  | returned owned held taken holds =>
      rw [holds.tables] at found
      rcases find?_insert_cases found with ⟨rfl, rfl⟩ | ⟨_, found⟩
      · exact Or.inr (Or.inr ⟨_, _, owned, rfl, .returned held taken⟩)
      · exact Or.inl found

end HalfMatrix.Session
