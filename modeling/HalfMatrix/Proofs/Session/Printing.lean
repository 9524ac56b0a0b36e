import HalfMatrix.Proofs.Session.Custody

/-!
# Printing leaves a table as it was

A region is printed through a read-only view, which is lent under a new ticket
and taken back before the printer answers.  Its lease is the last one of the
ledger, so that the leases which were there before are left in their order,
whatever becomes of the printing in between.
-/

set_option autoImplicit false

namespace HalfMatrix

namespace Printer

variable {precision : Precision} {n : Nat} {printer : Printer} {outlets : Outlets}
  {table lent : Table (Binary precision) n} {region : Region} {title : String} {ticket : Ticket}
  {view : View (Binary precision)}

theorem printRegion_of_refused {error : TableError}
    (refused : table.acquire region .readOnly ticket = .error error) :
    printer.printRegion outlets table region title ticket =
      .ok (table, { printer, outlets, answer := .error (.table error) }) := by
  simp only [printRegion, refused]
  rfl

theorem printRegion_of_released {printed : Printed (Except WriteError Unit)}
    (granted : table.acquire region .readOnly ticket = .ok (view, lent))
    (released : lent.release region view = .ok (table, .ok ()))
    (shown : printer.printView outlets title view = .ok printed) :
    printer.printRegion outlets table region title ticket =
      .ok (table, { printer := printed.printer, outlets := printed.outlets,
                    answer := printed.answer.mapError .write }) := by
  simp only [printRegion, granted, shown, released, bind, Except.bind]
  rfl

theorem printRegion_of_granted (outlets : Outlets) (title : String)
    (lays : printer.settings.LaysOut)
    (granted : table.acquire region .readOnly ticket = .ok (view, lent))
    (released : lent.release region view = .ok (table, .ok ())) :
    ∃ printed, printer.printView outlets title view = .ok printed ∧
      printer.printRegion outlets table region title ticket =
        .ok (table, { printer := printed.printer, outlets := printed.outlets,
                      answer := printed.answer.mapError .write }) := by
  have shown : printer.printView outlets title view = .ok _ := if_pos (Or.inl lays)
  exact ⟨_, shown, printRegion_of_released granted released shown⟩

end Printer

namespace Session

/-- What a step does that prints a region of the table `owner` with the printer
that is called `printer` and was `used` before. -/
structure PrintsInPassing (session : Session) (owner : SomeTable) (printer : String)
    (used : Printer) (region : Region) (title : String) (stepped : Stepped) : Prop where
  /-- Every table has the entries and, in their order, the leases that it had. -/
  tables : ∀ name, stepped.2.tables.find? name = session.tables.find? name
  outstanding : stepped.1.outstanding = some owner.outstanding
  /-- The table's error is the one with which it refuses a read-only view. -/
  refused : ∀ error, stepped.1.answer = .error (.table error) ↔
    owner.table.acquire region .readOnly session.nextTicket = .error error
  /-- Nothing at all is written for a table that refuses. -/
  silent : ∀ error, stepped.1.answer = .error (.table error) →
    stepped.2.outlets = session.outlets ∧ stepped.2.printers.find? printer = some used
  /-- If the table grants the view, it takes it back without an error, and what
  is answered and written is what printing the view answers and writes. -/
  granted : ∀ view lent,
    owner.table.acquire region .readOnly session.nextTicket = .ok (view, lent) →
      lent.release region view = .ok (owner.table, .ok ()) ∧
        ∃ printed, used.printView session.outlets title view = .ok printed ∧
          stepped.1.answer =
            (printed.answer.mapError Refusal.write).map (fun () => Answer.done) ∧
          stepped.2.outlets = printed.outlets ∧
          stepped.2.printers.find? printer = some printed.printer

variable {session : Session} {name printer : String} {owner : SomeTable} {used : Printer}
  {region : Region} {title : String}

theorem step_printRegion_of_refused {error : TableError}
    (owned : session.tables.find? name = some owner)
    (found : session.printers.find? printer = some used)
    (refused : owner.table.acquire region .readOnly session.nextTicket = .error error) :
    session.step (.table name (.printRegion printer region title)) =
      (owner.reply (.error (.table error)),
        (session.putTable name owner).putPrinter printer used) := by
  have printed : used.printRegion session.outlets owner.table region title session.nextTicket = _ :=
    Printer.printRegion_of_refused refused
  simp only [step, withFound, find, owned, tableStep, printRegion, found, printed, refused]

theorem step_printRegion_of_granted {view : View (Binary owner.precision)}
    {lent : Table (Binary owner.precision) owner.dim}
    {printed : Printer.Printed (Except WriteError Unit)}
    (owned : session.tables.find? name = some owner)
    (found : session.printers.find? printer = some used)
    (granted : owner.table.acquire region .readOnly session.nextTicket = .ok (view, lent))
    (passed : used.printRegion session.outlets owner.table region title session.nextTicket =
      .ok (owner.table, { printer := printed.printer, outlets := printed.outlets,
                          answer := printed.answer.mapError .write })) :
    session.step (.table name (.printRegion printer region title)) =
      (owner.reply ((printed.answer.mapError Refusal.write).map fun () => Answer.done),
        ({ session with outlets := printed.outlets,
                        nextTicket := session.nextTicket + 1 }.putTable name owner).putPrinter
          printer printed.printer) := by
  simp only [step, withFound, find, owned, tableStep, printRegion, found, passed, granted]
  cases printed.answer <;> rfl

theorem printsInPassing_of_refused {error : TableError}
    (owned : session.tables.find? name = some owner)
    (found : session.printers.find? printer = some used)
    (refused : owner.table.acquire region .readOnly session.nextTicket = .error error) :
    session.PrintsInPassing owner printer used region title
      (session.step (.table name (.printRegion printer region title))) := by
  rw [step_printRegion_of_refused owned found refused]
  refine ⟨find?_insert_self owned, rfl, fun other => ?_, fun _ _ => ?_, fun view lent granted => ?_⟩
  · rw [refused]
    constructor
    · intro same
      cases same
      rfl
    · intro same
      cases same
      rfl
  · exact ⟨rfl, Names.find?_insert_name _ _ _⟩
  · rw [refused] at granted
    cases granted

theorem printsInPassing_of_granted {view : View (Binary owner.precision)}
    {lent : Table (Binary owner.precision) owner.dim} (sound : session.Sound)
    (owned : session.tables.find? name = some owner)
    (found : session.printers.find? printer = some used) (lays : used.settings.LaysOut)
    (granted : owner.table.acquire region .readOnly session.nextTicket = .ok (view, lent)) :
    session.PrintsInPassing owner printer used region title
      (session.step (.table name (.printRegion printer region title))) := by
  have released : lent.release region view = .ok (owner.table, .ok ()) :=
    Table.takeBack_lent (sound.fresh owned) granted rfl
  obtain ⟨printed, shown, passed⟩ :=
    Printer.printRegion_of_granted session.outlets title lays granted released
  rw [step_printRegion_of_granted owned found granted passed]
  have never : ∀ error, (owner.reply
      ((printed.answer.mapError Refusal.write).map fun () => Answer.done)).answer ≠
        .error (.table error) := by
    intro error
    cases printed.answer <;> simp [SomeTable.reply, Except.mapError, Except.map]
  refine ⟨find?_insert_self owned, rfl, fun error => ?_, fun error clash => ?_,
    fun view' lent' granted' => ?_⟩
  · rw [granted]
    exact ⟨fun clash => absurd clash (never error), fun clash => by cases clash⟩
  · exact absurd clash (never error)
  · rw [granted] at granted'
    cases granted'
    exact ⟨released, printed, shown, rfl, rfl, Names.find?_insert_name _ _ _⟩

/-- In every session that a run leads to which hands out fewer than `2 ^ 64 - 1`
views, a region is printed without a trace in the tables, whatever the target
of the printer does. -/
theorem printing_leaves_no_trace (commands : List Command) (name printer title : String)
    (region : Region) (owner : SomeTable) (used : Printer)
    (few : initial.issued commands < 2 ^ 64 - 1)
    (owned : (initial.after commands).tables.find? name = some owner)
    (found : (initial.after commands).printers.find? printer = some used)
    (lays : used.settings.LaysOut) :
    (initial.after commands).PrintsInPassing owner printer used region title
      ((initial.after commands).step (.table name (.printRegion printer region title))) := by
  cases granted : owner.table.acquire region .readOnly (initial.after commands).nextTicket with
  | error error => exact printsInPassing_of_refused owned found granted
  | ok lent => exact printsInPassing_of_granted (sound_after few) owned found lays granted

def lentAndPrinted : List Command :=
  [.create "t" .double .triangular .lower 2 .zeros,
    .table "t" (.acquire "row" (.rows 0 1) .readWrite),
    .printer "p" (.create .default),
    .printer "p" (.toStream "s" none (some 2) false)]

/-- The row beside the one that is lent can be printed, and the one that is lent cannot. -/
theorem row_is_printed_beside_lent_one :
    ∃ owner used, (initial.after lentAndPrinted).tables.find? "t" = some owner ∧
      (initial.after lentAndPrinted).PrintsInPassing owner "p" used (.rows 1 1) "row"
        ((initial.after lentAndPrinted).step (.table "t" (.printRegion "p" (.rows 1 1) "row"))) ∧
      (∃ view lent, owner.table.acquire (.rows 1 1) .readOnly
        (initial.after lentAndPrinted).nextTicket = .ok (view, lent)) ∧
      ((initial.after lentAndPrinted).step
        (.table "t" (.printRegion "p" (.rows 0 1) "row"))).1.answer =
          .error (.table (.viewMisuse .overlap)) :=
  ⟨_, _, rfl, printing_leaves_no_trace lentAndPrinted "t" "p" "row" (.rows 1 1) _ _ (by decide)
    rfl rfl (by decide), ⟨_, _, rfl⟩, rfl⟩

end Session

end HalfMatrix
