import HalfMatrix.Proofs.Dense
import HalfMatrix.Proofs.Handovers
import HalfMatrix.Session.Step

/-!
# What a step does to tables and views

An event is what a command and its reply tell about the tables and views of a
session.  `step_effect` says, event by event, all that a step can do to them
and to the ticket of the next view.
-/

set_option autoImplicit false

namespace HalfMatrix

inductive Event where
  | none
  /-- A name stands for a new table. -/
  | made (table : String)
  | dropped (table : String)
  /-- Entries of a table were written past its views. -/
  | written (table : String)
  | lent (table view : String) (region : Region) (access : Access)
  /-- A view was handed to a table, though perhaps not to the one it came from. -/
  | returned (table view : String)
  | forgotten (view : String)
  deriving DecidableEq, Repr

namespace Event

def ifDone (reply : Reply) (event : Event) : Event :=
  match reply.answer with
  | .ok _ => event
  | .error _ => .none

/-- A view that is handed to a table is used up, whether or not the table takes
it back. -/
def ofReturn (table view : String) (reply : Reply) : Event :=
  match reply.answer with
  | .ok _ => .returned table view
  | .error (.table _) => .returned table view
  | .error _ => .none

end Event

def TableCommand.event (command : TableCommand) (table : String) (reply : Reply) : Event :=
  match command with
  | .setPacked _ _ => .ifDone reply (.written table)
  | .set _ _ _ => .ifDone reply (.written table)
  | .setAll _ => .ifDone reply (.written table)
  | .copy target => .ifDone reply (.made target)
  | .toTriangle target _ => .ifDone reply (.made target)
  | .acquire view region access => .ifDone reply (.lent table view region access)
  | .release view _ => .ofReturn table view reply
  | .discard view => .ofReturn table view reply
  | _ => .none

def Command.event (command : Command) (reply : Reply) : Event :=
  match command with
  | .create name _ _ _ _ _ => .ifDone reply (.made name)
  | .load name _ _ _ => .ifDone reply (.made name)
  | .table name command => command.event name reply
  | .dropTable name => .dropped name
  | .dropView name => .forgotten name
  | _ => .none

def Return.command (how : Return) (view : String) : TableCommand :=
  match how with
  | release region => .release view region
  | discard => .discard view

structure View.SameLease {α β : Type} (left : View α) (right : View β) : Prop where
  ticket : left.ticket = right.ticket
  region : left.region = right.region
  access : left.access = right.access
  rows : left.rows = right.rows
  cols : left.cols = right.cols

namespace Session

/-- These are the tables and views of the session, and the ticket of its next view. -/
structure Holds (session : Session) (tables : Names SomeTable) (views : Names SomeView)
    (ticket : Ticket) : Prop where
  tables : ∀ name, session.tables.find? name = tables.find? name
  views : ∀ name, session.views.find? name = views.find? name
  ticket : session.nextTicket = ticket

/-- What a step with this event has done. -/
inductive Effect (session next : Session) : Event → Prop where
  | idle (holds : next.Holds session.tables session.views session.nextTicket) :
      Effect session next .none
  | edited {view : String} {held : SomeView} {edited : View (Binary held.precision)}
      (found : session.views.find? view = some held) (same : edited.SameLease held.view)
      (holds : next.Holds session.tables (session.views.insert view { held with view := edited })
        session.nextTicket) :
      Effect session next .none
  | printed {table : String} {owner : SomeTable} {region : Region}
      {shown : View (Binary owner.precision)}
      {lent after : Table (Binary owner.precision) owner.dim} {outcome : Except TableError Unit}
      (owned : session.tables.find? table = some owner)
      (granted : owner.table.acquire region .readOnly session.nextTicket = .ok (shown, lent))
      (taken : lent.takeBack (.release region) shown = .ok (after, outcome))
      (holds : next.Holds (session.tables.insert table { owner with table := after }) session.views
        (session.nextTicket + 1)) :
      Effect session next .none
  | made {table : String} {made : SomeTable} (blank : made.table.ledger = .empty)
      (holds : next.Holds (session.tables.insert table made) session.views session.nextTicket) :
      Effect session next (.made table)
  | dropped {table : String}
      (holds : next.Holds (session.tables.erase table) session.views session.nextTicket) :
      Effect session next (.dropped table)
  | written {table : String} {owner : SomeTable}
      {entries : Vector (Binary owner.precision) (Packing.triangular owner.dim)}
      (owned : session.tables.find? table = some owner)
      (holds : next.Holds
        (session.tables.insert table { owner with table := { owner.table with entries } })
        session.views session.nextTicket) :
      Effect session next (.written table)
  | lent {table view : String} {owner : SomeTable} {region : Region} {access : Access}
      {lent : View (Binary owner.precision)} {after : Table (Binary owner.precision) owner.dim}
      (owned : session.tables.find? table = some owner)
      (granted : owner.table.acquire region access session.nextTicket = .ok (lent, after))
      (holds : next.Holds (session.tables.insert table { owner with table := after })
        (session.views.insert view ⟨owner.precision, lent⟩) (session.nextTicket + 1)) :
      Effect session next (.lent table view region access)
  | returned {table view : String} {owner : SomeTable} {held : View (Binary owner.precision)}
      {how : Return} {after : Table (Binary owner.precision) owner.dim}
      {outcome : Except TableError Unit}
      (owned : session.tables.find? table = some owner)
      (found : session.views.find? view = some ⟨owner.precision, held⟩)
      (taken : owner.table.takeBack how held = .ok (after, outcome))
      (holds : next.Holds (session.tables.insert table { owner with table := after })
        (session.views.erase view) session.nextTicket) :
      Effect session next (.returned table view)
  | forgotten {view : String}
      (holds : next.Holds session.tables (session.views.erase view) session.nextTicket) :
      Effect session next (.forgotten view)

theorem holds_self (session : Session) :
    session.Holds session.tables session.views session.nextTicket :=
  ⟨fun _ => rfl, fun _ => rfl, rfl⟩

theorem find?_insert_self {α : Type} {names : Names α} {name : String} {value : α}
    (found : names.find? name = some value) (other : String) :
    (names.insert name value).find? other = names.find? other := by
  rw [Names.find?_insert]
  split
  · rename_i same
    rw [same, found]
  · rfl

theorem find_eq_ok {α : Type} {names : Names α} {name : String} {value : α}
    (found : find names name = .ok value) : names.find? name = some value := by
  unfold find at found
  split at found
  · rename_i same
    rw [same, Except.ok.inj found]
  · cases found

theorem find_eq_error {α : Type} {names : Names α} {name : String} {refusal : Refusal}
    (missed : find names name = .error refusal) : refusal = .unknownName name := by
  unfold find at missed
  split at missed
  · cases missed
  · exact (Except.error.inj missed).symm

theorem step_table {session : Session} {name : String} {owner : SomeTable}
    (owned : session.tables.find? name = some owner) (command : TableCommand) :
    session.step (.table name command) = session.tableStep name owner command := by
  simp only [step, find, owned, withFound]

theorem effect_withFound {α : Type} {session : Session} {found : Except Refusal α}
    {resume : α → Stepped} (event : Reply → Event)
    (refused : ∀ refusal, found = .error refusal → event { answer := .error refusal } = .none)
    (resumed : ∀ value, found = .ok value →
      Effect session (resume value).2 (event (resume value).1)) :
    Effect session (session.withFound found resume).2
      (event (session.withFound found resume).1) := by
  cases same : found with
  | ok value => exact resumed value same
  | error refusal =>
      simp only [withFound, refuse, refused refusal same]
      exact .idle session.holds_self

/-! ## Commands that make tables -/

theorem ok_of_map_mapError {ε ε' α β : Type} {found : Except ε α} {reword : ε → ε'}
    {finish : α → β} {made : β} (success : (found.mapError reword).map finish = .ok made) :
    ∃ value, found = .ok value ∧ finish value = made := by
  cases found with
  | error _ => cases success
  | ok value => exact ⟨value, rfl, Except.ok.inj success⟩

theorem ledger_ofPacked {α : Type} {fill : Fill} {triangle : Triangle} {n : Nat} {data : Array α}
    {made : Table α n} (success : Table.ofPacked fill triangle n data = .ok made) :
    made.ledger = .empty := by
  unfold Table.ofPacked at success
  split at success
  · cases success
    rfl
  · cases success

theorem ledger_ofGrid {α : Type} [Zero α] {fill : Fill} {triangle : Triangle} {n : Nat}
    {dense : Array α} {made : Table α n}
    (success : Table.ofGrid fill triangle n dense = .ok made) : made.ledger = .empty := by
  unfold Table.ofGrid at success
  split at success
  · split at success
    rw [← Except.ok.inj success]
    rfl
  · cases success

theorem ledger_zeros {α : Type} [Zero α] {fill : Fill} {triangle : Triangle} {n : Nat}
    {made : Table α n} (success : Table.zeros fill triangle n = .ok made) :
    made.ledger = .empty := by
  unfold Table.zeros at success
  split at success
  · cases success
    rfl
  · cases success

theorem ledger_makeTable {precision : Precision} {fill : Fill} {triangle : Triangle} {dim : Nat}
    {source : TableSource} {made : SomeTable}
    (success : makeTable precision fill triangle dim source = .ok made) :
    made.table.ledger = .empty := by
  cases source with
  | packed entries =>
      obtain ⟨table, result, rfl⟩ := ok_of_map_mapError success
      exact ledger_ofPacked result
  | dense entries =>
      obtain ⟨table, result, rfl⟩ := ok_of_map_mapError success
      exact ledger_ofGrid result
  | zeros =>
      obtain ⟨table, result, rfl⟩ := ok_of_map_mapError success
      exact ledger_zeros result

theorem ledger_loadDocument {precision : Precision} {fill : Fill} {text : String}
    {loaded : Document.AnyTable (Binary precision)}
    (success : Document.loadTable precision fill text = .ok loaded) :
    loaded.table.ledger = .empty := by
  simp only [Document.loadTable, bind, Except.bind] at success
  split at success
  · cases success
  · split at success
    · split at success
      · cases success
      · rename_i table result
        cases success
        cases packed : Table.ofPacked fill _ _ _ with
        | error error =>
            rw [packed] at result
            cases result
        | ok made =>
            rw [packed] at result
            rw [← Except.ok.inj result]
            exact ledger_ofPacked packed
    · cases success

theorem ledger_loadTable {precision : Precision} {fill : Fill} {bytes : ByteArray}
    {made : SomeTable} (success : loadTable precision fill bytes = .ok made) :
    made.table.ledger = .empty := by
  unfold loadTable at success
  split at success
  · cases success
  · obtain ⟨loaded, result, rfl⟩ := ok_of_map_mapError success
    exact ledger_loadDocument result

theorem create_effect {session : Session} (before : Session) (name : String)
    (made : Except Refusal SomeTable)
    (same : before.Holds session.tables session.views session.nextTicket)
    (blank : ∀ table, made = .ok table → table.table.ledger = .empty) :
    Effect session (before.create name made).2
      (.ifDone (before.create name made).1 (.made name)) := by
  cases made with
  | error refusal => exact .idle same
  | ok table =>
      refine .made (blank table rfl) ⟨?_, same.views, same.ticket⟩
      intro other
      rw [Names.find?_insert, ← same.tables]
      exact Names.find?_insert before.tables name other table

theorem load_effect (session : Session) (name file : String) (precision : Precision)
    (fill : Fill) :
    Effect session (session.load name file precision fill).2
      (.ifDone (session.load name file precision fill).1 (.made name)) := by
  refine effect_withFound (fun reply => .ifDone reply (.made name)) (fun _ _ => rfl) ?_
  rintro ⟨number, source⟩ _
  have blank : ∀ table, loadTable precision fill source.remaining = .ok table →
      table.table.ledger = .empty := fun _ => ledger_loadTable
  simp only
  generalize loadTable precision fill source.remaining = made at blank
  exact create_effect (session.putFile number source.atEnd) name made
    ⟨fun _ => rfl, fun _ => rfl, rfl⟩ blank

/-! ## Commands on a table -/

theorem acquire_effect (session : Session) {table view : String} {owner : SomeTable}
    (owned : session.tables.find? table = some owner) (region : Region) (access : Access) :
    Effect session (session.acquire table owner view region access).2
      (.ifDone (session.acquire table owner view region access).1
        (.lent table view region access)) := by
  unfold acquire
  cases granted : owner.table.acquire region access session.nextTicket with
  | error error => exact .idle session.holds_self
  | ok lent => exact .lent owned granted ⟨fun _ => rfl, fun _ => rfl, rfl⟩

theorem handBack_effect (session : Session) {table view : String} {owner : SomeTable}
    (owned : session.tables.find? table = some owner) (how : Return) :
    Effect session (session.handBack table owner view (owner.table.takeBack how)).2
      (.ofReturn table view (session.handBack table owner view (owner.table.takeBack how)).1) := by
  refine effect_withFound (fun reply => .ofReturn table view reply) ?_ ?_
  · intro refusal missed
    rw [find_eq_error missed]
    rfl
  · rintro ⟨precision, held⟩ found
    have found := find_eq_ok found
    by_cases same : precision = owner.precision
    · subst same
      rw [dif_pos rfl]
      cases taken : owner.table.takeBack how held with
      | error fault => exact .idle session.holds_self
      | ok result =>
          obtain ⟨after, outcome⟩ := result
          have effect : Effect session
              ((session.dropView view).putTable table { owner with table := after }) _ :=
            .returned owned found taken ⟨fun _ => rfl, fun _ => rfl, rfl⟩
          cases outcome with
          | ok _ => exact effect
          | error _ => exact effect
    · rw [dif_neg same]
      exact .idle session.holds_self

theorem afterPrinting_holds (session : Session) (printer : String)
    (printed : Except Fault (Printer.Printed (Except WriteError Unit))) :
    (session.afterPrinting printer printed).2.Holds session.tables session.views
      session.nextTicket := by
  cases printed <;> exact ⟨fun _ => rfl, fun _ => rfl, rfl⟩

/-- Printing a region takes a view of it back, or was refused one. -/
theorem printRegion_eq_ok {precision : Precision} {n : Nat} {printer : Printer}
    {outlets : Outlets} {table after : Table (Binary precision) n} {region : Region}
    {title : String} {ticket : Ticket} {printed : Printer.Printed (Except Printer.RegionError Unit)}
    (success : printer.printRegion outlets table region title ticket = .ok (after, printed)) :
    (∃ error, table.acquire region .readOnly ticket = .error error ∧ after = table) ∨
      ∃ shown lent outcome, table.acquire region .readOnly ticket = .ok (shown, lent) ∧
        lent.takeBack (.release region) shown = .ok (after, outcome) := by
  unfold Printer.printRegion at success
  cases granted : table.acquire region .readOnly ticket with
  | error error =>
      rw [granted] at success
      obtain ⟨rfl, _⟩ := Prod.mk.inj (Except.ok.inj success)
      exact Or.inl ⟨error, rfl, rfl⟩
  | ok view =>
      obtain ⟨shown, lent⟩ := view
      rw [granted] at success
      simp only [bind, Except.bind] at success
      split at success
      · cases success
      · split at success
        · cases success
        · rename_i released taken
          obtain ⟨rfl, _⟩ := Prod.mk.inj (Except.ok.inj success)
          exact Or.inr ⟨shown, lent, released.2, rfl, taken⟩

theorem printRegion_effect (session : Session) {table printer : String} {owner : SomeTable}
    (owned : session.tables.find? table = some owner) (region : Region) (title : String) :
    Effect session (session.printRegion table owner printer region title).2 .none := by
  refine effect_withFound (fun _ => .none) (fun _ _ => rfl) ?_
  intro used _
  cases result : used.printRegion session.outlets owner.table region title session.nextTicket with
  | error fault => exact .idle session.holds_self
  | ok pair =>
      obtain ⟨after, printed⟩ := pair
      rcases printRegion_eq_ok result with
        ⟨error, refused, rfl⟩ | ⟨shown, lent, outcome, granted, taken⟩
      · refine .idle ⟨fun name => ?_, fun _ => rfl, ?_⟩
        · exact find?_insert_self owned name
        · simp only [refused]
          rfl
      · refine .printed owned granted taken ⟨fun _ => rfl, fun _ => rfl, ?_⟩
        simp only [granted]
        rfl

theorem setPacked_eq_ok {α : Type} {n : Nat} {table after : Table α n} {position : Nat} {value : α}
    (success : table.setPacked position value = .ok after) :
    ∃ entries, after = { table with entries } := by
  unfold Table.setPacked at success
  split at success
  · exact ⟨_, (Except.ok.inj success).symm⟩
  · cases success

theorem set_eq_ok {α : Type} {n : Nat} {table after : Table α n} {row col : Nat} {value : α}
    (success : table.set row col value = .ok after) : ∃ entries, after = { table with entries } := by
  simp only [Table.set, bind, Except.bind] at success
  split at success
  · cases success
  · split at success
    · exact ⟨_, (Except.ok.inj success).symm⟩
    · cases success

theorem tableStep_effect (session : Session) {table : String} {owner : SomeTable}
    (owned : session.tables.find? table = some owner) (command : TableCommand) :
    Effect session (session.tableStep table owner command).2
      (command.event table (session.tableStep table owner command).1) := by
  cases command with
  | setPacked position value =>
      simp only [tableStep, TableCommand.event]
      cases result : owner.table.setPacked position (value.toBinary owner.precision) with
      | error fault => exact .idle session.holds_self
      | ok after =>
          obtain ⟨entries, rfl⟩ := setPacked_eq_ok result
          exact .written owned ⟨fun _ => rfl, fun _ => rfl, rfl⟩
  | set row col value =>
      simp only [tableStep, TableCommand.event]
      cases result : owner.table.set row col (value.toBinary owner.precision) with
      | error error => exact .idle session.holds_self
      | ok after =>
          obtain ⟨entries, rfl⟩ := set_eq_ok result
          exact .written owned ⟨fun _ => rfl, fun _ => rfl, rfl⟩
  | setAll value => exact .written owned ⟨fun _ => rfl, fun _ => rfl, rfl⟩
  | copy target => exact .made rfl ⟨fun _ => rfl, fun _ => rfl, rfl⟩
  | toTriangle target triangle =>
      exact .made (Table.ledger_toTriangle _ _) ⟨fun _ => rfl, fun _ => rfl, rfl⟩
  | acquire view region access => exact acquire_effect session owned region access
  | release view region => exact handBack_effect session owned (.release region)
  | discard view => exact handBack_effect session owned .discard
  | printRegion printer region title => exact printRegion_effect session owned region title
  | printPacked printer title =>
      refine effect_withFound (fun _ => .none) (fun _ _ => rfl) ?_
      intro used _
      exact .idle (afterPrinting_holds session printer _)
  | equals other =>
      refine effect_withFound (fun _ => .none) (fun _ _ => rfl) ?_
      intro other _
      split <;> exact .idle session.holds_self
  | save file =>
      refine effect_withFound (fun _ => .none) (fun _ _ => rfl) ?_
      rintro ⟨number, target⟩ _
      simp only
      split <;> exact .idle ⟨fun _ => rfl, fun _ => rfl, rfl⟩
  | info => exact .idle session.holds_self
  | packed => exact .idle session.holds_self
  | get row col => exact .idle session.holds_self
  | dense => exact .idle session.holds_self
  | display => exact .idle session.holds_self

/-! ## All other commands -/

theorem editView_effect {session : Session} {view : String} {held : SomeView}
    (found : session.views.find? view = some held) {edited : Option (View (Binary held.precision))}
    (same : ∀ after, edited = some after → after.SameLease held.view) :
    Effect session (session.editView view held edited).2 .none := by
  cases edited with
  | none => exact .idle session.holds_self
  | some after => exact .edited found (same after rfl) ⟨fun _ => rfl, fun _ => rfl, rfl⟩

theorem sameLease_setAt? {α : Type} {view after : View α} {index : Nat} {value : α}
    (edited : view.setAt? index value = some after) : after.SameLease view := by
  unfold View.setAt? at edited
  split at edited
  · rw [← Option.some.inj edited]
    exact ⟨rfl, rfl, rfl, rfl, rfl⟩
  · cases edited

theorem sameLease_setEntry? {α : Type} {view after : View α} {row col : Nat} {value : α}
    (edited : view.setEntry? row col value = some after) : after.SameLease view := by
  unfold View.setEntry? at edited
  split at edited
  · exact sameLease_setAt? edited
  · cases edited

theorem sameLease_setRow? {α : Type} {view after : View α} {row : Nat} {source : List α}
    (edited : view.setRow? row source = some after) : after.SameLease view := by
  unfold View.setRow? at edited
  split at edited
  · rw [← Option.some.inj edited]
    exact ⟨rfl, rfl, rfl, rfl, rfl⟩
  · cases edited

theorem viewStep_effect (session : Session) {view : String} {held : SomeView}
    (found : session.views.find? view = some held) (command : ViewCommand) :
    Effect session (session.viewStep view held command).2 .none := by
  cases command with
  | inspect => exact .idle session.holds_self
  | «at» index =>
      simp only [viewStep, readView]
      split <;> exact .idle session.holds_self
  | entry row col =>
      simp only [viewStep, readView]
      split <;> exact .idle session.holds_self
  | setAt index value => exact editView_effect found fun _ => sameLease_setAt?
  | setEntry row col value => exact editView_effect found fun _ => sameLease_setEntry?
  | row index =>
      simp only [viewStep]
      split <;> exact .idle session.holds_self
  | setRow index values => exact editView_effect found fun _ => sameLease_setRow?
  | fill values =>
      refine editView_effect found ?_
      intro after edited
      rw [← Option.some.inj edited]
      exact ⟨rfl, rfl, rfl, rfl, rfl⟩
  | print printer title =>
      refine effect_withFound (fun _ => .none) (fun _ _ => rfl) ?_
      intro used _
      exact .idle (afterPrinting_holds session printer _)

theorem changePrinter_effect (session : Session) (name : String) (change : Printer → Printer) :
    Effect session (session.changePrinter name change).2 .none := by
  refine effect_withFound (fun _ => .none) (fun _ _ => rfl) ?_
  intro printer _
  exact .idle ⟨fun _ => rfl, fun _ => rfl, rfl⟩

theorem printerStep_effect (session : Session) (name : String) (command : PrinterCommand) :
    Effect session (session.printerStep name command).2 .none := by
  cases command with
  | create settings =>
      refine effect_withFound (fun _ => .none) (fun _ _ => rfl) ?_
      intro settings _
      exact .idle ⟨fun _ => rfl, fun _ => rfl, rfl⟩
  | setSettings settings =>
      refine effect_withFound (fun _ => .none) (fun _ _ => rfl) ?_
      intro settings _
      exact changePrinter_effect session name _
  | describe =>
      refine effect_withFound (fun _ => .none) (fun _ _ => rfl) ?_
      intro printer _
      exact .idle session.holds_self
  | toStdout => exact changePrinter_effect session name _
  | toBuffer => exact changePrinter_effect session name _
  | toFile file =>
      refine effect_withFound (fun _ => .none) (fun _ _ => rfl) ?_
      intro number _
      exact changePrinter_effect session name _
  | toStream stream chunk limit silent =>
      refine effect_withFound (fun _ => .none) (fun _ _ => rfl) ?_
      intro printer _
      exact .idle ⟨fun _ => rfl, fun _ => rfl, rfl⟩
  | buffered =>
      refine effect_withFound (fun _ => .none) (fun _ _ => rfl) ?_
      intro printer _
      split <;> exact .idle session.holds_self
  | printValues precision values title =>
      refine effect_withFound (fun _ => .none) (fun _ _ => rfl) ?_
      intro printer _
      exact .idle (afterPrinting_holds session name _)

theorem fileStep_effect (session : Session) (name : String) (command : FileCommand) :
    Effect session (session.fileStep name command).2 .none := by
  cases command with
  | create content => exact .idle ⟨fun _ => rfl, fun _ => rfl, rfl⟩
  | write bytes =>
      refine effect_withFound (fun _ => .none) (fun _ _ => rfl) ?_
      rintro ⟨number, file⟩ _
      exact .idle ⟨fun _ => rfl, fun _ => rfl, rfl⟩
  | seek cursor =>
      refine effect_withFound (fun _ => .none) (fun _ _ => rfl) ?_
      rintro ⟨number, file⟩ _
      exact .idle ⟨fun _ => rfl, fun _ => rfl, rfl⟩
  | content =>
      refine effect_withFound (fun _ => .none) (fun _ _ => rfl) ?_
      rintro ⟨number, file⟩ _
      exact .idle session.holds_self

theorem step_effect (session : Session) (command : Command) :
    Effect session (session.step command).2 (command.event (session.step command).1) := by
  cases command with
  | create name precision fill triangle dim source =>
      exact create_effect session name (makeTable precision fill triangle dim source)
        session.holds_self fun _ => ledger_makeTable
  | load name file precision fill => exact load_effect session name file precision fill
  | table name command =>
      refine effect_withFound (fun reply => command.event name reply) ?_ ?_
      · intro refusal missed
        rw [find_eq_error missed]
        cases command <;> rfl
      · intro owner found
        exact tableStep_effect session (find_eq_ok found) command
  | dropTable name => exact .dropped ⟨fun _ => rfl, fun _ => rfl, rfl⟩
  | view name command =>
      refine effect_withFound (fun _ => .none) (fun _ _ => rfl) ?_
      intro held found
      exact viewStep_effect session (find_eq_ok found) command
  | dropView name => exact .forgotten ⟨fun _ => rfl, fun _ => rfl, rfl⟩
  | printer name command => exact printerStep_effect session name command
  | file name command => exact fileStep_effect session name command
  | stream name =>
      refine effect_withFound (fun _ => .none) (fun _ _ => rfl) ?_
      intro content _
      exact .idle session.holds_self
  | stdout => exact .idle ⟨fun _ => rfl, fun _ => rfl, rfl⟩

theorem step_lent {session : Session} {table view : String} {owner : SomeTable} {region : Region}
    {access : Access} {lent : View (Binary owner.precision)}
    {after : Table (Binary owner.precision) owner.dim}
    (owned : session.tables.find? table = some owner)
    (granted : owner.table.acquire region access session.nextTicket = .ok (lent, after)) :
    (session.step (.table table (.acquire view region access))).2 =
      ({ session with nextTicket := session.nextTicket + 1 }.putTable table
        { owner with table := after }).putView view ⟨owner.precision, lent⟩ := by
  simp only [step, withFound, find, owned, tableStep, acquire, granted]

theorem step_returned {session : Session} {table view : String} {owner : SomeTable}
    {held : View (Binary owner.precision)} {how : Return}
    {after : Table (Binary owner.precision) owner.dim} {outcome : Except TableError Unit}
    (owned : session.tables.find? table = some owner)
    (found : session.views.find? view = some ⟨owner.precision, held⟩)
    (taken : owner.table.takeBack how held = .ok (after, outcome)) :
    session.step (.table table (how.command view)) =
      (({ owner with table := after } : SomeTable).fullReply
          ((outcome.mapError Refusal.table).map fun () => Answer.done),
        (session.dropView view).putTable table { owner with table := after }) := by
  have handed : session.step (.table table (how.command view)) =
      session.handBack table owner view (owner.table.takeBack how) := by
    cases how <;> simp only [step, Return.command, withFound, find, owned, tableStep] <;> rfl
  rw [handed]
  simp only [handBack, withFound, find, found, dif_pos, taken]

end Session

end HalfMatrix
