import HalfMatrix.Proofs.Session.Custody

/-!
# Views can be taken back in any order

The views that are outstanding on a table write to positions of their own.
Whichever of them are released and whichever discarded, the order in which they
come back makes no difference to the table.
-/

set_option autoImplicit false

namespace HalfMatrix

structure Closing (precision : Precision) where
  view : String
  held : View (Binary precision)
  how : Return

namespace Closing

variable {precision : Precision} {dim : Nat}

def command (closing : Closing precision) (name : String) : Command :=
  .table name (closing.how.command closing.view)

/-- The view is outstanding on the table, and is returned as what it was lent as. -/
structure Settles (closing : Closing precision) (session : Session)
    (table : Table (Binary precision) dim) : Prop where
  found : session.views.find? closing.view = some ⟨precision, closing.held⟩
  outstanding : ∃ lease ∈ table.ledger.leases, lease.ticket = closing.held.ticket
  owned : closing.how = .release closing.held.region ∨ closing.how = .discard

def writes (closing : Closing precision) (table : Table (Binary precision) dim) :
    List (Fin (Packing.triangular dim) × Binary precision) :=
  table.returnWrites closing.how closing.held

variable {closing other : Closing precision} {session : Session}
  {table : Table (Binary precision) dim} {name : String}

theorem Settles.region (settles : closing.Settles session table) :
    closing.how.region closing.held = closing.held.region := by
  rcases settles.owned with released | discarded
  · rw [released]
    rfl
  · rw [discarded]
    rfl

theorem Settles.lease (settles : closing.Settles session table) (sound : session.Sound)
    (owned : session.tables.find? name = some ⟨precision, dim, table⟩) :
    ∃ lease, table.ledger.find? closing.held.ticket = some lease ∧
      lease.region = closing.how.region closing.held ∧ closing.held.access = lease.access ∧
      closing.held.Fits lease.region dim := by
  obtain ⟨lease, mem, ticket⟩ := settles.outstanding
  have under := sound.under name _ closing.view _ owned settles.found lease mem ticket
  have leased := Ledger.find?_of_mem (sound.distinct name _ owned) mem
  rw [ticket] at leased
  exact ⟨lease, leased, (settles.region.trans under.region).symm, under.access, under.fits⟩

theorem Settles.step (settles : closing.Settles session table) (sound : session.Sound)
    (owned : session.tables.find? name = some ⟨precision, dim, table⟩) :
    (session.step (closing.command name)).2 =
      (session.dropView closing.view).putTable name
        ⟨precision, dim, table.settled closing.how closing.held⟩ := by
  obtain ⟨lease, leased, same, _, fits⟩ := settles.lease sound owned
  rw [command, Session.step_returned owned settles.found
    (Table.takeBack_of_fits leased same fits)]

theorem Settles.sound (settles : closing.Settles session table) (sound : session.Sound)
    (owned : session.tables.find? name = some ⟨precision, dim, table⟩) :
    (session.step (closing.command name)).2.Sound := by
  refine sound.effect (Session.step_effect session (closing.command name)) ?_
  rw [settles.step sound owned]
  intro moved
  exact absurd rfl moved

/-- A view stays outstanding when another one is returned. -/
theorem Settles.after (settles : closing.Settles session table) (sound : session.Sound)
    (owned : session.tables.find? name = some ⟨precision, dim, table⟩)
    (others : other.Settles session table) (apart : other.view ≠ closing.view) :
    other.Settles (session.step (closing.command name)).2
      (table.settled closing.how closing.held) where
  found := by
    rw [settles.step sound owned]
    exact (Names.find?_erase session.views closing.view other.view).trans
      ((if_neg apart).trans others.found)
  outstanding := by
    obtain ⟨lease, mem, ticket⟩ := others.outstanding
    obtain ⟨closed, leased, _⟩ := settles.lease sound owned
    refine ⟨lease, (Ledger.mem_erase_iff (sound.distinct name _ owned) leased).mpr ⟨mem, ?_⟩, ticket⟩
    rw [ticket]
    intro clash
    exact apart (sound.viewsApart other.view _ closing.view _ others.found settles.found clash)
  owned := others.owned

theorem Settles.lastWrite_eq_none_iff (settles : closing.Settles session table)
    (sound : session.Sound) (owned : session.tables.find? name = some ⟨precision, dim, table⟩)
    {place : Fin (Packing.triangular dim)} :
    Table.lastWrite (closing.writes table) place = none ↔
      (closing.how.commits closing.held = true →
        ¬ table.Addresses closing.held.region place) := by
  obtain ⟨lease, _, same, _, fits⟩ := settles.lease sound owned
  rw [same] at fits
  rw [writes, Table.lastWrite_returnWrites_eq_none_iff fits, settles.region]

/-- Two views that are outstanding at one time write to no position in common. -/
theorem Settles.apart (settles : closing.Settles session table) (sound : session.Sound)
    (owned : session.tables.find? name = some ⟨precision, dim, table⟩)
    (others : other.Settles session table) (apart : other.view ≠ closing.view)
    (place : Fin (Packing.triangular dim)) :
    Table.lastWrite (other.writes table) place = none ∨
      Table.lastWrite (closing.writes table) place = none := by
  obtain ⟨lease, leased, same, access, fits⟩ := settles.lease sound owned
  obtain ⟨lease', leased', same', _, _⟩ := others.lease sound owned
  obtain ⟨mem, ticket⟩ := Ledger.mem_of_find? leased
  obtain ⟨mem', ticket'⟩ := Ledger.mem_of_find? leased'
  have ticketsApart : lease'.ticket ≠ lease.ticket := by
    rw [ticket, ticket']
    intro clash
    exact apart (sound.viewsApart other.view _ closing.view _ others.found settles.found clash)
  by_cases addressed : table.Addresses lease'.region place
  · exact Or.inr (Table.lastWrite_returnWrites_of_lease (sound.orderly name _ owned) mem same
      access fits mem' ticketsApart addressed)
  · rw [same', others.region] at addressed
    exact Or.inl ((others.lastWrite_eq_none_iff sound owned).mpr fun _ => addressed)

/-! ## Returning many views -/

def entriesAfter (table : Table (Binary precision) dim) (closings : List (Closing precision)) :
    Vector (Binary precision) (Packing.triangular dim) :=
  closings.foldl (fun entries closing => Table.store entries (closing.writes table)) table.entries

/-- The views are all outstanding on the table, and each is returned once. -/
structure AllSettle (closings : List (Closing precision)) (session : Session)
    (table : Table (Binary precision) dim) : Prop where
  settles : ∀ closing ∈ closings, closing.Settles session table
  once : (closings.map Closing.view).Nodup

theorem AllSettle.perm {first second : List (Closing precision)} (all : AllSettle first session table)
    (perm : first.Perm second) : AllSettle second session table where
  settles closing mem := all.settles closing (perm.mem_iff.mpr mem)
  once := (perm.map Closing.view).nodup_iff.mp all.once

theorem AllSettle.after {closings : List (Closing precision)}
    (all : AllSettle closings session table) (sound : session.Sound)
    (owned : session.tables.find? name = some ⟨precision, dim, table⟩) :
    ∃ after : Table (Binary precision) dim,
      (session.after (closings.map (command · name))).tables.find? name =
          some ⟨precision, dim, after⟩ ∧
        after.entries = entriesAfter table closings ∧
        after.ledger.size + closings.length = table.ledger.size := by
  induction closings generalizing session table with
  | nil => exact ⟨table, owned, rfl, rfl⟩
  | cons closing closings ih =>
      have settles := all.settles closing List.mem_cons_self
      have once := List.nodup_cons.mp all.once
      have rest : AllSettle closings (session.step (closing.command name)).2
          (table.settled closing.how closing.held) := by
        refine ⟨?_, once.2⟩
        intro other mem
        refine settles.after sound owned (all.settles other (List.mem_cons_of_mem _ mem)) ?_
        intro same
        exact once.1 (List.mem_map.mpr ⟨other, mem, same⟩)
      have ownedAfter : (session.step (closing.command name)).2.tables.find? name =
          some ⟨precision, dim, table.settled closing.how closing.held⟩ := by
        rw [settles.step sound owned]
        exact Names.find?_insert_name _ name _
      obtain ⟨after, found, entries, size⟩ := ih rest (settles.sound sound owned) ownedAfter
      obtain ⟨lease, leased, _⟩ := settles.lease sound owned
      have shorter := Ledger.size_erase leased
      refine ⟨after, found, entries, ?_⟩
      rw [List.length_cons, ← shorter, ← Nat.add_assoc, size]
      rfl

theorem AllSettle.entriesAfter_perm {first second : List (Closing precision)}
    (all : AllSettle first session table) (sound : session.Sound)
    (owned : session.tables.find? name = some ⟨precision, dim, table⟩)
    (perm : first.Perm second) : entriesAfter table first = entriesAfter table second := by
  refine perm.foldl_eq' ?_ table.entries
  intro left leftMem right rightMem entries
  by_cases same : left.view = right.view
  · rw [List.inj_on_of_nodup_map all.once leftMem rightMem same]
  · exact Table.store_comm entries
      ((all.settles right rightMem).apart sound owned (all.settles left leftMem) same)

theorem get_foldl_store {closings : List (Closing precision)}
    {place : Fin (Packing.triangular dim)}
    (free : ∀ closing ∈ closings, Table.lastWrite (closing.writes table) place = none)
    (entries : Vector (Binary precision) (Packing.triangular dim)) :
    (closings.foldl (fun entries closing => Table.store entries (closing.writes table))
      entries).get place = entries.get place := by
  induction closings generalizing entries with
  | nil => rfl
  | cons closing closings ih =>
      rw [List.foldl_cons, ih fun other mem => free other (List.mem_cons_of_mem _ mem),
        Table.get_store, free closing List.mem_cons_self]
      rfl

/-- What one of the views commits is what is there in the end. -/
theorem AllSettle.get_entriesAfter {closings : List (Closing precision)}
    (all : AllSettle closings session table) (sound : session.Sound)
    (owned : session.tables.find? name = some ⟨precision, dim, table⟩)
    (mem : closing ∈ closings) (commits : closing.how.commits closing.held = true)
    {place : Fin (Packing.triangular dim)}
    (addressed : table.Addresses closing.held.region place) :
    (entriesAfter table closings).get place = (entriesAfter table [closing]).get place := by
  obtain ⟨early, late, rfl⟩ := List.append_of_mem mem
  have front : (early ++ closing :: late).Perm (closing :: (early ++ late)) := List.perm_middle
  have allFront := all.perm front
  have written : Table.lastWrite (closing.writes table) place ≠ none := by
    intro free
    exact ((all.settles closing mem).lastWrite_eq_none_iff sound owned).mp free commits addressed
  rw [all.entriesAfter_perm sound owned front]
  simp only [entriesAfter, List.foldl_cons, List.foldl_nil]
  refine get_foldl_store ?_ _
  intro other otherMem
  have apart : other.view ≠ closing.view := by
    intro same
    exact (List.nodup_cons.mp allFront.once).1 (List.mem_map.mpr ⟨other, otherMem, same⟩)
  have settles := allFront.settles other (List.mem_cons_of_mem _ otherMem)
  exact (settles.apart sound owned (all.settles closing mem) apart.symm place).resolve_left written

end Closing

namespace Session

/-- However views that are outstanding on a table together are edited, and
whichever of them are discarded, the order in which they are returned makes no
difference to its entries or to the number of views left, and what one of them
commits is not overwritten by another. -/
theorem returns_commute (commands : List Command) (name : String) (precision : Precision)
    (dim : Nat) (table : Table (Binary precision) dim)
    (few : initial.issued commands < 2 ^ 64 - 1)
    (owned : (initial.after commands).tables.find? name = some ⟨precision, dim, table⟩)
    (first second : List (Closing precision))
    (settles : ∀ closing ∈ first, closing.Settles (initial.after commands) table)
    (once : (first.map Closing.view).Nodup) (perm : first.Perm second) :
    ∃ one other : Table (Binary precision) dim,
      ((initial.after commands).after (first.map (Closing.command · name))).tables.find? name =
          some ⟨precision, dim, one⟩ ∧
        ((initial.after commands).after (second.map (Closing.command · name))).tables.find? name =
          some ⟨precision, dim, other⟩ ∧
        one.entries = other.entries ∧
        one.ledger.size = other.ledger.size ∧
        one.ledger.size + first.length = table.ledger.size ∧
        ∀ closing ∈ first, ∃ alone : Table (Binary precision) dim,
          ((initial.after commands).step (closing.command name)).2.tables.find? name =
              some ⟨precision, dim, alone⟩ ∧
            (closing.how.commits closing.held = true →
              ∀ place, table.Addresses closing.held.region place →
                one.entries.get place = alone.entries.get place) := by
  have sound := sound_after few
  have all : Closing.AllSettle first (initial.after commands) table := ⟨settles, once⟩
  obtain ⟨one, found, entries, size⟩ := all.after sound owned
  obtain ⟨other, found', entries', size'⟩ := (all.perm perm).after sound owned
  refine ⟨one, other, found, found', ?_, ?_, size, ?_⟩
  · rw [entries, entries', all.entriesAfter_perm sound owned perm]
  · rw [← perm.length_eq] at size'
    omega
  · intro closing mem
    have single : Closing.AllSettle [closing] (initial.after commands) table :=
      ⟨fun other otherMem => List.mem_singleton.mp otherMem ▸ settles closing mem,
        List.nodup_singleton _⟩
    obtain ⟨alone, foundAlone, entriesAlone, _⟩ := single.after sound owned
    refine ⟨alone, foundAlone, ?_⟩
    intro commits place addressed
    rw [entries, entriesAlone]
    exact all.get_entriesAfter sound owned mem commits addressed

def editedRow : Closing .double where
  view := "row"
  held := ⟨1, .rows 0 1, .readWrite, 1, 3, #v[⟨7⟩, ⟨8⟩, ⟨9⟩]⟩
  how := .release (.rows 0 1)

def editedColumn : Closing .double where
  view := "column"
  held := ⟨2, .column 2 1 2, .writeOnly, 2, 1, #v[⟨4⟩, ⟨5⟩]⟩
  how := .release (.column 2 1 2)

def lentAndEdited : List Command :=
  [.create "t" .double .symmetric .lower 3 .zeros,
    .table "t" (.acquire "row" (.rows 0 1) .readWrite),
    .table "t" (.acquire "column" (.column 2 1 2) .writeOnly),
    .view "row" (.fill [.bits 64 7, .bits 64 8, .bits 64 9]),
    .view "column" (.fill [.bits 64 4, .bits 64 5])]

theorem row_and_column_return_in_any_order :
    ∃ one other : Table (Binary .double) 3,
      ((initial.after lentAndEdited).after
          [editedRow.command "t", editedColumn.command "t"]).tables.find? "t" =
        some ⟨.double, 3, one⟩ ∧
      ((initial.after lentAndEdited).after
          [editedColumn.command "t", editedRow.command "t"]).tables.find? "t" =
        some ⟨.double, 3, other⟩ ∧
      one.entries = other.entries ∧ one.ledger.size + 2 = 2 := by
  obtain ⟨one, other, found, found', same, _, size, _⟩ :=
    returns_commute lentAndEdited "t" .double 3 _ (by decide) rfl [editedRow, editedColumn]
      [editedColumn, editedRow]
      (by
        intro closing mem
        rcases List.mem_pair.mp mem with rfl | rfl
        · exact ⟨rfl, ⟨_, List.mem_cons_self, rfl⟩, Or.inl rfl⟩
        · exact ⟨rfl, ⟨_, List.mem_cons_of_mem _ List.mem_cons_self, rfl⟩, Or.inl rfl⟩)
      (by decide) (List.Perm.swap _ _ _)
  exact ⟨one, other, found, found', same, size⟩

end Session

end HalfMatrix
