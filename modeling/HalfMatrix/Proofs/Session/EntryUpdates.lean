import HalfMatrix.Proofs.Session.Runs
import HalfMatrix.Proofs.SingleWrites

/-!
# Setting an entry and getting it back

An entry that is set is got back, and so is its reflection if the table is
symmetric; every other entry is what it was, since no two of them share a home.
An entry without a home cannot be set, nor can one outside the table, and then
the session goes on as if nothing had been asked.
-/

set_option autoImplicit false

namespace HalfMatrix

namespace Table

variable {α : Type} {n : Nat}

/-! ## The home of an entry -/

theorem exists_home_iff {table : Table α n} {row col : Fin n} :
    (∃ place, table.home row col = some place) ↔
      table.fill = .symmetric ∨ table.triangle.Holds row col := by
  rw [← Option.isSome_iff_exists, Option.isSome_iff_ne_none, Ne, home_eq_none_iff]
  cases table.fill <;> simp

/-! ## What setting an entry does -/

section Setting

variable [Zero α]

/-- `after` is `before` with `value` for its dense entry `(row, col)`, and for
nothing else. -/
structure EntrySet (before after : Table α n) (row col : Fin n) (value : α) : Prop where
  fill : after.fill = before.fill
  triangle : after.triangle = before.triangle
  ledger : after.ledger = before.ledger
  /-- One position gets the value, and no other changes. -/
  position : ∃ place, before.home row col = some place ∧ after.entries.get place = value ∧
    ∀ other, other ≠ place → after.entries.get other = before.entries.get other
  /-- The value is got back, on a symmetric table also at the reflection, and
  whatever else is asked for is answered as before. -/
  got : ∀ row' col' : Nat, after.get row' col' =
    if (row' = row ∧ col' = col) ∨ (before.fill = .symmetric ∧ row' = col ∧ col' = row) then
      .ok value
    else before.get row' col'

theorem get_fin (table : Table α n) (row col : Fin n) :
    table.get row col = .ok (table.entry row col) := by
  simp only [get, locate, row.isLt, col.isLt, dif_pos]
  rfl

/-- Which indices are refused does not depend on what the table holds. -/
theorem get_of_outside (table other : Table α n) {row col : Nat}
    (outside : ¬ (row < n ∧ col < n)) : table.get row col = other.get row col := by
  unfold get locate
  by_cases rowBound : row < n
  · have colBound : ¬ col < n := fun colBound => outside ⟨rowBound, colBound⟩
    rw [dif_pos rowBound, dif_neg colBound]
    rfl
  · rw [dif_neg rowBound]
    rfl

theorem get_written {table : Table α n} {row col : Fin n} {place : Fin (Packing.triangular n)}
    (homed : table.home row col = some place) (value : α) (row' col' : Nat) :
    (table.written row col value).get row' col' =
      if (row' = row ∧ col' = col) ∨ (table.fill = .symmetric ∧ row' = col ∧ col' = row) then
        .ok value
      else table.get row' col' := by
  by_cases within : row' < n ∧ col' < n
  · obtain ⟨rowBound, colBound⟩ := within
    have shown := entry_write homed value ⟨row', rowBound⟩ ⟨col', colBound⟩
    simp only [home_eq_iff homed, Fin.ext_iff] at shown
    have got := (table.written row col value).get_fin ⟨row', rowBound⟩ ⟨col', colBound⟩
    have before := table.get_fin ⟨row', rowBound⟩ ⟨col', colBound⟩
    rw [written_of_home homed value, shown] at got
    rw [written_of_home homed value, got, before]
    split <;> rfl
  · rw [if_neg]
    · exact get_of_outside _ _ within
    · rintro (⟨rfl, rfl⟩ | ⟨_, rfl, rfl⟩)
      · exact within ⟨row.isLt, col.isLt⟩
      · exact within ⟨col.isLt, row.isLt⟩

theorem entrySet_written {table : Table α n} {row col : Fin n}
    {place : Fin (Packing.triangular n)} (homed : table.home row col = some place) (value : α) :
    table.EntrySet (table.written row col value) row col value where
  fill := by rw [written_of_home homed]
  triangle := by rw [written_of_home homed]
  ledger := by rw [written_of_home homed]
  position := by
    refine ⟨place, homed, ?_, ?_⟩
    · rw [written_of_home homed]
      exact Vector.getElem_set_self place.isLt
    · intro other apart
      have clash : (place : Nat) ≠ other := fun same => apart (Fin.ext same.symm)
      rw [written_of_home homed]
      exact Vector.getElem_set_ne place.isLt other.isLt clash
  got := get_written homed value

end Setting

/-- The row is looked at first, then the column, and then whether the entry has a home. -/
theorem set_eq_of_nat (table : Table α n) (row col : Nat) (value : α) :
    table.set row col value =
      if rowBound : row < n then
        if colBound : col < n then
          if table.home ⟨row, rowBound⟩ ⟨col, colBound⟩ = none then
            .error (.outOfRange .element (row * n + col) n)
          else .ok (table.written ⟨row, rowBound⟩ ⟨col, colBound⟩ value)
        else .error (.outOfRange .column col n)
      else .error (.outOfRange .row row n) := by
  by_cases rowBound : row < n
  · by_cases colBound : col < n
    · rw [dif_pos rowBound, dif_pos colBound]
      exact table.set_eq ⟨row, rowBound⟩ ⟨col, colBound⟩ value
    · rw [dif_pos rowBound, dif_neg colBound]
      simp only [set, locate, dif_pos rowBound, dif_neg colBound]
      rfl
  · rw [dif_neg rowBound]
    simp only [set, locate, dif_neg rowBound]
    rfl

end Table

namespace Session

def DeclinesSet (session : Session) (name : String) (row col : Nat) (value : Numeral)
    (error : TableError) : Prop :=
  (session.step (.table name (.set row col value))).1.answer = .error (.table error) ∧
    (session.step (.table name (.set row col value))).2 = session

/-- What a session makes of the request to set the entry `(row, col)` of a table. -/
structure SetsEntry (session : Session) (name : String) (owner : SomeTable) (row col : Nat)
    (value : Numeral) : Prop where
  /-- On a symmetric table any entry is set, and on a triangular one any that is stored. -/
  done : ∀ (rowBound : row < owner.dim) (colBound : col < owner.dim),
    owner.table.fill = .symmetric ∨ owner.table.triangle.Holds row col →
      ∃ after : Table (Binary owner.precision) owner.dim,
        (session.step (.table name (.set row col value))).1.answer = .ok .done ∧
        (session.step (.table name (.set row col value))).2 =
          session.putTable name { owner with table := after } ∧
        owner.table.EntrySet after ⟨row, rowBound⟩ ⟨col, colBound⟩
          (value.toBinary owner.precision)
  /-- The half of a triangular table that is not stored cannot be set. -/
  unstored : row < owner.dim → col < owner.dim → owner.table.fill = .triangular →
    ¬ owner.table.triangle.Holds row col →
      session.DeclinesSet name row col value
        (.outOfRange .element (row * owner.dim + col) owner.dim)
  column : row < owner.dim → owner.dim ≤ col →
    session.DeclinesSet name row col value (.outOfRange .column col owner.dim)
  row : owner.dim ≤ row →
    session.DeclinesSet name row col value (.outOfRange .row row owner.dim)

variable {session : Session} {name : String} {owner : SomeTable}

theorem step_set (owned : session.tables.find? name = some owner) (row col : Nat)
    (value : Numeral) :
    session.step (.table name (.set row col value)) =
      match owner.table.set row col (value.toBinary owner.precision) with
      | .error error => (owner.fullReply (.error (.table error)), session)
      | .ok table =>
          (SomeTable.fullReply { owner with table } (.ok .done),
            session.putTable name { owner with table }) := by
  rw [step_table owned]
  rfl

theorem declinesSet_of_error (owned : session.tables.find? name = some owner) {row col : Nat}
    {value : Numeral} {error : TableError}
    (refused : owner.table.set row col (value.toBinary owner.precision) = .error error) :
    session.DeclinesSet name row col value error := by
  unfold DeclinesSet
  rw [step_set owned, refused]
  exact ⟨rfl, rfl⟩

/-- An entry is set and got back, or the request is declined for the first of
the reasons there are: its row, its column, or that it has no home. -/
theorem entry_is_set_or_declined (session : Session) (name : String) (owner : SomeTable)
    (owned : session.tables.find? name = some owner) (row col : Nat) (value : Numeral) :
    session.SetsEntry name owner row col value where
  done rowBound colBound admitted := by
    obtain ⟨place, homed⟩ : ∃ place,
        owner.table.home ⟨row, rowBound⟩ ⟨col, colBound⟩ = some place :=
      Table.exists_home_iff.mpr admitted
    have written : owner.table.set row col (value.toBinary owner.precision) =
        .ok (owner.table.written ⟨row, rowBound⟩ ⟨col, colBound⟩
          (value.toBinary owner.precision)) := by
      rw [Table.set_eq_of_nat, dif_pos rowBound, dif_pos colBound, if_neg]
      rw [homed]
      exact Option.some_ne_none place
    refine ⟨_, ?_, ?_, Table.entrySet_written homed _⟩
    · rw [step_set owned, written]
      rfl
    · rw [step_set owned, written]
  unstored rowBound colBound triangular outside := by
    have homeless : owner.table.home ⟨row, rowBound⟩ ⟨col, colBound⟩ = none :=
      Table.home_eq_none_iff.mpr ⟨triangular, outside⟩
    apply declinesSet_of_error owned
    rw [Table.set_eq_of_nat, dif_pos rowBound, dif_pos colBound, if_pos homeless]
  column rowBound beyond := by
    apply declinesSet_of_error owned
    rw [Table.set_eq_of_nat, dif_pos rowBound, dif_neg (Nat.not_lt.mpr beyond)]
  row beyond := by
    apply declinesSet_of_error owned
    rw [Table.set_eq_of_nat, dif_neg (Nat.not_lt.mpr beyond)]

theorem fits_blank : 3 * (3 + 1) < Word.modulus := by decide

def blankMirror : SomeTable :=
  ⟨.single, 3, Table.zeroed .symmetric .lower 3 fits_blank⟩

def blankHalf : SomeTable :=
  ⟨.single, 3, Table.zeroed .triangular .upper 3 fits_blank⟩

/-- What is set above the diagonal is got back below it, and the half of a
triangular table that is not stored is named by its place in the whole matrix. -/
theorem reflection_is_got_back :
    ∃ after : Table (Binary .single) 3,
      (initial.putTable "t" blankMirror).tables.find? "t" = some blankMirror ∧
      ((initial.putTable "t" blankMirror).step (.table "t" (.set 0 2 (.whole 5)))).2 =
        (initial.putTable "t" blankMirror).putTable "t" { blankMirror with table := after } ∧
      after.get 2 0 = .ok (.ofInt 5) ∧ after.get 2 1 = blankMirror.table.get 2 1 ∧
      (initial.putTable "u" blankHalf).DeclinesSet "u" 2 0 (.whole 5)
        (.outOfRange .element 6 3) ∧
      (initial.putTable "u" blankHalf).DeclinesSet "u" 2 3 (.whole 5)
        (.outOfRange .column 3 3) ∧
      (initial.putTable "u" blankHalf).DeclinesSet "u" 3 4 (.whole 5)
        (.outOfRange .row 3 3) := by
  have mirror : (initial.putTable "t" blankMirror).tables.find? "t" = some blankMirror :=
    Names.find?_insert_name _ _ _
  have half : (initial.putTable "u" blankHalf).tables.find? "u" = some blankHalf :=
    Names.find?_insert_name _ _ _
  obtain ⟨after, _, stepped, changed⟩ :=
    (entry_is_set_or_declined _ "t" blankMirror mirror 0 2 (.whole 5)).done
      (by decide) (by decide) (Or.inl rfl)
  have declined := entry_is_set_or_declined _ "u" blankHalf half
  exact ⟨after, mirror, stepped, changed.got 2 0, changed.got 2 1,
    (declined 2 0 (.whole 5)).unstored (by decide) (by decide) rfl (by decide),
    (declined 2 3 (.whole 5)).column (by decide) (by decide),
    (declined 3 4 (.whole 5)).row (by decide)⟩

end Session

end HalfMatrix
