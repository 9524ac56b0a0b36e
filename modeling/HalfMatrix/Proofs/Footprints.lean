import HalfMatrix.Ledger
import HalfMatrix.Proofs.Positions
import HalfMatrix.Table.Basic

/-!
# What a region addresses in the buffer

A region addresses the homes of its dense entries.  The tests by which a table
compares regions see every shared home, so that regions which do not meet have
their own parts of the buffer.
-/

set_option autoImplicit false

namespace HalfMatrix

namespace Region

theorem rowsMeet_comm (left right : Region) : left.RowsMeet right ↔ right.RowsMeet left :=
  and_comm

theorem meets_comm (left right : Region) : left.meets right = right.meets left := by
  have rows : decide (left.RowsMeet right) = decide (right.RowsMeet left) :=
    decide_eq_decide.mpr (rowsMeet_comm left right)
  unfold meets
  rw [Bool.and_comm (!decide left.IsEmpty)]
  cases left with
  | rows start count =>
      cases right <;> simp only [rows]
  | column col start count =>
      cases right with
      | rows start' count' => simp only [rows]
      | column col' start' count' =>
          have cols : (col == col') = (col' == col) := BEq.comm
          simp only [rows, cols]

theorem meetsReflected_comm (left right : Region) :
    left.meetsReflected right = right.meetsReflected left := by
  unfold meetsReflected
  rw [meets_comm left right, Bool.and_comm (!decide left.IsEmpty)]
  cases left <;> cases right <;> simp only [Bool.and_comm]

theorem not_isEmpty_of_hasRow {region : Region} {row : Nat} (has : region.HasRow row) :
    ¬ region.IsEmpty := by
  intro empty
  simp only [HasRow, IsEmpty] at has empty
  omega

theorem rowsMeet_of_hasRow {left right : Region} {row : Nat} (has : left.HasRow row)
    (has' : right.HasRow row) : left.RowsMeet right := by
  simp only [HasRow] at has has'
  simp only [RowsMeet]
  omega

theorem meets_of_covers {left right : Region} {row col : Nat} (covers : left.Covers row col)
    (covers' : right.Covers row col) : left.meets right = true := by
  have rows := rowsMeet_of_hasRow covers.1 covers'.1
  have full := not_isEmpty_of_hasRow covers.1
  have full' := not_isEmpty_of_hasRow covers'.1
  cases left with
  | rows start count => simp [meets, full, full', rows]
  | column own start count =>
      cases right with
      | rows start' count' => simp [meets, full, full', rows]
      | column own' start' count' =>
          have same : own = own' := covers.2.symm.trans covers'.2
          subst same
          simp [meets, full, full', rows]

theorem meetsReflected_of_covers {left right : Region} {row col : Nat}
    (covers : left.Covers row col) (covers' : right.Covers row col) :
    left.meetsReflected right = true := by
  have full := not_isEmpty_of_hasRow covers.1
  have full' := not_isEmpty_of_hasRow covers'.1
  simp [meetsReflected, full, full', meets_of_covers covers covers']

theorem meetsReflected_of_transpose {left right : Region} {row col : Nat}
    (covers : left.Covers row col) (covers' : right.Covers col row) :
    left.meetsReflected right = true := by
  have full := not_isEmpty_of_hasRow covers.1
  have full' := not_isEmpty_of_hasRow covers'.1
  have has := covers.1
  have has' := covers'.1
  cases left with
  | rows start count =>
      cases right with
      | rows start' count' => simp [meetsReflected, full, full']
      | column own' start' count' =>
          have same : row = own' := covers'.2
          rw [same] at has
          simp [meetsReflected, full, full', has]
  | column own start count =>
      have same : col = own := covers.2
      rw [same] at has'
      cases right with
      | rows start' count' => simp [meetsReflected, full, full', has']
      | column own' start' count' =>
          have same' : row = own' := covers'.2
          rw [same'] at has
          simp [meetsReflected, full, full', has, has']

theorem not_meets_of_isEmpty {left : Region} (right : Region) (empty : left.IsEmpty) :
    left.meets right = false ∧ left.meetsReflected right = false := by
  simp [meets, meetsReflected, empty]

end Region

namespace Lease

def Clear (reflected : Bool) (left right : Lease) : Prop :=
  left.conflicts reflected right.region right.access = false

theorem Clear.symm {reflected : Bool} {left right : Lease} (clear : left.Clear reflected right) :
    right.Clear reflected left := by
  unfold Clear conflicts at *
  rw [Region.meets_comm, Region.meetsReflected_comm, Bool.and_comm (right.access == .readOnly)]
  exact clear

end Lease

namespace Table

variable {α : Type} {n : Nat}

/-- The region has a dense entry whose value stands at this position. -/
def Addresses (table : Table α n) (region : Region) (place : Fin (Packing.triangular n)) : Prop :=
  ∃ row col : Fin n, region.Covers row col ∧ table.home row col = some place

theorem not_addresses_of_isEmpty {table : Table α n} {region : Region} (empty : region.IsEmpty)
    (place : Fin (Packing.triangular n)) : ¬ table.Addresses region place := by
  rintro ⟨row, col, covers, _⟩
  exact Region.not_isEmpty_of_hasRow covers.1 empty

/-- Regions that address one position meet, in the sense in which the table
compares regions. -/
theorem meet_of_addresses {table : Table α n} {left right : Region}
    {place : Fin (Packing.triangular n)} (addressed : table.Addresses left place)
    (addressed' : table.Addresses right place) :
    (if table.isSymmetric then left.meetsReflected right else left.meets right) = true := by
  obtain ⟨row, col, covers, homed⟩ := addressed
  obtain ⟨row', col', covers', homed'⟩ := addressed'
  rcases Packing.home_eq_home homed homed' with ⟨rfl, rfl⟩ | ⟨symmetric, rfl, rfl⟩
  · rw [Region.meetsReflected_of_covers covers covers', Region.meets_of_covers covers covers',
      ite_self]
  · have reflected : table.isSymmetric = true := by simp [isSymmetric, symmetric]
    rw [if_pos reflected]
    exact Region.meetsReflected_of_transpose covers covers'

/-- Two leases that can be held together, one of them for writing, address no
position in common. -/
theorem not_both_address {table : Table α n} {left right : Lease}
    (clear : left.Clear table.isSymmetric right)
    (writable : left.access ≠ .readOnly ∨ right.access ≠ .readOnly)
    {place : Fin (Packing.triangular n)} (addressed : table.Addresses left.region place) :
    ¬ table.Addresses right.region place := by
  intro addressed'
  have meet := meet_of_addresses addressed addressed'
  simp only [Lease.Clear, Lease.conflicts, meet, Bool.true_and, Bool.not_eq_false',
    Bool.and_eq_true, beq_iff_eq] at clear
  rcases writable with writable | writable
  · exact writable clear.1
  · exact writable clear.2

end Table

end HalfMatrix
