import HalfMatrix.Packing

/-!
# Packed positions are not shared

The rows of a triangle stand one after another in the buffer, so two entries
of the triangle with one position are one entry.  Two dense entries with one
home are one entry, or on a symmetric matrix each other's reflection.
-/

set_option autoImplicit false

namespace HalfMatrix.Packing

def rowLength (triangle : Triangle) (n row : Nat) : Nat :=
  (columnSpan triangle n row).2 - (columnSpan triangle n row).1

theorem rowStart_succ (triangle : Triangle) (n row : Nat) (bound : row < n) :
    rowStart triangle n (row + 1) = rowStart triangle n row + rowLength triangle n row := by
  cases triangle with
  | lower =>
      simp only [rowStart, rowLength, columnSpan, triangular_succ]
      omega
  | upper =>
      obtain ⟨k, rfl⟩ := Nat.exists_eq_add_of_le (Nat.succ_le_of_lt bound)
      have later := rowStart_upper (row + 1) k
      have earlier := rowStart_upper row (k + 1)
      have sameSize : row + (k + 1) = row.succ + k := by omega
      rw [sameSize] at earlier
      rw [Nat.add_mul, Nat.one_mul] at later
      rw [Nat.mul_succ] at earlier
      have longer := triangular_succ row
      simp only [rowLength, columnSpan]
      rw [later, earlier]
      omega

theorem rowStart_mono (triangle : Triangle) (n row row' : Nat) (le : row ≤ row')
    (bound : row' ≤ n) : rowStart triangle n row ≤ rowStart triangle n row' := by
  induction row' with
  | zero =>
      obtain rfl := Nat.le_zero.mp le
      exact Nat.le_refl _
  | succ row' ih =>
      rcases Nat.lt_or_eq_of_le le with lt | rfl
      · have step := rowStart_succ triangle n row' (by omega)
        have below := ih (by omega) (by omega)
        omega
      · exact Nat.le_refl _

theorem position_lt_rowStart_succ {triangle : Triangle} {n row col : Nat} (rowBound : row < n)
    (colBound : col < n) (inside : triangle.Holds row col) :
    position triangle n row col < rowStart triangle n (row + 1) := by
  rw [rowStart_succ triangle n row rowBound]
  cases triangle <;> simp only [Triangle.Holds] at inside <;>
    simp only [position, rowLength, columnSpan] <;> omega

theorem position_lt_of_row_lt {triangle : Triangle} {n row col row' : Nat} (col' : Nat)
    (before : row < row') (rowBound : row' < n) (colBound : col < n)
    (inside : triangle.Holds row col) :
    position triangle n row col < position triangle n row' col' := by
  have ends := position_lt_rowStart_succ (by omega) colBound inside
  have starts := rowStart_mono triangle n (row + 1) row' before (by omega)
  have shown : position triangle n row' col' =
      rowStart triangle n row' + (col' - (columnSpan triangle n row').1) := rfl
  omega

theorem slot_inj {n : Nat} {triangle : Triangle} {row col row' col' : Fin n}
    {inside : triangle.Holds row col} {inside' : triangle.Holds row' col'} :
    slot triangle row col inside = slot triangle row' col' inside' ↔ row = row' ∧ col = col' := by
  constructor
  · intro same
    have samePosition : position triangle n row col = position triangle n row' col' :=
      congrArg Fin.val same
    have sameRow : (row : Nat) = row' := by
      rcases Nat.lt_trichotomy (row : Nat) row' with lt | eq | gt
      · have := position_lt_of_row_lt col' lt row'.isLt col.isLt inside
        omega
      · exact eq
      · have := position_lt_of_row_lt col gt row.isLt col'.isLt inside'
        omega
    have sameCol : (col : Nat) = col' := by
      rw [sameRow] at samePosition inside
      simp only [position] at samePosition
      cases triangle <;> simp only [Triangle.Holds] at inside inside' <;>
        simp only [columnSpan] at samePosition <;> omega
    exact ⟨Fin.ext sameRow, Fin.ext sameCol⟩
  · rintro ⟨rfl, rfl⟩
    rfl

theorem home_of_holds {n : Nat} {fill : Fill} {triangle : Triangle} {row col : Fin n}
    (inside : triangle.Holds row col) :
    home fill triangle row col = some (slot triangle row col inside) :=
  dif_pos inside

theorem home_of_not_holds {n : Nat} {fill : Fill} {triangle : Triangle} {row col : Fin n}
    (outside : ¬ triangle.Holds row col) :
    home fill triangle row col =
      if fill = .symmetric then some (slot triangle col row (Triangle.holds_transpose outside))
      else none :=
  dif_neg outside

/-- An entry that is not stored and its reflection have one home. -/
theorem home_transpose {n : Nat} {fill : Fill} {triangle : Triangle} {row col : Fin n}
    {place : Fin (triangular n)} (outside : ¬ triangle.Holds row col)
    (homed : home fill triangle row col = some place) :
    fill = .symmetric ∧ home fill triangle col row = some place := by
  rw [home_of_not_holds outside] at homed
  split at homed
  · rename_i symmetric
    rw [home_of_holds (Triangle.holds_transpose outside)]
    exact ⟨symmetric, homed⟩
  · cases homed

theorem home_eq_home {n : Nat} {fill : Fill} {triangle : Triangle} {row col row' col' : Fin n}
    {place : Fin (triangular n)} (homed : home fill triangle row col = some place)
    (homed' : home fill triangle row' col' = some place) :
    (row = row' ∧ col = col') ∨ (fill = .symmetric ∧ row = col' ∧ col = row') := by
  by_cases inside : triangle.Holds row col
  · by_cases inside' : triangle.Holds row' col'
    · rw [home_of_holds inside] at homed
      rw [home_of_holds inside', ← homed, Option.some.injEq, slot_inj] at homed'
      exact Or.inl ⟨homed'.1.symm, homed'.2.symm⟩
    · obtain ⟨symmetric, reflected⟩ := home_transpose inside' homed'
      rw [home_of_holds inside] at homed
      rw [home_of_holds (Triangle.holds_transpose inside'), ← homed, Option.some.injEq,
        slot_inj] at reflected
      exact Or.inr ⟨symmetric, reflected.1.symm, reflected.2.symm⟩
  · obtain ⟨symmetric, reflected⟩ := home_transpose inside homed
    rw [home_of_holds (Triangle.holds_transpose inside)] at reflected
    by_cases inside' : triangle.Holds row' col'
    · rw [home_of_holds inside', ← reflected, Option.some.injEq, slot_inj] at homed'
      exact Or.inr ⟨symmetric, homed'.2.symm, homed'.1.symm⟩
    · have reflected' := (home_transpose inside' homed').2
      rw [home_of_holds (Triangle.holds_transpose inside'), ← reflected, Option.some.injEq,
        slot_inj] at reflected'
      exact Or.inl ⟨reflected'.2.symm, reflected'.1.symm⟩

/-- No two entries of a column have one home. -/
theorem home_column_inj {n : Nat} {fill : Fill} {triangle : Triangle} {row row' col : Fin n}
    {place : Fin (triangular n)} (homed : home fill triangle row col = some place)
    (homed' : home fill triangle row' col = some place) : row = row' := by
  rcases home_eq_home homed homed' with ⟨same, _⟩ | ⟨_, diagonal, diagonal'⟩
  · exact same
  · exact diagonal.trans diagonal'

end HalfMatrix.Packing
