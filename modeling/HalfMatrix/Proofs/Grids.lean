import HalfMatrix.Grid
import Mathlib.Data.List.FinRange

/-!
# The values of a grid in order

The values of a grid stand row after row.  A block of its rows is therefore a
slice of its values, and a grid with one column lists that column.
-/

set_option autoImplicit false

namespace HalfMatrix.Grid

variable {α : Type} {rows cols : Nat}

theorem ofFn_entry (grid : Grid α rows cols) : ofFn grid.entry = grid := by
  apply Vector.ext
  intro index bound
  simp only [ofFn, Vector.getElem_ofFn, entry, offset_rowOf_colOf]
  rfl

theorem toList_ofFn (value : Fin rows → Fin cols → α) :
    (ofFn value).toList =
      (List.finRange rows).flatMap fun row => (List.finRange cols).map fun col => value row col := by
  have shown : ∀ row col, value (rowOf (offset row col)) (colOf (offset row col)) =
      value row col := by
    intro row col
    rw [rowOf_offset, colOf_offset]
  rw [ofFn, Vector.toList_ofFn, List.ofFn_mul, List.ofFn_eq_map, List.flatMap]
  refine congrArg List.flatten (List.map_congr_left fun row _ => ?_)
  rw [List.ofFn_eq_map]
  exact List.map_congr_left fun col _ => shown row col

theorem toList_ofFn_one (value : Fin rows → Fin 1 → α) :
    (ofFn value).toList = (List.finRange rows).map fun row => value row 0 := by
  rw [toList_ofFn, List.map_eq_flatMap]
  rfl

theorem toRows_ofFn (value : Fin rows → Fin cols → α) :
    (ofFn value).toRows =
      (List.finRange rows).map fun row => (List.finRange cols).map fun col => value row col := by
  refine List.map_congr_left fun row _ => ?_
  rw [Grid.row, Vector.toList_ofFn, List.ofFn_eq_map]
  exact List.map_congr_left fun col _ => entry_ofFn value row col

theorem toRows_eq (grid : Grid α rows cols) :
    grid.toRows = (List.finRange rows).map fun row => (List.finRange cols).map (grid.entry row) := by
  calc
    grid.toRows = (ofFn grid.entry).toRows := by rw [ofFn_entry]
    _ = _ := toRows_ofFn grid.entry

theorem extract_toList_ofFn (value : Fin rows → Fin cols → α) {start count : Nat}
    (within : start + count ≤ rows) :
    (ofFn value).toList.extract (start * cols) ((start + count) * cols) =
      (ofFn fun (row : Fin count) col =>
        value ⟨start + row, Nat.lt_of_lt_of_le (Nat.add_lt_add_left row.isLt start) within⟩
          col).toList := by
  have below : (start + count) * cols ≤ rows * cols := Nat.mul_le_mul_right cols within
  have split : (start + count) * cols = start * cols + count * cols := Nat.add_mul _ _ _
  apply List.ext_getElem
  · simp only [List.extract_eq_take_drop, List.length_take, List.length_drop, Vector.length_toList]
    omega
  · intro index bound bound'
    rw [Vector.length_toList] at bound'
    have positive : 0 < cols := Nat.pos_of_ne_zero fun none => by simp [none] at bound'
    simp only [List.extract_eq_take_drop, List.getElem_take, List.getElem_drop,
      Vector.getElem_toList, ofFn, Vector.getElem_ofFn]
    -- The slice starts with a whole row, so only the row number is shifted.
    congr 1
    · apply Fin.ext
      simp only [rowOf]
      rw [Nat.mul_comm start cols, Nat.mul_add_div positive]
    · apply Fin.ext
      simp only [colOf]
      rw [Nat.mul_comm start cols, Nat.mul_add_mod]

end HalfMatrix.Grid
