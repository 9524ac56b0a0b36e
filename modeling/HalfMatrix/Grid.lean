/-!
# Dense row-major grids

A grid of `rows × cols` values is a vector of `rows * cols` values, row after
row.  `entry_ofFn` says that a grid made from a function shows that function,
`entry_set` what writing one entry does, `getElem_overwrite` what writing many
in a row does.
-/

set_option autoImplicit false

namespace HalfMatrix

abbrev Grid (α : Type) (rows cols : Nat) : Type := Vector α (rows * cols)

namespace Grid

variable {α : Type} {rows cols : Nat}

theorem offset_lt {row col : Nat} (rowBound : row < rows) (colBound : col < cols) :
    row * cols + col < rows * cols := by
  have below : (row + 1) * cols ≤ rows * cols := Nat.mul_le_mul_right cols rowBound
  rw [Nat.add_mul, Nat.one_mul] at below
  omega

def offset (row : Fin rows) (col : Fin cols) : Fin (rows * cols) :=
  ⟨row * cols + col, offset_lt row.isLt col.isLt⟩

def rowOf (index : Fin (rows * cols)) : Fin rows :=
  ⟨index / cols, Nat.div_lt_of_lt_mul (Nat.mul_comm rows cols ▸ index.isLt)⟩

def colOf (index : Fin (rows * cols)) : Fin cols :=
  ⟨index % cols, Nat.mod_lt _ (Nat.pos_of_ne_zero fun none =>
    absurd index.isLt (by simp [none]))⟩

@[simp] theorem rowOf_offset (row : Fin rows) (col : Fin cols) :
    rowOf (offset row col) = row := by
  have positive : 0 < cols := Nat.lt_of_le_of_lt (Nat.zero_le _) col.isLt
  apply Fin.ext
  simp only [rowOf, offset]
  rw [Nat.add_comm, Nat.add_mul_div_right _ _ positive, Nat.div_eq_of_lt col.isLt, Nat.zero_add]

@[simp] theorem colOf_offset (row : Fin rows) (col : Fin cols) :
    colOf (offset row col) = col := by
  apply Fin.ext
  simp only [colOf, offset]
  rw [Nat.add_comm, Nat.add_mul_mod_self_right, Nat.mod_eq_of_lt col.isLt]

@[simp] theorem offset_rowOf_colOf (index : Fin (rows * cols)) :
    offset (rowOf index) (colOf index) = index := by
  apply Fin.ext
  simp only [rowOf, colOf, offset]
  exact Nat.div_add_mod' index cols

def ofFn (value : Fin rows → Fin cols → α) : Grid α rows cols :=
  Vector.ofFn fun index => value (rowOf index) (colOf index)

def entry (grid : Grid α rows cols) (row : Fin rows) (col : Fin cols) : α :=
  grid[offset row col]

@[simp] theorem entry_ofFn (value : Fin rows → Fin cols → α) (row : Fin rows) (col : Fin cols) :
    entry (ofFn value) row col = value row col := by
  have shown : (ofFn value)[offset row col] =
      value (rowOf (offset row col)) (colOf (offset row col)) := by
    simp [ofFn]
  simpa only [entry, rowOf_offset, colOf_offset] using shown

theorem offset_inj {row row' : Fin rows} {col col' : Fin cols} :
    offset row col = offset row' col' ↔ row = row' ∧ col = col' := by
  constructor
  · intro same
    have sameRow := congrArg rowOf same
    have sameCol := congrArg colOf same
    rw [rowOf_offset, rowOf_offset] at sameRow
    rw [colOf_offset, colOf_offset] at sameCol
    exact ⟨sameRow, sameCol⟩
  · rintro ⟨rfl, rfl⟩
    rfl

theorem entry_set (grid : Grid α rows cols) (row row' : Fin rows) (col col' : Fin cols)
    (value : α) :
    entry (grid.set (offset row col) value) row' col' =
      if row = row' ∧ col = col' then value else grid.entry row' col' := by
  have same : (offset row col : Nat) = offset row' col' ↔ row = row' ∧ col = col' :=
    Fin.ext_iff.symm.trans offset_inj
  simp only [entry, Fin.getElem_fin, Vector.getElem_set, same]

def row (grid : Grid α rows cols) (index : Fin rows) : Vector α cols :=
  Vector.ofFn fun col => grid.entry index col

def toRows (grid : Grid α rows cols) : List (List α) :=
  (List.finRange rows).map fun index => (grid.row index).toList

/-- The grid with the values of `source` written from offset `start` on, as
many as there is room for. -/
def overwrite (grid : Grid α rows cols) (start room : Nat) (source : List α) : Grid α rows cols :=
  let written := (source.take room).toArray
  grid.mapIdx fun index held =>
    if start ≤ index then written[index - start]?.getD held else held

theorem getElem_overwrite (grid : Grid α rows cols) (start room : Nat) (source : List α)
    (index : Nat) (inside : index < rows * cols) :
    (grid.overwrite start room source)[index] =
      if start ≤ index then (source.take room)[index - start]?.getD grid[index]
      else grid[index] := by
  simp only [overwrite, Vector.getElem_mapIdx, List.getElem?_toArray]

end Grid

end HalfMatrix
