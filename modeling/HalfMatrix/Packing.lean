import HalfMatrix.Triangle
import HalfMatrix.Word

/-!
# Packed positions

The stored triangle of an `n × n` matrix is kept row after row in a buffer of
`triangular n` entries.  `position` is where an entry of the triangle stands,
`home` is where the value of any dense entry stands, if it stands anywhere.

`position_lt` says that a position of the triangle lies in the buffer, so
`home` has its bound in its type.
-/

set_option autoImplicit false

namespace HalfMatrix.Packing

def triangular (n : Nat) : Nat := n * (n + 1) / 2

/-- The number of entries of a triangle whose dimension a table can have:
`n * (n + 1)` must be a word, although only half of it is needed. -/
def size? (n : Nat) : Option Nat := do
  let next ← Word.add? n 1
  let product ← Word.mul? n next
  pure (product / 2)

def rowStart : Triangle → Nat → Nat → Nat
  | .lower, _, row => triangular row
  | .upper, n, row => row * (2 * n - row + 1) / 2

def columnSpan : Triangle → Nat → Nat → Nat × Nat
  | .lower, _, row => (0, row + 1)
  | .upper, n, row => (row, n)

/-- Where the entry `(row, col)` of the triangle stands. -/
def position (triangle : Triangle) (n row col : Nat) : Nat :=
  rowStart triangle n row + (col - (columnSpan triangle n row).1)

theorem size?_eq_some_iff {n size : Nat} :
    size? n = some size ↔ n * (n + 1) < Word.modulus ∧ size = triangular n := by
  have next : n * (n + 1) < Word.modulus → n + 1 < Word.modulus := by
    intro product
    cases n with
    | zero => decide
    | succ n =>
        exact Nat.lt_of_le_of_lt (Nat.le_mul_of_pos_left (n + 1 + 1) (Nat.succ_pos n)) product
  simp only [size?, bind, Option.bind_eq_some_iff, Word.add?_eq_some_iff, Word.mul?_eq_some_iff,
    pure, Option.some.injEq]
  constructor
  · rintro ⟨_, ⟨rfl, _⟩, _, ⟨rfl, bound⟩, rfl⟩
    exact ⟨bound, rfl⟩
  · rintro ⟨bound, rfl⟩
    exact ⟨n + 1, ⟨rfl, next bound⟩, n * (n + 1), ⟨rfl, bound⟩, rfl⟩

theorem fits_of_square {n : Nat} (square : n * n < Word.modulus) :
    n * (n + 1) < Word.modulus := by
  have root : n < 2 ^ 32 := by
    apply Nat.lt_of_not_le
    intro large
    exact absurd (Nat.mul_le_mul large large) (Nat.not_le.mpr square)
  have product := Nat.mul_le_mul (Nat.le_of_lt_succ root) root
  exact Nat.lt_of_le_of_lt product (by decide)

theorem triangular_succ (n : Nat) : triangular (n + 1) = triangular n + (n + 1) := by
  have split : (n + 1) * (n + 1 + 1) = n * (n + 1) + 2 * (n + 1) := by
    simp only [Nat.add_mul, Nat.mul_add]
    omega
  unfold triangular
  omega

theorem triangular_add (m n : Nat) :
    triangular (m + n) = triangular m + m * n + triangular n := by
  induction n with
  | zero => simp [triangular]
  | succ n ih =>
      rw [← Nat.add_assoc, triangular_succ, ih, triangular_succ, Nat.mul_succ]
      omega

theorem triangular_mono {m n : Nat} (le : m ≤ n) : triangular m ≤ triangular n := by
  obtain ⟨k, rfl⟩ := Nat.exists_eq_add_of_le le
  rw [triangular_add]
  omega

/-- Before row `row` of the upper triangle stand `row` rows of the `row × k`
rectangle and a triangle of dimension `row`. -/
theorem rowStart_upper (row k : Nat) :
    rowStart .upper (row + k) row = triangular row + row * k := by
  have length : 2 * (row + k) - row + 1 = row + 1 + 2 * k := by omega
  have product : row * (row + 1 + 2 * k) = row * (row + 1) + 2 * (row * k) := by
    rw [Nat.mul_add, Nat.mul_left_comm]
  simp only [rowStart, triangular, length, product]
  omega

theorem position_lt {triangle : Triangle} {n row col : Nat} (rowBound : row < n)
    (colBound : col < n) (inside : triangle.Holds row col) :
    position triangle n row col < triangular n := by
  cases triangle with
  | lower =>
      have below := triangular_mono (m := row + 1) rowBound
      rw [triangular_succ] at below
      simp only [Triangle.Holds] at inside
      simp only [position, rowStart, columnSpan]
      omega
  | upper =>
      obtain ⟨k, rfl⟩ := Nat.exists_eq_add_of_le (Nat.le_of_lt rowBound)
      obtain ⟨j, rfl⟩ : ∃ j, k = j + 1 := ⟨k - 1, by omega⟩
      simp only [Triangle.Holds] at inside
      simp only [position, columnSpan, rowStart_upper, triangular_add row (j + 1),
        triangular_succ]
      omega

def slot {n : Nat} (triangle : Triangle) (row col : Fin n)
    (inside : triangle.Holds row col) : Fin (triangular n) :=
  ⟨position triangle n row col, position_lt row.isLt col.isLt inside⟩

/-- The position that holds the value of the dense entry `(row, col)`: its own,
or on a symmetric matrix that of its reflection.  The other half of a
triangular matrix has none. -/
def home {n : Nat} (fill : Fill) (triangle : Triangle) (row col : Fin n) :
    Option (Fin (triangular n)) :=
  if inside : triangle.Holds row col then some (slot triangle row col inside)
  else if fill = .symmetric then
    some (slot triangle col row (Triangle.holds_transpose inside))
  else none

/-- The entries of the triangle in the order in which they are stored, each
with its position. -/
def storedEntries (triangle : Triangle) (n : Nat) :
    List (Fin n × Fin n × Fin (triangular n)) :=
  (List.finRange n).flatMap fun (row : Fin n) =>
    (List.finRange n).filterMap fun (col : Fin n) =>
      if inside : triangle.Holds row col then some (row, col, slot triangle row col inside)
      else none

end HalfMatrix.Packing
