/-!
# The two triangles of a square matrix

A triangle is the diagonal together with everything on one side of it.  The
two triangles cover the matrix, meet in the diagonal, and are exchanged by
transposition.
-/

set_option autoImplicit false

namespace HalfMatrix

inductive Triangle where
  | lower
  | upper
  deriving DecidableEq, Repr

namespace Triangle

def opposite : Triangle → Triangle
  | lower => upper
  | upper => lower

def Holds : Triangle → Nat → Nat → Prop
  | lower, row, col => col ≤ row
  | upper, row, col => row ≤ col

instance (triangle : Triangle) (row col : Nat) : Decidable (triangle.Holds row col) :=
  match triangle with
  | lower => inferInstanceAs (Decidable (col ≤ row))
  | upper => inferInstanceAs (Decidable (row ≤ col))

def name : Triangle → String
  | lower => "Tril"
  | upper => "Triu"

def ofName? (name : String) : Option Triangle :=
  if name = "Triu" then some upper
  else if name = "Tril" then some lower
  else none

@[simp] theorem opposite_opposite (triangle : Triangle) :
    triangle.opposite.opposite = triangle := by
  cases triangle <;> rfl

theorem holds_opposite {triangle : Triangle} {row col : Nat} :
    triangle.opposite.Holds row col ↔ triangle.Holds col row := by
  cases triangle <;> rfl

theorem eq_opposite_of_ne {triangle other : Triangle} (apart : other ≠ triangle) :
    triangle = other.opposite := by
  cases triangle <;> cases other <;> simp_all [opposite]

theorem holds_transpose {triangle : Triangle} {row col : Nat}
    (outside : ¬ triangle.Holds row col) : triangle.Holds col row := by
  cases triangle <;> simp only [Holds] at * <;> omega

@[simp] theorem holds_diagonal (triangle : Triangle) (index : Nat) :
    triangle.Holds index index := by
  cases triangle <;> simp [Holds]

@[simp] theorem ofName?_name (triangle : Triangle) : ofName? triangle.name = some triangle := by
  cases triangle <;> decide

end Triangle

/-- What stands in the half of the matrix that is not stored: zeros, or the
reflection of the stored half. -/
inductive Fill where
  | triangular
  | symmetric
  deriving DecidableEq, Repr

def Fill.name : Fill → String
  | triangular => "triangular"
  | symmetric => "symmetric"

end HalfMatrix
