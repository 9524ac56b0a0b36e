import HalfMatrix.Grid
import HalfMatrix.Ledger

/-!
# Views

A view is a dense copy of a region of a table, which its holder edits freely
and hands back.  It remembers the ticket, region and mode of its lease.
-/

set_option autoImplicit false

namespace HalfMatrix

structure View (α : Type) where
  ticket : Ticket
  region : Region
  access : Access
  rows : Nat
  cols : Nat
  data : Grid α rows cols

namespace View

variable {α : Type}

def at? (view : View α) (index : Nat) : Option α :=
  view.data[index]?

def entry? (view : View α) (row col : Nat) : Option α :=
  if inside : row < view.rows ∧ col < view.cols then
    some (view.data.entry ⟨row, inside.1⟩ ⟨col, inside.2⟩)
  else none

def setAt? (view : View α) (index : Nat) (value : α) : Option (View α) :=
  if inside : index < view.rows * view.cols then
    some { view with data := view.data.set index value inside }
  else none

def setEntry? (view : View α) (row col : Nat) (value : α) : Option (View α) :=
  if row < view.rows ∧ col < view.cols then view.setAt? (row * view.cols + col) value else none

def row? (view : View α) (row : Nat) : Option (Vector α view.cols) :=
  if inside : row < view.rows then some (view.data.row ⟨row, inside⟩) else none

/-- Overwrites the first values of a row, as many as the row and `source` both have. -/
def setRow? (view : View α) (row : Nat) (source : List α) : Option (View α) :=
  if row < view.rows then
    some { view with data := view.data.overwrite (row * view.cols) view.cols source }
  else none

/-- Overwrites the first values of the view, as many as it and `source` both have. -/
def fill (view : View α) (source : List α) : View α :=
  { view with data := view.data.overwrite 0 (view.rows * view.cols) source }

end View

end HalfMatrix
