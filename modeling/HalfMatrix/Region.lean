import HalfMatrix.Error
import HalfMatrix.Word

/-!
# Regions of a table

A region is a block of whole rows or part of one column.  Two regions meet if
they share a dense entry; they meet up to reflection if an entry of one is an
entry of the other or the transpose of one, which is what sharing means on a
symmetric table.
-/

set_option autoImplicit false

namespace HalfMatrix

inductive Region where
  | rows (start count : Nat)
  | column (col start count : Nat)
  deriving DecidableEq, Repr

namespace Region

def start : Region → Nat
  | rows start _ => start
  | column _ start _ => start

def count : Region → Nat
  | rows _ count => count
  | column _ _ count => count

def width (cols : Nat) : Region → Nat
  | rows _ _ => cols
  | column _ _ _ => 1

def IsEmpty (region : Region) : Prop := region.count = 0

instance (region : Region) : Decidable region.IsEmpty :=
  inferInstanceAs (Decidable (region.count = 0))

def Within (n : Nat) : Region → Prop
  | rows start count => start + count ≤ n
  | column col start count => col < n ∧ start + count ≤ n

instance (n : Nat) (region : Region) : Decidable (region.Within n) :=
  match region with
  | rows start count => inferInstanceAs (Decidable (start + count ≤ n))
  | column col start count => inferInstanceAs (Decidable (col < n ∧ start + count ≤ n))

def rowAt {n : Nat} (region : Region) (within : region.Within n) (index : Fin region.count) :
    Fin n :=
  ⟨region.start + index, by
    cases region <;> simp only [Within, start, count] at * <;> omega⟩

def colAt {n : Nat} (region : Region) (within : region.Within n)
    (index : Fin (region.width n)) : Fin n :=
  match region, within, index with
  | rows _ _, _, index => index
  | column col _ _, within, _ => ⟨col, within.1⟩

/-- Why a region does not lie inside a table of dimension `n`: its column, if
that is out of range, and else its rows, named by the row after the last. -/
def outside (n : Nat) : Region → TableError
  | rows start count => .outOfRange .row (Word.saturatingAdd start count) n
  | column col start count =>
      if col < n then .outOfRange .row (Word.saturatingAdd start count) n
      else .outOfRange .column col n

def HasRow (region : Region) (row : Nat) : Prop :=
  region.start ≤ row ∧ row < region.start + region.count

instance (region : Region) (row : Nat) : Decidable (region.HasRow row) :=
  inferInstanceAs (Decidable (_ ∧ _))

def Covers (region : Region) (row col : Nat) : Prop :=
  region.HasRow row ∧
    match region with
    | rows _ _ => True
    | column own _ _ => col = own

instance (region : Region) (row col : Nat) : Decidable (region.Covers row col) :=
  match region with
  | rows _ _ => inferInstanceAs (Decidable (_ ∧ True))
  | column own _ _ => inferInstanceAs (Decidable (_ ∧ col = own))

def RowsMeet (left right : Region) : Prop :=
  left.start < right.start + right.count ∧ right.start < left.start + left.count

instance (left right : Region) : Decidable (left.RowsMeet right) :=
  inferInstanceAs (Decidable (_ ∧ _))

def meets (left right : Region) : Bool :=
  !decide left.IsEmpty && !decide right.IsEmpty &&
    match left, right with
    | column leftCol _ _, column rightCol _ _ =>
        leftCol == rightCol && decide (left.RowsMeet right)
    | _, _ => decide (left.RowsMeet right)

/-- The regions share a dense entry, or an entry of one is the transpose of an
entry of the other.  Two blocks of rows always do: `(i, j)` of the one is the
transpose of `(j, i)` of the other. -/
def meetsReflected (left right : Region) : Bool :=
  !decide left.IsEmpty && !decide right.IsEmpty &&
    (left.meets right ||
      match left, right with
      | rows _ _, rows _ _ => true
      | rows _ _, column col _ _ => decide (left.HasRow col)
      | column col _ _, rows _ _ => decide (right.HasRow col)
      | column leftCol _ _, column rightCol _ _ =>
          decide (left.HasRow rightCol) && decide (right.HasRow leftCol))

end Region

end HalfMatrix
