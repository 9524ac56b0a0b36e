import HalfMatrix.Decimal.Layout
import HalfMatrix.Error
import HalfMatrix.Grid
import HalfMatrix.Ledger
import HalfMatrix.Packing

/-!
# Tables

A table of dimension `n` is an `n × n` matrix of which one triangle is stored.
`entry` shows the whole matrix: a stored entry is what stands at its packed
position, and the other half is read through `Packing.home`.

A table comes from its packed entries, from a dense matrix, or as zeros; in
each case no view of it is outstanding.  To a reader all dense entries are
shown, a line in brackets for each row.
-/

set_option autoImplicit false

namespace HalfMatrix

structure Table (α : Type) (n : Nat) where
  fill : Fill
  triangle : Triangle
  entries : Vector α (Packing.triangular n)
  ledger : Ledger
  fits : n * (n + 1) < Word.modulus

namespace Table

variable {α : Type} {n : Nat}

/-- Performs writes in order.  Of two writes to one position the later stays. -/
def store {size : Nat} (entries : Vector α size) (writes : List (Fin size × α)) :
    Vector α size :=
  writes.foldl (fun held (position, value) => held.set position value position.isLt) entries

/-! ## Making tables -/

def ofPacked (fill : Fill) (triangle : Triangle) (n : Nat) (data : Array α) :
    Except TableError (Table α n) :=
  if accepted : Packing.size? n = some data.size then
    .ok
      { fill, triangle
        entries := ⟨data, (Packing.size?_eq_some_iff.mp accepted).2⟩
        ledger := .empty
        fits := (Packing.size?_eq_some_iff.mp accepted).1 }
  else
    .error (.sizeMismatch data.size n)

def zeroed [Zero α] (fill : Fill) (triangle : Triangle) (n : Nat)
    (fits : n * (n + 1) < Word.modulus) : Table α n where
  fill := fill
  triangle := triangle
  entries := Vector.replicate _ 0
  ledger := .empty
  fits := fits

def zeros [Zero α] (fill : Fill) (triangle : Triangle) (n : Nat) : Except Fault (Table α n) :=
  if fits : n * (n + 1) < Word.modulus then .ok (zeroed fill triangle n fits)
  else .error (.sizeOverflow n)

/-- The table that has, in its triangle, the entries of a dense row-major
matrix.  Those outside the triangle are not looked at. -/
def ofGrid [Zero α] (fill : Fill) (triangle : Triangle) (n : Nat) (dense : Array α) :
    Except TableError (Table α n) :=
  if square : Word.mul? n n = some dense.size then
    have ⟨length, bound⟩ := Word.mul?_eq_some_iff.mp square
    let blank := zeroed fill triangle n (Packing.fits_of_square (length ▸ bound))
    let grid : Grid α n n := ⟨dense, length.symm⟩
    .ok
      { blank with
        entries := store blank.entries <|
          (Packing.storedEntries triangle n).map fun (row, col, position) =>
            (position, grid.entry row col) }
  else
    .error (.sizeMismatch dense.size n)

/-! ## Reading and writing entries -/

def isSymmetric (table : Table α n) : Bool := table.fill == .symmetric

def home (table : Table α n) (row col : Fin n) : Option (Fin (Packing.triangular n)) :=
  Packing.home table.fill table.triangle row col

def entry [Zero α] (table : Table α n) (row col : Fin n) : α :=
  match table.home row col with
  | some position => table.entries[position]
  | none => 0

/-- The dense indices `row` and `col`, of which the row is looked at first. -/
def locate (n row col : Nat) : Except TableError (Fin n × Fin n) :=
  if rowBound : row < n then
    if colBound : col < n then .ok (⟨row, rowBound⟩, ⟨col, colBound⟩)
    else .error (.outOfRange .column col n)
  else .error (.outOfRange .row row n)

def get [Zero α] (table : Table α n) (row col : Nat) : Except TableError α := do
  let (row, col) ← locate n row col
  pure (table.entry row col)

/-- Writes the dense entry `(row, col)`, through its reflection if the table
is symmetric and that is what is stored. -/
def set (table : Table α n) (row col : Nat) (value : α) : Except TableError (Table α n) := do
  let (row, col) ← locate n row col
  match table.home row col with
  | some position =>
      pure { table with entries := table.entries.set position value position.isLt }
  | none => throw (.outOfRange .element (row * n + col) n)

def setAll (table : Table α n) (value : α) : Table α n :=
  { table with entries := table.entries.map fun _ => value }

/-- Writes one packed entry, whatever views are outstanding. -/
def setPacked (table : Table α n) (position : Nat) (value : α) : Except Fault (Table α n) :=
  if inside : position < Packing.triangular n then
    .ok { table with entries := table.entries.set position value inside }
  else .error .indexOutOfBounds

/-! ## Whole tables -/

def toGrid [Zero α] (table : Table α n) : Grid α n n :=
  Grid.ofFn table.entry

def copy (table : Table α n) : Table α n :=
  { table with ledger := .empty }

/-- The table stored in the triangle `target`: a copy if that is its own, and
else the transpose of its triangle. -/
def toTriangle [Zero α] (table : Table α n) (target : Triangle) : Table α n :=
  if target = table.triangle then table.copy
  else
    let blank : Table α n := zeroed table.fill target n table.fits
    { blank with
      entries := store blank.entries <|
        (Packing.storedEntries target n).map fun (row, col, position) =>
          (position, table.entry col row) }

/-- The tables have the same triangle and, up to `same`, the same entries. -/
def agrees (same : α → α → Bool) (left right : Table α n) : Bool :=
  left.triangle == right.triangle && left.entries.isEqv right.entries same

/-! ## Shown tables -/

section Shown

variable {precision : Precision}

def displayRow (values : List (Binary precision)) : List Char :=
  "[ ".toList ++ values.flatMap (fun value => ' ' :: Decimal.shown value) ++ "]\n".toList

def display (table : Table (Binary precision) n) : String :=
  String.ofList ('\n' :: table.toGrid.toRows.flatMap displayRow ++ ['\n'])

end Shown

end Table

end HalfMatrix
