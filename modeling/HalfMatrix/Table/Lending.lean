import HalfMatrix.Table.Basic
import HalfMatrix.View

/-!
# Lending out regions of a table

`acquire` hands out a view of a region and enters a lease for it; `release`
takes the view back, closes the lease and commits the view's values if it was
acquired for writing; `discard` closes the lease and commits nothing.

What is committed is the view's value for each stored entry of the region.  On
a symmetric table an entry of the region that is not stored goes to its
reflection, unless that belongs to the region too: then the view has a value of
its own for it, which stays.
-/

set_option autoImplicit false

namespace HalfMatrix.Table

variable {α : Type} {n : Nat}

def window [Zero α] (table : Table α n) (region : Region) (within : region.Within n) :
    Grid α region.count (region.width n) :=
  Grid.ofFn fun row col => table.entry (region.rowAt within row) (region.colAt within col)

/-- Hands out a view of a region under a fresh ticket.  A view that is not
acquired for reading shows zeros. -/
def acquire [Zero α] (table : Table α n) (region : Region) (access : Access) (ticket : Ticket) :
    Except TableError (View α × Table α n) :=
  if within : region.Within n then
    match table.ledger.grant table.isSymmetric { ticket, region, access } with
    | .error cause => .error (.viewMisuse cause)
    | .ok ledger =>
        let view : View α :=
          { ticket, region, access
            rows := region.count
            cols := region.width n
            data :=
              if access.reads then table.window region within
              else Grid.ofFn fun _ _ => 0 }
        .ok (view, { table with ledger })
  else .error (region.outside n)

def cells (region : Region) (within : region.Within n)
    (data : Grid α region.count (region.width n)) : List (Fin n × Fin n × α) :=
  (List.finRange region.count).flatMap fun row =>
    (List.finRange (region.width n)).map fun col =>
      (region.rowAt within row, region.colAt within col, data.entry row col)

/-- The writes that commit `data` to a region: first those that go to a
reflection outside the region, then those of the stored entries. -/
def commitWrites (table : Table α n) (region : Region) (within : region.Within n)
    (data : Grid α region.count (region.width n)) : List (Fin (Packing.triangular n) × α) :=
  let values := cells region within data
  let reflected := values.filterMap fun (row, col, value) =>
    if table.triangle.Holds row col ∨ region.Covers col row then none
    else (table.home row col).map fun position => (position, value)
  let stored := values.filterMap fun (row, col, value) =>
    if inside : table.triangle.Holds row col then
      some (Packing.slot table.triangle row col inside, value)
    else none
  reflected ++ stored

def commit (table : Table α n) (region : Region) (within : region.Within n)
    (data : Grid α region.count (region.width n)) : Table α n :=
  { table with entries := store table.entries (table.commitWrites region within data) }

/-- Takes a view back that is said to be of `region`: the table afterwards, and
the answer.  Committing a view that has not the shape of its region in this
table would address the buffers outside their bounds. -/
def release (table : Table α n) (region : Region) (view : View α) :
    Except Fault (Table α n × Except TableError Unit) :=
  match table.ledger.close view.ticket region with
  | (ledger, .error cause) =>
      .ok ({ table with ledger }, .error (.viewMisuse cause))
  | (ledger, .ok ()) =>
      let closed := { table with ledger }
      if view.access.writes then
        if fits : region.Within n ∧ view.rows = region.count ∧ view.cols = region.width n then
          .ok (closed.commit region fits.1 (view.data.cast (by rw [fits.2.1, fits.2.2])), .ok ())
        else .error .indexOutOfBounds
      else .ok (closed, .ok ())

def discard (table : Table α n) (view : View α) : Table α n × Except TableError Unit :=
  match table.ledger.close view.ticket view.region with
  | (ledger, .error cause) => ({ table with ledger }, .error (.viewMisuse cause))
  | (ledger, .ok ()) => ({ table with ledger }, .ok ())

end HalfMatrix.Table
