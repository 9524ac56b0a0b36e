import HalfMatrix.Table.Lending
import Mathlib.Data.List.Defs

/-!
# Tables as they lie in memory

A flat table has words for its dimension and indices and a buffer for its
entries.  Its operations are the loops over rows and columns that fill and read
the buffer.  Each of them gives nothing as soon as a sum, a difference or a
product is not a word, or a buffer is addressed outside its bounds; an answer
that refuses the operation is still an answer.
-/

set_option autoImplicit false

namespace HalfMatrix

structure FlatTable (α : Type) where
  fill : Fill
  triangle : Triangle
  dim : Nat
  entries : Array α
  ledger : Ledger

structure FlatView (α : Type) where
  ticket : Ticket
  region : Region
  access : Access
  rows : Nat
  cols : Nat
  data : Array α

def Table.flat {α : Type} {n : Nat} (table : Table α n) : FlatTable α where
  fill := table.fill
  triangle := table.triangle
  dim := n
  entries := table.entries.toArray
  ledger := table.ledger

def View.flat {α : Type} (view : View α) : FlatView α where
  ticket := view.ticket
  region := view.region
  access := view.access
  rows := view.rows
  cols := view.cols
  data := view.data.toArray

namespace Table

variable {α : Type} {n : Nat} (table : Table α n)

@[simp] theorem flat_fill : table.flat.fill = table.fill := rfl

@[simp] theorem flat_triangle : table.flat.triangle = table.triangle := rfl

@[simp] theorem flat_dim : table.flat.dim = n := rfl

@[simp] theorem flat_entries : table.flat.entries = table.entries.toArray := rfl

@[simp] theorem flat_ledger : table.flat.ledger = table.ledger := rfl

end Table

/-! ## Words -/

def Word.span? (start count : Nat) : Option (List Nat) := do
  let stop ← Word.add? start count
  pure (List.range' start (stop - start))

def Word.offset? (row width col : Nat) : Option Nat := do
  let before ← Word.mul? row width
  Word.add? before col

def Grid.cell? {α : Type} (buffer : Array α) (row width col : Nat) : Option α := do
  let offset ← Word.offset? row width col
  buffer[offset]?

def Grid.cellFrom? {α : Type} (buffer : Array α) (start width row col : Nat) : Option α := do
  let above ← Word.sub? row start
  Grid.cell? buffer above width col

namespace Packing

def rowStart? : Triangle → Nat → Nat → Option Nat
  | .lower, _, row => size? row
  | .upper, n, row => do
      let double ← Word.mul? 2 n
      let rest ← Word.sub? double row
      let length ← Word.add? rest 1
      let product ← Word.mul? row length
      pure (product / 2)

def position? (triangle : Triangle) (n row col : Nat) : Option Nat :=
  if triangle.Holds row col then do
    let first ← rowStart? triangle n row
    match triangle with
    | .lower => Word.add? first col
    | .upper => Word.add? first (← Word.sub? col row)
  else none

def storedCols? : Triangle → Nat → Nat → Option (List Nat)
  | .lower, _, row => do
      let stop ← Word.add? row 1
      pure (List.range stop)
  | .upper, n, row => some (List.range' row (n - row))

end Packing

/-! ## Regions and leases -/

namespace Region

def check (n : Nat) (region : Region) : Except TableError Unit :=
  match region with
  | rows start count => checkRows start count
  | column col start count =>
      if n ≤ col then .error (.outOfRange .column col n) else checkRows start count
where
  checkRows (start count : Nat) : Except TableError Unit :=
    match Word.add? start count with
    | some stop =>
        if stop ≤ n then .ok () else .error (.outOfRange .row (Word.saturatingAdd start count) n)
    | none => .error (.outOfRange .row (Word.saturatingAdd start count) n)

def rowsMeet? (left right : Region) : Option Bool := do
  let leftStop ← Word.add? left.start left.count
  let rightStop ← Word.add? right.start right.count
  pure (decide (left.start < rightStop) && decide (right.start < leftStop))

def hasRow? (region : Region) (row : Nat) : Option Bool := do
  let stop ← Word.add? region.start region.count
  pure (decide (region.start ≤ row) && decide (row < stop))

def meets? (left right : Region) : Option Bool :=
  if left.IsEmpty ∨ right.IsEmpty then some false
  else do
    let rowsMeet ← left.rowsMeet? right
    match left, right with
    | column leftCol _ _, column rightCol _ _ => pure (leftCol == rightCol && rowsMeet)
    | _, _ => pure rowsMeet

def meetsReflected? (left right : Region) : Option Bool :=
  if left.IsEmpty ∨ right.IsEmpty then some false
  else do
    if ← left.meets? right then pure true
    else
      match left, right with
      | rows _ _, rows _ _ => pure true
      | rows _ _, column col _ _ => left.hasRow? col
      | column col _ _, rows _ _ => right.hasRow? col
      | column leftCol _ _, column rightCol _ _ =>
          if ← left.hasRow? rightCol then right.hasRow? leftCol else pure false

end Region

def Lease.conflicts? (lease : Lease) (reflected : Bool) (region : Region) (access : Access) :
    Option Bool := do
  let meet ← if reflected then lease.region.meetsReflected? region else lease.region.meets? region
  pure (meet && !(lease.access == .readOnly && access == .readOnly))

namespace Ledger

/-- The leases are looked through up to the first that conflicts. -/
def grant? (ledger : Ledger) (reflected : Bool) (lease : Lease) :
    Option (Except ViewMisuse Ledger) := do
  let taken ← ledger.leases.anyM fun held => held.conflicts? reflected lease.region lease.access
  pure (if taken then .error .overlap else .ok ⟨ledger.leases ++ [lease]⟩)

def close? (ledger : Ledger) (ticket : Ticket) (region : Region) :
    Option (Ledger × Except ViewMisuse Unit) :=
  match ledger.leases.findIdx? fun lease => lease.ticket == ticket with
  | none => some (ledger, .error .unknownTicket)
  | some index => do
      let lease ← ledger.leases[index]?
      pure (⟨withdraw ledger.leases index⟩,
        if lease.region = region then .ok () else .error .differentRegion)

end Ledger

namespace FlatTable

variable {α : Type}

/-! ## Entries -/

def read? (table : FlatTable α) (row col : Nat) : Option α := do
  let position ← Packing.position? table.triangle table.dim row col
  table.entries[position]?

def write? (table : FlatTable α) (row col : Nat) (value : α) : Option (FlatTable α) := do
  let position ← Packing.position? table.triangle table.dim row col
  if inside : position < table.entries.size then
    some { table with entries := table.entries.set position value }
  else none

def value? [Zero α] (table : FlatTable α) (row col : Nat) : Option α :=
  if table.triangle.Holds row col then table.read? row col
  else if table.fill = .symmetric then table.read? col row
  else some 0

/-- Why the dense indices are refused, if they are: the row is looked at first. -/
def misplaced? (table : FlatTable α) (row col : Nat) : Option TableError :=
  if table.dim ≤ row then some (.outOfRange .row row table.dim)
  else if table.dim ≤ col then some (.outOfRange .column col table.dim)
  else none

def get? [Zero α] (table : FlatTable α) (row col : Nat) : Option (Except TableError α) :=
  match table.misplaced? row col with
  | some error => some (.error error)
  | none => (table.value? row col).map .ok

def set? (table : FlatTable α) (row col : Nat) (value : α) :
    Option (Except TableError (FlatTable α)) :=
  match table.misplaced? row col with
  | some error => some (.error error)
  | none =>
      if table.triangle.Holds row col then (table.write? row col value).map .ok
      else if table.fill = .symmetric then (table.write? col row value).map .ok
      else do
        let index ← Word.offset? row table.dim col
        pure (.error (.outOfRange .element index table.dim))

def setAll (table : FlatTable α) (value : α) : FlatTable α :=
  { table with entries := table.entries.map fun _ => value }

def values? [Zero α] (table : FlatTable α) (rows cols : List Nat) : Option (List α) :=
  (rows.product cols).mapM fun (row, col) => table.value? row col

def fillRows? (table : FlatTable α) (rows : List Nat) (value? : Nat → Nat → Option α) :
    Option (FlatTable α) :=
  rows.foldlM (fun table row => do
    let cols ← Packing.storedCols? table.triangle table.dim row
    cols.foldlM (fun table col => do table.write? row col (← value? row col)) table) table

/-! ## Whole tables -/

def dense? [Zero α] (table : FlatTable α) : Option (List α) :=
  table.values? (List.range table.dim) (List.range table.dim)

def display? {precision : Precision} (table : FlatTable (Binary precision)) : Option String := do
  let rows ← (List.range table.dim).mapM fun row =>
    (List.range table.dim).mapM fun col => table.value? row col
  pure (String.ofList ('\n' :: rows.flatMap Table.displayRow ++ ['\n']))

def zeros? [Zero α] (fill : Fill) (triangle : Triangle) (n : Nat) : Option (FlatTable α) := do
  let size ← Packing.size? n
  pure { fill, triangle, dim := n, entries := Array.replicate size 0, ledger := .empty }

def ofGrid? [Zero α] (fill : Fill) (triangle : Triangle) (n : Nat) (dense : Array α) :
    Option (Except TableError (FlatTable α)) :=
  if Word.mul? n n = some dense.size then do
    let blank ← zeros? fill triangle n
    let filled ← blank.fillRows? (List.range n) fun row col => Grid.cell? dense row n col
    pure (.ok filled)
  else some (.error (.sizeMismatch dense.size n))

def toTriangle? [Zero α] (table : FlatTable α) (target : Triangle) : Option (FlatTable α) :=
  if target = table.triangle then some { table with ledger := .empty }
  else do
    let blank ← zeros? table.fill target table.dim
    blank.fillRows? (List.range table.dim) fun row col => table.read? col row

/-! ## Lending -/

def window? [Zero α] (table : FlatTable α) (region : Region) : Option (List α) := do
  let rows ← Word.span? region.start region.count
  match region with
  | .rows _ _ => table.values? rows (List.range table.dim)
  | .column col _ _ => rows.mapM fun row => table.value? row col

/-- The values of a view that is lent: those of the region, or zeros. -/
def buffer? [Zero α] (table : FlatTable α) (region : Region) (access : Access) :
    Option (Array α) :=
  if access.reads then (table.window? region).map List.toArray
  else (Word.mul? region.count (region.width table.dim)).map fun size => Array.replicate size 0

def acquire? [Zero α] (table : FlatTable α) (region : Region) (access : Access)
    (ticket : Ticket) : Option (Except TableError (FlatView α × FlatTable α)) :=
  match region.check table.dim with
  | .error error => some (.error error)
  | .ok () => do
      match ← table.ledger.grant? (table.fill == .symmetric) { ticket, region, access } with
      | .error cause => pure (.error (.viewMisuse cause))
      | .ok ledger =>
          let data ← table.buffer? region access
          let view : FlatView α :=
            { ticket, region, access
              rows := region.count
              cols := region.width table.dim
              data }
          pure (.ok (view, { table with ledger }))

/-- Writes what the rows have outside the triangle to the reflections, but not
to those in the rows themselves. -/
def reflectRows? (table : FlatTable α) (rows : List Nat) (value? : Nat → Nat → Option α) :
    Option (FlatTable α) :=
  if table.fill = .symmetric then
    (rows.product (List.range table.dim)).foldlM (fun table (row, col) =>
      if table.triangle.Holds row col ∨ col ∈ rows then some table
      else do table.write? col row (← value? row col)) table
  else some table

def commitRows? (table : FlatTable α) (start count : Nat) (source : Array α) :
    Option (FlatTable α) := do
  let rows ← Word.span? start count
  let reflected ← table.reflectRows? rows (Grid.cellFrom? source start table.dim)
  reflected.fillRows? rows (Grid.cellFrom? source start table.dim)

/-- Commits the values of `source` to part of a column, as far as both go. -/
def commitColumn? (table : FlatTable α) (col start count : Nat) (source : Array α) :
    Option (FlatTable α) := do
  let rows ← Word.span? start count
  (rows.zip source.toList).foldlM (fun table (row, value) =>
    if table.triangle.Holds row col then table.write? row col value
    else if table.fill = .symmetric then table.write? col row value
    else some table) table

def commit? (table : FlatTable α) (region : Region) (source : Array α) : Option (FlatTable α) :=
  match region with
  | .rows start count => table.commitRows? start count source
  | .column col start count => table.commitColumn? col start count source

def release? (table : FlatTable α) (region : Region) (view : FlatView α) :
    Option (FlatTable α × Except TableError Unit) := do
  match ← table.ledger.close? view.ticket region with
  | (ledger, .error cause) => pure ({ table with ledger }, .error (.viewMisuse cause))
  | (ledger, .ok ()) =>
      let closed := { table with ledger }
      if view.access.writes then
        let committed ← closed.commit? region view.data
        pure (committed, .ok ())
      else pure (closed, .ok ())

def discard? (table : FlatTable α) (view : FlatView α) :
    Option (FlatTable α × Except TableError Unit) := do
  match ← table.ledger.close? view.ticket view.region with
  | (ledger, .error cause) => pure ({ table with ledger }, .error (.viewMisuse cause))
  | (ledger, .ok ()) => pure ({ table with ledger }, .ok ())

end FlatTable

end HalfMatrix
