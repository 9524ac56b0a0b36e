/-!
# Errors and faults

An error is the answer of a table that refuses an operation.  A fault is not an
answer but a breach of what the caller of an operation must see to: it stops the
operation, and nothing that it would have changed is changed.
-/

set_option autoImplicit false

namespace HalfMatrix

inductive Axis where
  | row
  | column
  | element
  deriving DecidableEq, Repr

def Axis.name : Axis → String
  | row => "row"
  | column => "column"
  | element => "element"

inductive ViewMisuse where
  | overlap
  | unknownTicket
  | differentRegion
  deriving DecidableEq, Repr

def ViewMisuse.message : ViewMisuse → String
  | overlap => "a view of an overlapping region is already outstanding"
  | unknownTicket => "view was not acquired from this table or was already released"
  | differentRegion => "release arguments do not match the acquired region"

inductive TableError where
  | outOfRange (axis : Axis) (index dim : Nat)
  | viewMisuse (cause : ViewMisuse)
  | sizeMismatch (length dim : Nat)
  deriving DecidableEq, Repr

def TableError.message : TableError → String
  | outOfRange axis index dim =>
      axis.name ++ " index " ++ toString index ++ " out of range for dimension " ++ toString dim
  | viewMisuse cause => "Invalid view state: " ++ cause.message
  | sizeMismatch length dim =>
      "Packed data of length " ++ toString length ++ " is incompatible with dimension " ++
        toString dim

inductive Fault where
  /-- A buffer was addressed outside its bounds. -/
  | indexOutOfBounds
  /-- The packed size for this dimension is not a word. -/
  | sizeOverflow (dim : Nat)
  /-- A value cannot be laid out with so great a width or so many places. -/
  | layoutOverflow
  deriving DecidableEq, Repr

def Fault.message? : Fault → Option String
  | indexOutOfBounds => none
  | sizeOverflow dim =>
      some ("packed storage for dimension " ++ toString dim ++ " overflows usize")
  | layoutOverflow => none

end HalfMatrix
