import HalfMatrix.Access
import HalfMatrix.Region

/-!
# The ledger of outstanding views

A table keeps one lease for each view that it has handed out and not got back.
A new lease must not conflict with the ones already held: leases on
overlapping regions coexist only if all of them are read-only.

A lease is found by its ticket.  Closing removes it even if the region named
by the holder is not the one that was leased; only the answer differs.  The
last lease takes the place of the one removed.
-/

set_option autoImplicit false

namespace HalfMatrix

/-- The number of a view.  It is given out once for all tables together. -/
abbrev Ticket : Type := UInt64

structure Lease where
  ticket : Ticket
  region : Region
  access : Access
  deriving DecidableEq, Repr

/-- A lease on `region` in mode `access` cannot be given while `lease` is held.
With `reflected` an entry and its transpose count as one. -/
def Lease.conflicts (lease : Lease) (reflected : Bool) (region : Region) (access : Access) : Bool :=
  (if reflected then lease.region.meetsReflected region else lease.region.meets region) &&
    !(lease.access == .readOnly && access == .readOnly)

structure Ledger where
  leases : List Lease
  deriving DecidableEq, Repr

namespace Ledger

def empty : Ledger := ⟨[]⟩

def size (ledger : Ledger) : Nat := ledger.leases.length

def grant (ledger : Ledger) (reflected : Bool) (lease : Lease) : Except ViewMisuse Ledger :=
  if ledger.leases.any fun held => held.conflicts reflected lease.region lease.access then
    .error .overlap
  else
    .ok ⟨ledger.leases ++ [lease]⟩

def find? (ledger : Ledger) (ticket : Ticket) : Option Lease :=
  ledger.leases.find? fun lease => lease.ticket == ticket

/-- The leases without the one at `index`, whose place the last one takes. -/
def withdraw (leases : List Lease) (index : Nat) : List Lease :=
  match leases.getLast? with
  | none => leases
  | some last => (leases.set index last).dropLast

def erase (ledger : Ledger) (ticket : Ticket) : Ledger :=
  match ledger.leases.findIdx? fun lease => lease.ticket == ticket with
  | none => ledger
  | some index => ⟨withdraw ledger.leases index⟩

/-- Closes the lease with this ticket: the ledger afterwards, and whether
`region` is what was leased. -/
def close (ledger : Ledger) (ticket : Ticket) (region : Region) :
    Ledger × Except ViewMisuse Unit :=
  match ledger.find? ticket with
  | none => (ledger, .error .unknownTicket)
  | some lease =>
      (ledger.erase ticket,
        if lease.region = region then .ok () else .error .differentRegion)

end Ledger

end HalfMatrix
