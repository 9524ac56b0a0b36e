import HalfMatrix.Proofs.Footprints
import Mathlib.Data.List.Nodup
import Mathlib.Data.List.Pairwise
import Mathlib.Data.List.Perm.Basic

/-!
# What granting and closing do to a ledger

Granting adds a lease that is clear of the others.  Closing removes the one
lease that was found and rearranges the rest, so whatever does not depend on
their order is kept.
-/

set_option autoImplicit false

namespace HalfMatrix.Ledger

theorem withdraw_concat (leases : List Lease) (last : Lease) (index : Nat) :
    withdraw (leases ++ [last]) index = ((leases ++ [last]).set index last).dropLast := by
  simp [withdraw]

theorem withdraw_length (leases : List Lease) (last : Lease) :
    withdraw (leases ++ [last]) leases.length = leases := by
  rw [withdraw_concat]
  simp

theorem withdraw_perm (leases : List Lease) (index : Nat) (bound : index < leases.length) :
    (leases[index] :: withdraw leases index).Perm leases := by
  rcases leases.eq_nil_or_concat with rfl | ⟨before, last, shape⟩
  · exact absurd bound (Nat.not_lt_zero index)
  · rw [List.concat_eq_append] at shape
    subst shape
    rw [withdraw_concat]
    rcases Nat.lt_or_ge index before.length with inner | outer
    · rw [List.getElem_append_left inner, List.set_append_left _ _ inner, List.dropLast_concat]
      have swapped := (List.set_perm_cons_eraseIdx inner last).cons before[index]
      have restored := (List.getElem_cons_eraseIdx_perm inner).cons last
      exact swapped.trans ((List.Perm.swap _ _ _).trans (restored.trans
        (List.perm_append_singleton last before).symm))
    · have same : index = before.length := by
        rw [List.length_append, List.length_singleton] at bound
        omega
      subst same
      simp only [List.getElem_concat_length, List.set_append_right _ _ outer, Nat.sub_self,
        List.set_cons_zero, List.dropLast_concat]
      exact (List.perm_append_singleton last before).symm

theorem find?_eq_none_iff {ledger : Ledger} {ticket : Ticket} :
    ledger.find? ticket = none ↔ ∀ lease ∈ ledger.leases, lease.ticket ≠ ticket := by
  simp [find?]

theorem mem_of_find? {ledger : Ledger} {ticket : Ticket} {lease : Lease}
    (found : ledger.find? ticket = some lease) :
    lease ∈ ledger.leases ∧ lease.ticket = ticket :=
  ⟨List.mem_of_find?_eq_some found, by simpa using List.find?_some found⟩

def Distinct (ledger : Ledger) : Prop := (ledger.leases.map Lease.ticket).Nodup

theorem find?_of_mem {ledger : Ledger} {lease : Lease} (distinct : ledger.Distinct)
    (mem : lease ∈ ledger.leases) : ledger.find? lease.ticket = some lease := by
  cases found : ledger.find? lease.ticket with
  | none => exact absurd rfl (find?_eq_none_iff.mp found lease mem)
  | some other =>
      obtain ⟨otherMem, sameTicket⟩ := mem_of_find? found
      rw [List.inj_on_of_nodup_map distinct otherMem mem sameTicket]

theorem erase_perm {ledger : Ledger} {ticket : Ticket} {lease : Lease}
    (found : ledger.find? ticket = some lease) :
    (lease :: (ledger.erase ticket).leases).Perm ledger.leases := by
  rw [find?, List.find?_eq_bind_findIdx?_getElem?] at found
  obtain ⟨index, place, held⟩ := Option.bind_eq_some_iff.mp found
  obtain ⟨bound, rfl⟩ := List.getElem?_eq_some_iff.mp held
  simp only [erase, place]
  exact withdraw_perm ledger.leases index bound

theorem mem_of_mem_erase {ledger : Ledger} {ticket : Ticket} {lease other : Lease}
    (found : ledger.find? ticket = some lease) (mem : other ∈ (ledger.erase ticket).leases) :
    other ∈ ledger.leases :=
  (erase_perm found).subset (List.mem_cons_of_mem lease mem)

theorem size_erase {ledger : Ledger} {ticket : Ticket} {lease : Lease}
    (found : ledger.find? ticket = some lease) : (ledger.erase ticket).size + 1 = ledger.size :=
  (erase_perm found).length_eq

theorem Distinct.erase {ledger : Ledger} {ticket : Ticket} {lease : Lease}
    (distinct : ledger.Distinct) (found : ledger.find? ticket = some lease) :
    (ledger.erase ticket).Distinct := by
  have rearranged := ((erase_perm found).map Lease.ticket).nodup_iff.mpr distinct
  exact (List.nodup_cons.mp rearranged).2

/-- Of leases with distinct tickets closing removes the one found and no other. -/
theorem mem_erase_iff {ledger : Ledger} {ticket : Ticket} {lease other : Lease}
    (distinct : ledger.Distinct) (found : ledger.find? ticket = some lease) :
    other ∈ (ledger.erase ticket).leases ↔ other ∈ ledger.leases ∧ other.ticket ≠ ticket := by
  have sameTicket := (mem_of_find? found).2
  have rearranged := ((erase_perm found).map Lease.ticket).nodup_iff.mpr distinct
  rw [List.map_cons, List.nodup_cons] at rearranged
  constructor
  · intro mem
    refine ⟨mem_of_mem_erase found mem, ?_⟩
    intro clash
    rw [sameTicket] at rearranged
    exact rearranged.1 (List.mem_map.mpr ⟨other, mem, clash⟩)
  · rintro ⟨mem, apart⟩
    rcases List.mem_cons.mp ((erase_perm found).symm.subset mem) with rfl | kept
    · exact absurd sameTicket apart
    · exact kept

theorem erase_granted (ledger : Ledger) (lease : Lease)
    (fresh : ∀ held ∈ ledger.leases, held.ticket ≠ lease.ticket) :
    (Ledger.mk (ledger.leases ++ [lease])).find? lease.ticket = some lease ∧
      (Ledger.mk (ledger.leases ++ [lease])).erase lease.ticket = ledger := by
  have missed : ledger.leases.find? (fun held => held.ticket == lease.ticket) = none :=
    find?_eq_none_iff.mpr fresh
  have missedIndex : ledger.leases.findIdx? (fun held => held.ticket == lease.ticket) = none := by
    simpa using fresh
  constructor
  · simp [find?, List.find?_append, missed]
  · simp [erase, List.findIdx?_append, missedIndex, withdraw_length]

theorem grant_eq_ok_iff {ledger granted : Ledger} {reflected : Bool} {lease : Lease} :
    ledger.grant reflected lease = .ok granted ↔
      (∀ held ∈ ledger.leases, held.Clear reflected lease) ∧
        granted = ⟨ledger.leases ++ [lease]⟩ := by
  unfold grant
  split
  · rename_i refused
    simp only [List.any_eq_true] at refused
    obtain ⟨held, mem, conflict⟩ := refused
    simp only [reduceCtorEq, false_iff, not_and]
    intro clear
    rw [clear held mem] at conflict
    cases conflict
  · rename_i accepted
    simp only [List.any_eq_true, not_exists, not_and, Bool.not_eq_true] at accepted
    simp only [Except.ok.injEq, eq_comm (a := granted)]
    exact ⟨fun same => ⟨accepted, same⟩, fun both => both.2⟩

/-- What every ledger of a table of dimension `n` satisfies: its leases are on
regions of the table, and any two of them can be held together. -/
structure Orderly (reflected : Bool) (n : Nat) (ledger : Ledger) : Prop where
  within : ∀ lease ∈ ledger.leases, lease.region.Within n
  clear : ledger.leases.Pairwise (Lease.Clear reflected)

theorem orderly_empty (reflected : Bool) (n : Nat) : Ledger.empty.Orderly reflected n :=
  ⟨fun _ mem => (List.not_mem_nil mem).elim, List.Pairwise.nil⟩

theorem Orderly.grant {reflected : Bool} {n : Nat} {ledger granted : Ledger} {lease : Lease}
    (orderly : ledger.Orderly reflected n) (within : lease.region.Within n)
    (given : ledger.grant reflected lease = .ok granted) : granted.Orderly reflected n := by
  obtain ⟨clear, rfl⟩ := grant_eq_ok_iff.mp given
  constructor
  · intro held mem
    rcases List.mem_append.mp mem with mem | mem
    · exact orderly.within held mem
    · rw [List.mem_singleton.mp mem]
      exact within
  · apply List.pairwise_append.mpr
    refine ⟨orderly.clear, List.pairwise_singleton _ _, ?_⟩
    intro held mem other otherMem
    rw [List.mem_singleton.mp otherMem]
    exact clear held mem

theorem Orderly.erase {reflected : Bool} {n : Nat} {ledger : Ledger} {ticket : Ticket}
    {lease : Lease} (orderly : ledger.Orderly reflected n)
    (found : ledger.find? ticket = some lease) : (ledger.erase ticket).Orderly reflected n := by
  constructor
  · intro held mem
    exact orderly.within held (mem_of_mem_erase found mem)
  · have rearranged := (List.Perm.pairwise_iff Lease.Clear.symm (erase_perm found)).mpr
      orderly.clear
    exact (List.pairwise_cons.mp rearranged).2

theorem Orderly.clear_of_ticket_ne {reflected : Bool} {n : Nat} {ledger : Ledger}
    {left right : Lease} (orderly : ledger.Orderly reflected n) (mem : left ∈ ledger.leases)
    (mem' : right ∈ ledger.leases) (apart : left.ticket ≠ right.ticket) :
    left.Clear reflected right := by
  have symmetric : Std.Symm (Lease.Clear reflected) := ⟨fun _ _ => Lease.Clear.symm⟩
  apply orderly.clear.forall mem mem'
  rintro rfl
  exact apart rfl

end HalfMatrix.Ledger
