import HalfMatrix.Proofs.DenseForms
import HalfMatrix.Proofs.Session.Runs

/-!
# Keeping a matrix in the other triangle

The change of triangle reads each stored entry at its reflection.  A symmetric
table shows the same matrix afterwards, a triangular one the transpose; the
packed values are the same in another order, and changing back restores their
order.  The table that is copied stays as it is.
-/

set_option autoImplicit false

namespace HalfMatrix

/-! ## The stored entries in order -/

namespace Packing

def places (triangle : Triangle) (n : Nat) : List (Fin n × Fin n) :=
  (storedEntries triangle n).map fun entry => (entry.1, entry.2.1)

variable {n : Nat}

theorem mem_places {triangle : Triangle} {row col : Fin n} :
    (row, col) ∈ places triangle n ↔ triangle.Holds row col := by
  rw [places, List.mem_map]
  constructor
  · rintro ⟨⟨row', col', place⟩, stored, same⟩
    obtain ⟨rfl, rfl⟩ := Prod.mk.inj same
    exact (mem_storedEntries.mp stored).1
  · intro inside
    exact ⟨(row, col, slot triangle row col inside), mem_storedEntries.mpr ⟨inside, rfl⟩, rfl⟩

theorem slots_storedEntries (triangle : Triangle) (n : Nat) :
    (storedEntries triangle n).map (fun entry => entry.2.2) = List.finRange (triangular n) := by
  have positions := positions_storedEntries triangle n
  rw [← List.map_coe_finRange_eq_range] at positions
  apply List.map_injective_iff.mpr Fin.val_injective
  rw [List.map_map]
  exact positions

theorem nodup_places (triangle : Triangle) (n : Nat) : (places triangle n).Nodup := by
  have slots : ((storedEntries triangle n).map fun entry => entry.2.2).Nodup := by
    rw [slots_storedEntries]
    exact List.nodup_finRange (triangular n)
  refine (List.Nodup.of_map _ slots).map_on ?_
  rintro ⟨row, col, place⟩ stored ⟨row', col', place'⟩ stored' same
  obtain ⟨rfl, rfl⟩ := Prod.mk.inj same
  obtain ⟨_, rfl⟩ := mem_storedEntries.mp stored
  obtain ⟨_, rfl⟩ := mem_storedEntries.mp stored'
  rfl

/-- The reflections of the entries of one triangle are the entries of the other. -/
theorem swap_places_perm {triangle target : Triangle} (other : target ≠ triangle) (n : Nat) :
    ((places target n).map Prod.swap).Perm (places triangle n) := by
  refine (List.perm_ext_iff_of_nodup ((nodup_places target n).map Prod.swap_injective)
    (nodup_places triangle n)).mpr ?_
  rintro ⟨row, col⟩
  rw [← Prod.swap_prod_mk, List.mem_map_of_injective Prod.swap_injective, mem_places,
    Prod.swap_prod_mk, mem_places, Triangle.eq_opposite_of_ne other, Triangle.holds_opposite]

end Packing

/-! ## The other triangle -/

namespace Table

section Relaying

variable {α : Type} {n : Nat} [Zero α] {table : Table α n} {target : Triangle}

theorem toList_entries (table : Table α n) :
    table.entries.toList =
      (Packing.places table.triangle n).map fun place => table.entry place.1 place.2 := by
  have listed : table.entries.toList =
      (List.finRange (Packing.triangular n)).map table.entries.get := by
    apply List.ext_getElem (by simp)
    intro index bound bound'
    rw [Vector.getElem_toList, List.getElem_map, List.getElem_finRange]
    rfl
  rw [listed, ← Packing.slots_storedEntries table.triangle n, Packing.places, List.map_map,
    List.map_map]
  refine List.map_congr_left ?_
  rintro ⟨row, col, place⟩ stored
  obtain ⟨inside, rfl⟩ := Packing.mem_storedEntries.mp stored
  exact (entry_of_holds inside).symm

/-- A triangular table shows its transpose in the other triangle. -/
theorem entry_toTriangle_of_triangular (triangular : table.fill = .triangular)
    (other : target ≠ table.triangle) (row col : Fin n) :
    (table.toTriangle target).entry row col = table.entry col row := by
  by_cases inside : target.Holds row col
  · exact entry_toTriangle_of_holds other inside
  · have outside : ¬ table.triangle.Holds col row := by
      rw [Triangle.eq_opposite_of_ne other, Triangle.holds_opposite]
      exact inside
    have outside' : ¬ (table.toTriangle target).triangle.Holds row col := by
      rw [triangle_toTriangle]
      exact inside
    rw [entry_of_not_holds outside', entry_of_not_holds outside, fill_toTriangle, triangular]
    rfl

theorem toTriangle_toTriangle (table : Table α n) (target : Triangle) :
    (table.toTriangle target).toTriangle table.triangle = table.copy := by
  by_cases same : target = table.triangle
  · rw [same, toTriangle_self]
    exact toTriangle_self table.copy
  · have back : table.triangle ≠ (table.toTriangle target).triangle := by
      rw [triangle_toTriangle]
      exact Ne.symm same
    refine ext_entry ?_ ?_ ?_ ?_
    · rw [fill_toTriangle, fill_toTriangle]
      rfl
    · rw [triangle_toTriangle]
      rfl
    · rw [ledger_toTriangle]
      rfl
    · intro row col inside
      rw [triangle_toTriangle] at inside
      have reflected : target.Holds col row := by
        rwa [Triangle.eq_opposite_of_ne same, Triangle.holds_opposite] at inside
      rw [entry_toTriangle_of_holds back inside, entry_toTriangle_of_holds same reflected]
      rfl

theorem toList_toTriangle_perm (table : Table α n) (target : Triangle) :
    (table.toTriangle target).entries.toList.Perm table.entries.toList := by
  by_cases same : target = table.triangle
  · rw [same, toTriangle_self]
    exact List.Perm.refl _
  · have values : (table.toTriangle target).entries.toList =
        ((Packing.places target n).map Prod.swap).map fun place =>
          table.entry place.1 place.2 := by
      rw [toList_entries, triangle_toTriangle, List.map_map]
      refine List.map_congr_left ?_
      rintro ⟨row, col⟩ stored
      exact entry_toTriangle_of_holds same (Packing.mem_places.mp stored)
    rw [values, toList_entries table]
    exact (Packing.swap_places_perm same n).map _

end Relaying

variable {precision : Precision} {n : Nat}

/-- `relaid` has the matrix of `table` in the triangle `target`, or its transpose. -/
structure RelaidTo (table relaid : Table (Binary precision) n) (target : Triangle) : Prop where
  fill : relaid.fill = table.fill
  triangle : relaid.triangle = target
  /-- The packed storage has its full length, and no view is outstanding. -/
  full : relaid.entries.toList.length = n * (n + 1) / 2
  unlent : relaid.ledger.size = 0
  /-- The loop that reads at the reflections and writes in order gives this table. -/
  computed : table.flat.toTriangle? target = some relaid.flat
  /-- A symmetric table shows the same matrix. -/
  symmetric : table.fill = .symmetric → relaid.toGrid = table.toGrid
  /-- So does a table that is only copied. -/
  same : target = table.triangle → relaid.toGrid = table.toGrid
  /-- A triangular table shows the transpose in the other triangle. -/
  transposed : table.fill = .triangular → target ≠ table.triangle → ∀ row col : Fin n,
    relaid.toGrid.entry row col = table.toGrid.entry col row
  /-- The packed values are the same ones, each as often as before. -/
  rearranged : relaid.entries.toList.Perm table.entries.toList
  /-- Back in its own triangle the table has its own packed values again. -/
  back : relaid.toTriangle table.triangle = table.copy

theorem relaidTo_toTriangle (table : Table (Binary precision) n) (target : Triangle) :
    table.RelaidTo (table.toTriangle target) target where
  fill := table.fill_toTriangle target
  triangle := table.triangle_toTriangle target
  full := (table.toTriangle target).entries.length_toList
  unlent := by
    rw [ledger_toTriangle]
    rfl
  computed := table.toTriangle?_flat target
  symmetric symmetric := by
    apply Grid.ext_entry
    intro row col
    rw [entry_toGrid, entry_toGrid, entry_toTriangle symmetric]
  same same := by
    rw [same, toTriangle_self]
    rfl
  transposed triangular other row col := by
    rw [entry_toGrid, entry_toGrid, entry_toTriangle_of_triangular triangular other]
  rearranged := table.toList_toTriangle_perm target
  back := table.toTriangle_toTriangle target

end Table

/-! ## In a session -/

namespace Session

/-- What a session makes of the request for a table in another triangle, under the
name `target`. -/
structure Relays (session : Session) (name : String) (owner : SomeTable) (target : String)
    (triangle : Triangle) (relaid : Table (Binary owner.precision) owner.dim) : Prop where
  answer : (session.step (.table name (.toTriangle target triangle))).1.answer =
    .ok (SomeTable.created { owner with table := relaid })
  /-- The name stands for the new table, and nothing else changes. -/
  made : (session.step (.table name (.toTriangle target triangle))).2 =
    session.putTable target { owner with table := relaid }
  /-- The table that was copied keeps its packed values and its outstanding views. -/
  kept : target ≠ name →
    (session.step (.table name (.toTriangle target triangle))).2.tables.find? name = some owner

/-- A table is copied to either triangle without losing its matrix. -/
theorem relayout_keeps_matrix (session : Session) {name : String} {owner : SomeTable}
    (owned : session.tables.find? name = some owner) (target : String) (triangle : Triangle) :
    ∃ relaid : Table (Binary owner.precision) owner.dim,
      owner.table.RelaidTo relaid triangle ∧
        session.Relays name owner target triangle relaid := by
  have stepped : session.step (.table name (.toTriangle target triangle)) =
      session.derive name owner target
        { owner with table := owner.table.toTriangle triangle } := by
    simp only [step, find, owned, withFound, tableStep]
  refine ⟨_, owner.table.relaidTo_toTriangle triangle, ?_, ?_, ?_⟩
  · rw [stepped]
    rfl
  · rw [stepped]
    rfl
  · intro apart
    rw [stepped]
    exact (Names.find?_insert _ _ _ _).trans ((if_neg (Ne.symm apart)).trans owned)

theorem fits_lowerNan : 3 * (3 + 1) < Word.modulus := by decide

def lowerNan : Table (Binary .double) 3 where
  fill := .triangular
  triangle := .lower
  entries :=
    #v[.ofMagnitude false 1, .nan, .ofMagnitude true 0, .infinite false, .infinite true, .nan]
  ledger := .empty
  fits := fits_lowerNan

/-- What is not a number keeps its bits above the diagonal and back below it. -/
theorem not_a_number_is_transposed :
    ∃ relaid : Table (Binary .double) 3,
      (initial.putTable "t" ⟨.double, 3, lowerNan⟩).tables.find? "t" =
          some ⟨.double, 3, lowerNan⟩ ∧
        (initial.putTable "t" ⟨.double, 3, lowerNan⟩).Relays "t" ⟨.double, 3, lowerNan⟩ "u" .upper
          relaid ∧
        relaid.toGrid.entry 0 1 = .nan ∧ relaid.toGrid.entry 1 0 = .ofMagnitude false 0 ∧
          relaid.toTriangle .lower = lowerNan.copy := by
  have owned : (initial.putTable "t" ⟨.double, 3, lowerNan⟩).tables.find? "t" =
      some ⟨.double, 3, lowerNan⟩ := Names.find?_insert_name _ _ _
  obtain ⟨relaid, relays, request⟩ := relayout_keeps_matrix _ owned "u" .upper
  have transposed : ∀ row col : Fin 3, relaid.toGrid.entry row col = lowerNan.toGrid.entry col row :=
    relays.transposed rfl (by decide)
  have below : lowerNan.toGrid.entry 1 0 = .nan := by decide
  have above : lowerNan.toGrid.entry 0 1 = .ofMagnitude false 0 := by decide
  exact ⟨relaid, owned, request, (transposed 0 1).trans below, (transposed 1 0).trans above,
    relays.back⟩

end Session

end HalfMatrix
