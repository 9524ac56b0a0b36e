import HalfMatrix.Proofs.Flat.Entries
import HalfMatrix.Proofs.Handovers

/-!
# Flat tables lend and take back inside their buffers

A region that lies in a table has bounds that are words, and so have the leases
of an orderly table.  Lending therefore never leaves the words or a buffer, and
neither does a commit of a view in the shape of its region.
-/

set_option autoImplicit false

namespace HalfMatrix

/-! ## Regions -/

namespace Region

variable {n : Nat}

theorem stop_le {region : Region} (within : region.Within n) :
    region.start + region.count ≤ n := by
  cases region with
  | rows start count => exact within
  | column col start count => exact within.2

theorem own_lt {own start count : Nat} (within : (column own start count).Within n) : own < n :=
  within.1

theorem stop_lt (fits : n * (n + 1) < Word.modulus) {region : Region} (within : region.Within n) :
    region.start + region.count < Word.modulus := by
  have small := Packing.dim_lt fits
  have modulus : Word.modulus = 2 ^ 64 := rfl
  have stop := stop_le within
  omega

theorem size_lt (fits : n * (n + 1) < Word.modulus) {region : Region} (within : region.Within n) :
    region.count * region.width n < Word.modulus := by
  have rows : region.count ≤ n := Nat.le_trans (Nat.le_add_left _ _) (stop_le within)
  cases region with
  | rows start count =>
      exact Nat.lt_of_le_of_lt (Nat.mul_le_mul_right n rows) (Packing.square_lt_modulus fits)
  | column col start count =>
      have small := Packing.dim_lt fits
      have modulus : Word.modulus = 2 ^ 64 := rfl
      simp only [Region.count, width] at *
      omega

theorem checkRows_eq (fits : n * (n + 1) < Word.modulus) (start count : Nat) :
    check.checkRows n start count =
      if start + count ≤ n then .ok ()
      else .error (.outOfRange .row (Word.saturatingAdd start count) n) := by
  unfold check.checkRows Word.add?
  by_cases word : start + count < Word.modulus
  · rw [if_pos word]
  · have small := Packing.dim_lt fits
    have modulus : Word.modulus = 2 ^ 64 := rfl
    rw [if_neg word, if_neg (by omega)]

theorem check_eq (fits : n * (n + 1) < Word.modulus) (region : Region) :
    region.check n = if region.Within n then .ok () else .error (region.outside n) := by
  cases region with
  | rows start count => exact checkRows_eq fits start count
  | column col start count =>
      by_cases colBound : col < n
      · have within : (column col start count).Within n ↔ start + count ≤ n :=
          and_iff_right colBound
        simp only [check, if_neg (Nat.not_le.mpr colBound), checkRows_eq fits, outside,
          if_pos colBound, within]
      · have within : ¬ (column col start count).Within n := fun within => colBound within.1
        simp only [check, if_pos (Nat.not_lt.mp colBound), outside, if_neg colBound, if_neg within]

section Meeting

variable {left right : Region}

theorem rowsMeet?_eq (leftBound : left.start + left.count < Word.modulus)
    (rightBound : right.start + right.count < Word.modulus) :
    left.rowsMeet? right = some (decide (left.RowsMeet right)) := by
  rw [rowsMeet?, Word.add?_of_lt leftBound, Word.add?_of_lt rightBound]
  refine congrArg some (Bool.eq_iff_iff.mpr ?_)
  rw [Bool.and_eq_true, decide_eq_true_iff, decide_eq_true_iff, decide_eq_true_iff]
  rfl

theorem hasRow?_eq (bound : left.start + left.count < Word.modulus) (row : Nat) :
    left.hasRow? row = some (decide (left.HasRow row)) := by
  rw [hasRow?, Word.add?_of_lt bound]
  refine congrArg some (Bool.eq_iff_iff.mpr ?_)
  rw [Bool.and_eq_true, decide_eq_true_iff, decide_eq_true_iff, decide_eq_true_iff]
  rfl

theorem meets?_eq (leftBound : left.start + left.count < Word.modulus)
    (rightBound : right.start + right.count < Word.modulus) :
    left.meets? right = some (left.meets right) := by
  by_cases empty : left.IsEmpty ∨ right.IsEmpty
  · rw [meets?, if_pos empty]
    rcases empty with empty | empty <;> simp [meets, empty]
  · obtain ⟨filled, filled'⟩ := not_or.mp empty
    rw [meets?, if_neg empty, rowsMeet?_eq leftBound rightBound]
    cases left <;> cases right <;> simp [meets, filled, filled']

theorem meetsReflected?_eq (leftBound : left.start + left.count < Word.modulus)
    (rightBound : right.start + right.count < Word.modulus) :
    left.meetsReflected? right = some (left.meetsReflected right) := by
  by_cases empty : left.IsEmpty ∨ right.IsEmpty
  · unfold meetsReflected?
    rw [if_pos empty]
    rcases empty with empty | empty <;> simp [meetsReflected, empty]
  · obtain ⟨filled, filled'⟩ := not_or.mp empty
    unfold meetsReflected?
    rw [if_neg empty, meets?_eq leftBound rightBound]
    cases meet : left.meets right with
    | true => simp [meetsReflected, filled, filled', meet]
    | false =>
        have leftRow := hasRow?_eq leftBound
        have rightRow := hasRow?_eq rightBound
        cases left with
        | rows _ _ =>
            cases right <;> simp [meetsReflected, filled, filled', meet, leftRow]
        | column own start count =>
            cases right with
            | rows _ _ => simp [meetsReflected, filled, filled', meet, rightRow]
            | column other _ _ =>
                by_cases has : (column own start count).HasRow other <;>
                  simp [meetsReflected, filled, filled', meet, leftRow, rightRow, has]

end Meeting

end Region

/-! ## Ledgers -/

theorem anyM_eq_some {ι : Type} (items : List ι) {test? : ι → Option Bool} {test : ι → Bool}
    (each : ∀ item ∈ items, test? item = some (test item)) :
    items.anyM test? = some (items.any test) := by
  induction items with
  | nil => rfl
  | cons item items ih =>
      have first := each item List.mem_cons_self
      have others := ih fun other mem => each other (List.mem_cons_of_mem item mem)
      cases taken : test item <;> simp [List.anyM, first, others, taken]

theorem Lease.conflicts?_eq {lease : Lease} {region : Region}
    (bound : lease.region.start + lease.region.count < Word.modulus)
    (bound' : region.start + region.count < Word.modulus) (reflected : Bool) (access : Access) :
    lease.conflicts? reflected region access = some (lease.conflicts reflected region access) := by
  have meet := Region.meets?_eq bound bound'
  have meetReflected := Region.meetsReflected?_eq bound bound'
  cases reflected <;> simp [conflicts?, conflicts, meet, meetReflected]

namespace Ledger

theorem grant?_eq {ledger : Ledger} {lease : Lease}
    (bounds : ∀ held ∈ ledger.leases, held.region.start + held.region.count < Word.modulus)
    (bound : lease.region.start + lease.region.count < Word.modulus) (reflected : Bool) :
    ledger.grant? reflected lease = some (ledger.grant reflected lease) := by
  have taken := anyM_eq_some ledger.leases fun held mem =>
    Lease.conflicts?_eq (bounds held mem) bound reflected lease.access
  rw [grant?, taken]
  rfl

theorem close?_eq (ledger : Ledger) (ticket : Ticket) (region : Region) :
    ledger.close? ticket region = some (ledger.close ticket region) := by
  unfold close? close find? erase
  cases place : ledger.leases.findIdx? fun lease => lease.ticket == ticket with
  | none =>
      have unknown : ledger.leases.find? (fun lease => lease.ticket == ticket) = none := by
        simpa using place
      rw [unknown]
  | some index =>
      obtain ⟨inside, first⟩ := List.findIdx?_eq_some_iff_findIdx_eq.mp place
      have known : ledger.leases.find? (fun lease => lease.ticket == ticket) =
          some ledger.leases[index] := by
        rw [List.find?_eq_getElem?_findIdx, first, List.getElem?_eq_getElem inside]
      simp [known, inside]

end Ledger

namespace Table

variable {α : Type} {n : Nat}

theorem range'_eq_map (region : Region) (within : region.Within n) :
    List.range' region.start region.count =
      (List.finRange region.count).map fun i => (region.rowAt within i : Nat) := by
  rw [List.range'_eq_map_range, ← List.map_coe_finRange_eq_range, List.map_map]
  rfl

theorem span?_eq (table : Table α n) (region : Region) (within : region.Within n) :
    Word.span? region.start region.count =
      some ((List.finRange region.count).map fun i => (region.rowAt within i : Nat)) := by
  rw [Word.span?_of_lt (Region.stop_lt table.fits within), range'_eq_map region within]

/-! ## Lending -/

section Lending

variable [Zero α]

theorem window?_flat (table : Table α n) (region : Region) (within : region.Within n) :
    table.flat.window? region = some (table.window region within).toList := by
  rw [FlatTable.window?, span?_eq table region within]
  cases region with
  | rows start count =>
      rw [window, Grid.toList_ofFn]
      have values := table.values?_flat (List.finRange count) (List.finRange n)
        ((Region.rows start count).rowAt within) id
      simp only [id] at values
      rw [List.map_coe_finRange_eq_range] at values
      exact values
  | column col start count =>
      have shown : (table.window (.column col start count) within).toList = _ :=
        Grid.toList_ofFn_one _
      simp only [Option.bind_eq_bind, Option.bind_some]
      rw [List.mapM_map, shown]
      exact mapM_eq_some _ fun i _ => table.value?_flat _ ⟨col, within.1⟩

theorem buffer?_flat (table : Table α n) (region : Region) (within : region.Within n)
    (access : Access) :
    table.flat.buffer? region access =
      some
        (if access.reads then table.window region within
          else Grid.ofFn fun _ _ => 0).toArray := by
  unfold FlatTable.buffer?
  cases access.reads with
  | true =>
      rw [if_pos rfl, if_pos rfl, table.window?_flat region within, Option.map_some]
      rfl
  | false =>
      have zeros : (Grid.ofFn fun _ _ => 0 : Grid α region.count (region.width n)) =
          Vector.replicate (region.count * region.width n) 0 := by
        apply Vector.ext
        intro index bound
        simp [Grid.ofFn]
      rw [if_neg Bool.false_ne_true, if_neg Bool.false_ne_true, zeros, flat_dim,
        Word.mul?_of_lt (Region.size_lt table.fits within), Option.map_some]
      rfl

theorem acquire?_flat (table : Table α n) (orderly : table.Orderly) (region : Region)
    (access : Access) (ticket : Ticket) :
    table.flat.acquire? region access ticket =
      some ((table.acquire region access ticket).map fun (view, after) =>
        (view.flat, after.flat)) := by
  rw [FlatTable.acquire?, flat_dim, Region.check_eq table.fits, acquire]
  by_cases within : region.Within n
  · have bounds : ∀ held ∈ table.ledger.leases,
        held.region.start + held.region.count < Word.modulus := fun held mem =>
      Region.stop_lt table.fits (orderly.within held mem)
    have granted : table.ledger.grant? (table.fill == .symmetric) ⟨ticket, region, access⟩ =
        some (table.ledger.grant table.isSymmetric ⟨ticket, region, access⟩) :=
      Ledger.grant?_eq bounds (Region.stop_lt table.fits within) _
    rw [if_pos within, dif_pos within, flat_ledger, flat_fill, granted]
    cases table.ledger.grant table.isSymmetric ⟨ticket, region, access⟩ with
    | error cause => rfl
    | ok ledger =>
        simp only [Option.bind_eq_bind, Option.bind_some, table.buffer?_flat region within]
        rfl
  · rw [if_neg within, dif_neg within]
    rfl

end Lending

/-! ## Commits -/

/-- Lists of the same writes store the same, if they have one value at most for
each position. -/
theorem store_congr {size : Nat} (entries : Vector α size) {writes writes' : List (Fin size × α)}
    (same : ∀ write, write ∈ writes ↔ write ∈ writes')
    (single : ∀ place value value', (place, value) ∈ writes → (place, value') ∈ writes →
      value = value') : store entries writes = store entries writes' := by
  apply entries_ext
  intro place
  rw [get_store, get_store]
  cases last : lastWrite writes place with
  | none =>
      have absent := lastWrite_eq_none_iff.mp last
      rw [lastWrite_eq_none_iff.mpr fun value mem => absent value ((same _).mpr mem)]
  | some value =>
      have mem := mem_of_lastWrite last
      rw [lastWrite_eq_some ((same _).mp mem) fun other mem' =>
        single place other value ((same _).mpr mem') mem]

theorem cells_eq_map (region : Region) (within : region.Within n)
    (data : Grid α region.count (region.width n)) :
    cells region within data =
      ((List.finRange region.count).product (List.finRange (region.width n))).map fun place =>
        (region.rowAt within place.1, region.colAt within place.2,
          data.entry place.1 place.2) := by
  simp only [cells, List.product, List.map_flatMap, List.map_map, Function.comp_def]

section Rows

variable {start count : Nat} (within : (Region.rows start count).Within n)
  (data : Grid α (Region.rows start count).count ((Region.rows start count).width n))

theorem cellFrom?_eq (table : Table α n) (i : Fin (Region.rows start count).count) (col : Fin n) :
    Grid.cellFrom? data.toArray start n ((Region.rows start count).rowAt within i) col =
      some (data.entry i col) := by
  have above : Word.sub? ((Region.rows start count).rowAt within i) start = some (i : Nat) := by
    rw [Word.sub?_eq_some_iff]
    rfl
  rw [Grid.cellFrom?, above]
  exact data.cell?_toArray (Region.size_lt table.fits within) i col

def reflectedWrites (table : Table α n) : List (Fin (Packing.triangular n) × α) :=
  ((List.finRange (Region.rows start count).count).product (List.finRange n)).filterMap
    fun (i, col) =>
      if table.triangle.Holds ((Region.rows start count).rowAt within i) col ∨
        (Region.rows start count).Covers col ((Region.rows start count).rowAt within i) then none
      else (table.home ((Region.rows start count).rowAt within i) col).map fun place =>
        (place, data.entry i col)

theorem commitWrites_rows (table : Table α n) :
    table.commitWrites (.rows start count) within data =
      reflectedWrites within data table ++
        rowWrites table.triangle (List.finRange (Region.rows start count).count)
          ((Region.rows start count).rowAt within) data.entry := by
  simp only [commitWrites, cells_eq_map, List.filterMap_map]
  refine congrArg₂ (· ++ ·) rfl ?_
  simp only [List.product, List.filterMap_flatMap, List.filterMap_map, rowWrites]
  rfl

theorem reflectedWrites_eq_nil (table : Table α n) (triangular : table.fill ≠ .symmetric) :
    reflectedWrites within data table = [] := by
  apply List.filterMap_eq_nil_iff.mpr
  rintro ⟨i, col⟩ _
  simp only
  split
  · rfl
  · rename_i alone
    rw [home, Packing.home_of_not_holds (not_or.mp alone).1, if_neg triangular, Option.map_none]

theorem reflectRows?_flat (table : Table α n) {value? : Nat → Nat → Option α}
    (known : ∀ (i : Fin (Region.rows start count).count) (col : Fin n),
      value? ((Region.rows start count).rowAt within i) col = some (data.entry i col)) :
    table.flat.reflectRows? (List.range' start count) value? =
      some (table.withWrites (reflectedWrites within data table)).flat := by
  unfold FlatTable.reflectRows?
  rw [flat_fill]
  by_cases symmetric : table.fill = .symmetric
  · have places : (List.range' start count).product (List.range n) =
        ((List.finRange (Region.rows start count).count).product (List.finRange n)).map fun place =>
          (((Region.rows start count).rowAt within place.1 : Nat), (place.2 : Nat)) := by
      have rows : List.range' start count = _ := range'_eq_map (.rows start count) within
      rw [rows, ← List.map_coe_finRange_eq_range]
      simp only [List.product, List.flatMap_map, List.map_flatMap, List.map_map,
        Function.comp_def]
    rw [if_pos symmetric, flat_dim, places, List.foldlM_map]
    apply foldlM_flat_filterMap
    rintro ⟨i, col⟩ _ held fill triangle
    have covers : (col : Nat) ∈ List.range' start count ↔
        (Region.rows start count).Covers col ((Region.rows start count).rowAt within i) :=
      List.mem_range'_1.trans (and_iff_left trivial).symm
    simp only [flat_triangle, triangle, covers]
    by_cases kept : table.triangle.Holds ((Region.rows start count).rowAt within i) col ∨
        (Region.rows start count).Covers col ((Region.rows start count).rowAt within i)
    · rw [if_pos kept, if_pos kept]
      rfl
    · have outside := (not_or.mp kept).1
      have inside : held.triangle.Holds col ((Region.rows start count).rowAt within i) := by
        rw [triangle]
        exact Triangle.holds_transpose outside
      have written := held.write?_flat inside (data.entry i col)
      rw [if_neg kept, if_neg kept, known i col, home, Packing.home_of_not_holds outside,
        if_pos symmetric]
      simp only [triangle] at written
      exact written
  · rw [if_neg symmetric, reflectedWrites_eq_nil within data table symmetric]
    rfl

theorem commitRows?_flat (table : Table α n) :
    table.flat.commitRows? start count data.toArray =
      some (table.commit (.rows start count) within data).flat := by
  have rows : List.range' start count = _ := range'_eq_map (.rows start count) within
  have known := cellFrom?_eq within data table
  have reflected := reflectRows?_flat within data table known
  have filled := (table.withWrites (reflectedWrites within data table)).fillRows?_flat
    (List.finRange (Region.rows start count).count) ((Region.rows start count).rowAt within)
      fun i _ col _ => known i col
  have written : (table.withWrites (reflectedWrites within data table)).withWrites
      (rowWrites table.triangle (List.finRange (Region.rows start count).count)
        ((Region.rows start count).rowAt within) data.entry) = table.commit (.rows start count) within data := by
    rw [← withWrites_append, ← commitWrites_rows]
    rfl
  have span : Word.span? start count = some (List.range' start count) :=
    Word.span?_of_lt (Region.stop_lt table.fits within)
  unfold FlatTable.commitRows?
  rw [span, flat_dim]
  simp only [Option.bind_eq_bind, Option.bind_some]
  rw [reflected, Option.bind_some, rows, ← written]
  exact filled

end Rows

section Column

variable {own start count : Nat} (within : (Region.column own start count).Within n)
  (data : Grid α (Region.column own start count).count ((Region.column own start count).width n))

def columnWrites (table : Table α n) : List (Fin (Packing.triangular n) × α) :=
  (List.finRange (Region.column own start count).count).filterMap fun i =>
    (table.home ((Region.column own start count).rowAt within i)
      ⟨own, Region.own_lt within⟩).map fun place => (place, data.entry i (0 : Fin 1))

theorem mem_columnWrites {table : Table α n} {place : Fin (Packing.triangular n)} {value : α} :
    (place, value) ∈ columnWrites within data table ↔
      ∃ i, table.home ((Region.column own start count).rowAt within i)
          ⟨own, Region.own_lt within⟩ = some place ∧
        data.entry i (0 : Fin 1) = value := by
  simp [columnWrites]

/-- An entry of a column that is not stored has its reflection outside of it. -/
theorem mem_commitWrites_column {table : Table α n} {place : Fin (Packing.triangular n)}
    {value : α} :
    (place, value) ∈ table.commitWrites (.column own start count) within data ↔
      (place, value) ∈ columnWrites within data table := by
  rw [mem_columnWrites]
  constructor
  · intro mem
    obtain ⟨row, col, cell, homed⟩ := cell_of_mem_commitWrites mem
    obtain ⟨i, j, rfl, rfl, same⟩ := mem_cells.mp cell
    obtain rfl : j = (0 : Fin 1) := Fin.fin_one_eq_zero j
    exact ⟨i, homed, same⟩
  · rintro ⟨i, homed, rfl⟩
    have cell : ((Region.column own start count).rowAt within i, ⟨own, Region.own_lt within⟩,
        data.entry i (0 : Fin 1)) ∈ cells (.column own start count) within data :=
      mem_cells.mpr ⟨i, (0 : Fin 1), rfl, rfl, rfl⟩
    simp only [commitWrites, List.mem_append, List.mem_filterMap]
    by_cases inside : table.triangle.Holds ((Region.column own start count).rowAt within i) own
    · refine Or.inr ⟨_, cell, ?_⟩
      rw [home, Packing.home_of_holds inside, Option.some.injEq] at homed
      rw [dif_pos inside, homed]
    · refine Or.inl ⟨_, cell, ?_⟩
      have alone : ¬ (Region.column own start count).Covers own
          ((Region.column own start count).rowAt within i) := by
        rintro ⟨_, diagonal⟩
        simp only at diagonal
        rw [diagonal] at inside
        exact inside (Triangle.holds_diagonal _ _)
      rw [if_neg (not_or.mpr ⟨inside, alone⟩), homed]
      rfl

theorem columnWrites_single (table : Table α n) (place : Fin (Packing.triangular n))
    (value value' : α) (mem : (place, value) ∈ columnWrites within data table)
    (mem' : (place, value') ∈ columnWrites within data table) : value = value' := by
  obtain ⟨i, homed, rfl⟩ := (mem_columnWrites within data).mp mem
  obtain ⟨i', homed', rfl⟩ := (mem_columnWrites within data).mp mem'
  rw [Region.rowAt_inj.mp (Packing.home_column_inj homed homed')]

theorem commitColumn?_flat (table : Table α n) :
    table.flat.commitColumn? own start count data.toArray =
      some (table.commit (.column own start count) within data).flat := by
  have span : Word.span? start count = some (List.range' start count) :=
    Word.span?_of_lt (Region.stop_lt table.fits within)
  have rows : List.range' start count = _ := range'_eq_map (.column own start count) within
  have values : data.toArray.toList =
      (List.finRange (Region.column own start count).count).map fun i =>
        data.entry i (0 : Fin 1) :=
    (congrArg Vector.toList data.ofFn_entry.symm).trans (Grid.toList_ofFn_one data.entry)
  have committed : table.commit (.column own start count) within data =
      table.withWrites (columnWrites within data table) := by
    have same := store_congr table.entries
      (fun _ => (mem_commitWrites_column within data).symm) (columnWrites_single within data table)
    rw [withWrites, same]
    rfl
  unfold FlatTable.commitColumn?
  rw [span, Option.bind_eq_bind, Option.bind_some, rows, values, List.zip_map', List.foldlM_map,
    committed]
  apply foldlM_flat_filterMap
  intro i _ held fill triangle
  simp only [flat_triangle, flat_fill, triangle, fill]
  by_cases inside : table.triangle.Holds ((Region.column own start count).rowAt within i) own
  · have inside' : held.triangle.Holds ((Region.column own start count).rowAt within i)
        (⟨own, Region.own_lt within⟩ : Fin n) := triangle ▸ inside
    have written := held.write?_flat inside' (data.entry i (0 : Fin 1))
    simp only [triangle] at written
    rw [if_pos inside, home, Packing.home_of_holds inside]
    exact written
  · rw [if_neg inside, home, Packing.home_of_not_holds inside]
    by_cases symmetric : table.fill = .symmetric
    · have inside' : held.triangle.Holds (⟨own, Region.own_lt within⟩ : Fin n)
          ((Region.column own start count).rowAt within i) := by
        rw [triangle]
        exact Triangle.holds_transpose inside
      have written := held.write?_flat inside' (data.entry i (0 : Fin 1))
      simp only [triangle] at written
      rw [if_pos symmetric, if_pos symmetric]
      exact written
    · rw [if_neg symmetric, if_neg symmetric]
      rfl

end Column

/-! ## Taking back -/

theorem commit?_flat (table : Table α n) (region : Region) (within : region.Within n)
    (data : Grid α region.count (region.width n)) :
    table.flat.commit? region data.toArray = some (table.commit region within data).flat := by
  cases region with
  | rows start count => exact commitRows?_flat within data table
  | column own start count => exact commitColumn?_flat within data table

/-- What a flat table makes of a view that fits the region it is said to be of,
if it holds the ticket for that region. -/
theorem release?_flat (table : Table α n) (region : Region) (view : View α)
    (fits : (table.ledger.close view.ticket region).2 = .ok () → view.Fits region n) :
    ∃ after outcome, table.release region view = .ok (after, outcome) ∧
      table.flat.release? region view.flat = some (after.flat, outcome) := by
  have closing := Ledger.close?_eq table.ledger view.ticket region
  unfold FlatTable.release? release
  rw [flat_ledger, show view.flat.ticket = view.ticket from rfl, closing]
  rcases closed : table.ledger.close view.ticket region with ⟨ledger, ⟨cause⟩ | ⟨⟨⟩⟩⟩
  · exact ⟨_, _, rfl, rfl⟩
  · rw [closed] at fits
    have shape : region.Within n ∧ view.rows = region.count ∧ view.cols = region.width n :=
      fits rfl
    simp only [Option.bind_eq_bind, Option.bind_some,
      show view.flat.access = view.access from rfl]
    cases view.access.writes with
    | false => exact ⟨_, _, rfl, rfl⟩
    | true =>
        have committed := commit?_flat { table with ledger } region shape.1
          (view.data.cast (by rw [shape.2.1, shape.2.2]))
        rw [if_pos rfl, if_pos rfl, dif_pos shape]
        refine ⟨_, _, rfl, ?_⟩
        exact congrArg (Option.bind · fun committed : FlatTable α =>
          some (committed, (Except.ok () : Except TableError Unit))) committed

theorem discard?_flat (table : Table α n) (view : View α) :
    table.flat.discard? view.flat =
      some ((table.discard view).1.flat, (table.discard view).2) := by
  have closed := Ledger.close?_eq table.ledger view.ticket view.region
  unfold FlatTable.discard? discard
  rw [flat_ledger, show view.flat.ticket = view.ticket from rfl,
    show view.flat.region = view.region from rfl, closed]
  rcases table.ledger.close view.ticket view.region with ⟨ledger, ⟨cause⟩ | ⟨⟨⟩⟩⟩ <;> rfl

end Table

end HalfMatrix
