import HalfMatrix.Proofs.Handovers

/-!
# Regions conflict exactly if they share an entry

The tests by which a table compares regions look at starts, counts and columns
only.  Of regions that lie inside the table they report every shared entry and
no other: behind each test that succeeds stands an entry of the one region that
is an entry of the other, or on a symmetric table the transpose of one.  A
request is therefore refused exactly if it shares an entry with a region that
is lent, and the one or the other is for writing.
-/

set_option autoImplicit false

namespace HalfMatrix

namespace Region

def Share (n : Nat) (left right : Region) : Prop :=
  ∃ row col : Fin n, left.Covers row col ∧ right.Covers row col

def ShareReflected (n : Nat) (left right : Region) : Prop :=
  ∃ row col : Fin n, left.Covers row col ∧ (right.Covers row col ∨ right.Covers col row)

instance (n : Nat) (left right : Region) : Decidable (Share n left right) :=
  inferInstanceAs (Decidable (∃ _ _ : Fin n, _ ∧ _))

instance (n : Nat) (left right : Region) : Decidable (ShareReflected n left right) :=
  inferInstanceAs (Decidable (∃ _ _ : Fin n, _ ∧ (_ ∨ _)))

theorem covers_rows {start count row : Nat} (col : Nat) (has : (rows start count).HasRow row) :
    (rows start count).Covers row col :=
  ⟨has, trivial⟩

theorem covers_column {col start count row : Nat} (has : (column col start count).HasRow row) :
    (column col start count).Covers row col :=
  ⟨has, rfl⟩

theorem HasRow.lt {region : Region} {n row : Nat} (has : region.HasRow row)
    (within : region.Within n) : row < n := by
  cases region <;> simp only [HasRow, Within, start, count] at has within <;> omega

theorem hasRow_start {region : Region} (full : ¬ region.IsEmpty) : region.HasRow region.start := by
  simp only [HasRow, IsEmpty] at *
  omega

/-- Of two blocks of rows that meet the later start is a row of both. -/
theorem RowsMeet.exists_row {left right : Region} (meet : left.RowsMeet right)
    (full : ¬ left.IsEmpty) (full' : ¬ right.IsEmpty) :
    ∃ row, left.HasRow row ∧ right.HasRow row := by
  refine ⟨max left.start right.start, ?_⟩
  simp only [RowsMeet, IsEmpty, HasRow] at *
  omega

theorem share_of_meets {n : Nat} {left right : Region} (within : left.Within n)
    (within' : right.Within n) (meet : left.meets right = true) : Share n left right := by
  simp only [meets, Bool.and_eq_true, Bool.not_eq_true', decide_eq_false_iff_not] at meet
  obtain ⟨⟨full, full'⟩, meet⟩ := meet
  cases left with
  | rows start count =>
      cases right with
      | rows start' count' =>
          obtain ⟨row, has, has'⟩ := (of_decide_eq_true meet).exists_row full full'
          have bound := has.lt within
          exact ⟨⟨row, bound⟩, ⟨row, bound⟩, covers_rows _ has, covers_rows _ has'⟩
      | column own' start' count' =>
          obtain ⟨row, has, has'⟩ := (of_decide_eq_true meet).exists_row full full'
          exact ⟨⟨row, has.lt within⟩, ⟨own', within'.1⟩, covers_rows _ has, covers_column has'⟩
  | column own start count =>
      cases right with
      | rows start' count' =>
          obtain ⟨row, has, has'⟩ := (of_decide_eq_true meet).exists_row full full'
          exact ⟨⟨row, has.lt within⟩, ⟨own, within.1⟩, covers_column has, covers_rows _ has'⟩
      | column own' start' count' =>
          simp only [Bool.and_eq_true, beq_iff_eq, decide_eq_true_eq] at meet
          obtain ⟨rfl, meet⟩ := meet
          obtain ⟨row, has, has'⟩ := meet.exists_row full full'
          exact ⟨⟨row, has.lt within⟩, ⟨own, within.1⟩, covers_column has, covers_column has'⟩

theorem meets_iff_share {n : Nat} {left right : Region} (within : left.Within n)
    (within' : right.Within n) : left.meets right = true ↔ Share n left right := by
  constructor
  · exact share_of_meets within within'
  · rintro ⟨row, col, covers, covers'⟩
    exact meets_of_covers covers covers'

theorem Share.reflected {n : Nat} {left right : Region} (share : Share n left right) :
    ShareReflected n left right := by
  obtain ⟨row, col, covers, covers'⟩ := share
  exact ⟨row, col, covers, Or.inl covers'⟩

theorem shareReflected_of_meetsReflected {n : Nat} {left right : Region} (within : left.Within n)
    (within' : right.Within n) (meet : left.meetsReflected right = true) :
    ShareReflected n left right := by
  simp only [meetsReflected, Bool.and_eq_true, Bool.or_eq_true, Bool.not_eq_true',
    decide_eq_false_iff_not] at meet
  obtain ⟨⟨full, full'⟩, direct | crossed⟩ := meet
  · exact (share_of_meets within within' direct).reflected
  · -- an entry of `left` whose row `right` has as a column, and the other way round
    have first := hasRow_start full
    have first' := hasRow_start full'
    cases left with
    | rows start count =>
        cases right with
        | rows start' count' =>
            exact ⟨⟨_, first.lt within⟩, ⟨_, first'.lt within'⟩, covers_rows _ first,
              Or.inr (covers_rows _ first')⟩
        | column own' start' count' =>
            have has : (rows start count).HasRow own' := of_decide_eq_true crossed
            exact ⟨⟨own', within'.1⟩, ⟨_, first'.lt within'⟩, covers_rows _ has,
              Or.inr (covers_column first')⟩
    | column own start count =>
        cases right with
        | rows start' count' =>
            have has' : (rows start' count').HasRow own := of_decide_eq_true crossed
            exact ⟨⟨_, first.lt within⟩, ⟨own, within.1⟩, covers_column first,
              Or.inr (covers_rows _ has')⟩
        | column own' start' count' =>
            simp only [Bool.and_eq_true, decide_eq_true_eq] at crossed
            obtain ⟨has, has'⟩ := crossed
            exact ⟨⟨own', within'.1⟩, ⟨own, within.1⟩, covers_column has,
              Or.inr (covers_column has')⟩

theorem meetsReflected_iff_share {n : Nat} {left right : Region} (within : left.Within n)
    (within' : right.Within n) :
    left.meetsReflected right = true ↔ ShareReflected n left right := by
  constructor
  · exact shareReflected_of_meetsReflected within within'
  · rintro ⟨row, col, covers, covers' | covers'⟩
    · exact meetsReflected_of_covers covers covers'
    · exact meetsReflected_of_transpose covers covers'

/-- The tests by which a table of dimension `n` compares the regions are exact. -/
structure ComparedExactly (n : Nat) (left right : Region) : Prop where
  meets : left.meets right = true ↔ Share n left right
  meetsReflected : left.meetsReflected right = true ↔ ShareReflected n left right
  comm : left.meets right = right.meets left
  reflected_comm : left.meetsReflected right = right.meetsReflected left

theorem comparedExactly {n : Nat} {left right : Region} (within : left.Within n)
    (within' : right.Within n) : ComparedExactly n left right where
  meets := meets_iff_share within within'
  meetsReflected := meetsReflected_iff_share within within'
  comm := meets_comm left right
  reflected_comm := meetsReflected_comm left right

end Region

namespace Table

variable {α : Type} {n : Nat}

/-- The uses of two regions of the table exclude each other: one of them is for
writing, and the regions share an entry, for which its transpose counts too if
the table is symmetric. -/
def Contests (table : Table α n) (left : Region) (access : Access) (right : Region)
    (access' : Access) : Prop :=
  ¬ (access = .readOnly ∧ access' = .readOnly) ∧
    ∃ row col : Fin n, left.Covers row col ∧
      (right.Covers row col ∨ table.fill = .symmetric ∧ right.Covers col row)

instance (table : Table α n) (left : Region) (access : Access) (right : Region)
    (access' : Access) : Decidable (table.Contests left access right access') :=
  inferInstanceAs (Decidable (¬ (_ ∧ _) ∧ ∃ _ _ : Fin n, _ ∧ (_ ∨ _ ∧ _)))

theorem Contests.symm {table : Table α n} {left right : Region} {access access' : Access}
    (contests : table.Contests left access right access') :
    table.Contests right access' left access := by
  obtain ⟨writable, row, col, covers, covers' | ⟨symmetric, covers'⟩⟩ := contests
  · exact ⟨fun both => writable both.symm, row, col, covers', Or.inl covers⟩
  · exact ⟨fun both => writable both.symm, col, row, covers', Or.inr ⟨symmetric, covers⟩⟩

theorem clear_iff {table : Table α n} {left right : Lease} (within : left.region.Within n)
    (within' : right.region.Within n) :
    left.Clear table.isSymmetric right ↔
      ¬ table.Contests left.region left.access right.region right.access := by
  have shared : (if table.isSymmetric then left.region.meetsReflected right.region
      else left.region.meets right.region) = true ↔
      ∃ row col : Fin n, left.region.Covers row col ∧
        (right.region.Covers row col ∨ table.fill = .symmetric ∧ right.region.Covers col row) := by
    cases filled : table.fill with
    | symmetric =>
        rw [if_pos (by simp [isSymmetric, filled]), Region.meetsReflected_iff_share within within']
        simp [Region.ShareReflected]
    | triangular =>
        rw [if_neg (by simp [isSymmetric, filled]), Region.meets_iff_share within within']
        simp [Region.Share]
  have writable : (!(left.access == .readOnly && right.access == .readOnly)) = true ↔
      ¬ (left.access = .readOnly ∧ right.access = .readOnly) := by
    rw [Bool.not_eq_true', ← Bool.not_eq_true, Bool.and_eq_true, beq_iff_eq, beq_iff_eq]
  unfold Lease.Clear Lease.conflicts Contests
  rw [← Bool.not_eq_true, Bool.and_eq_true, shared, writable, and_comm]

/-- The table lends the region exactly if no use of it is excluded by a lease. -/
theorem exists_acquire_iff [Zero α] {table : Table α n} (orderly : table.Orderly) (region : Region)
    (access : Access) (ticket : Ticket) :
    (∃ lent, table.acquire region access ticket = .ok lent) ↔
      region.Within n ∧ ∀ held ∈ table.ledger.leases,
        ¬ table.Contests held.region held.access region access := by
  constructor
  · rintro ⟨⟨view, after⟩, granted⟩
    obtain ⟨within, clear, _, _⟩ := acquire_eq_ok_iff.mp granted
    refine ⟨within, ?_⟩
    intro held mem
    exact (clear_iff (orderly.within held mem) within).mp (clear held mem)
  · rintro ⟨within, free⟩
    refine ⟨_, acquire_eq_ok_iff.mpr ⟨within, ?_, rfl, rfl⟩⟩
    intro held mem
    exact (clear_iff (orderly.within held mem) within).mpr (free held mem)

theorem acquire_eq_error [Zero α] {table : Table α n} {region : Region} {access : Access}
    {ticket : Ticket} {error : TableError} (within : region.Within n)
    (refused : table.acquire region access ticket = .error error) :
    error = .viewMisuse .overlap := by
  unfold acquire Ledger.grant at refused
  rw [dif_pos within] at refused
  split at refused
  · rename_i cause denied
    split at denied
    · rw [← Except.error.inj denied] at refused
      exact (Except.error.inj refused).symm
    · cases denied
  · cases refused

end Table

end HalfMatrix
