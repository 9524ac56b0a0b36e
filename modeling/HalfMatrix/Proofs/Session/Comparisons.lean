import HalfMatrix.Proofs.Decimals.Equality
import HalfMatrix.Proofs.Session.Relayouts

/-!
# Comparing tables

Tables are compared by their packed values.  Tables in one triangle are equal
exactly if they show the same numbers: every packed value is shown, and what is
shown besides is zero or shown a second time.  Symmetric tables in different
triangles are compared by laying one of them out as the other, and it does not
matter which.
-/

set_option autoImplicit false

namespace HalfMatrix

namespace Binary

variable {precision : Precision}

instance : DecidableRel (@SameNumber precision) := fun left right =>
  decidable_of_iff (left.equals right = true) equals_iff

theorem sameNumber_zero : SameNumber (0 : Binary precision) 0 := by
  cases precision <;> decide

end Binary

open Binary (SameNumber)

/-! ## Tables -/

namespace Table

variable {precision : Precision} {n m : Nat}

/-- The tables have one dimension and show one number in each entry. -/
def SameMatrix (left : Table (Binary precision) n) (right : Table (Binary precision) m) : Prop :=
  left.Corresponds SameNumber right

instance (left : Table (Binary precision) n) (right : Table (Binary precision) m) :
    Decidable (left.SameMatrix right) :=
  inferInstanceAs (Decidable (left.Corresponds SameNumber right))

theorem sameMatrix_iff {left right : Table (Binary precision) n} :
    left.SameMatrix right ↔
      ∀ row col : Fin n, SameNumber (left.entry row col) (right.entry row col) :=
  corresponds_iff

theorem sameMatrix_comm {left : Table (Binary precision) n} {right : Table (Binary precision) m} :
    left.SameMatrix right ↔ right.SameMatrix left := by
  constructor
  all_goals
    rintro ⟨rfl, numbers⟩
    exact ⟨rfl, fun row col => (numbers row col).symm⟩

theorem sameMatrix_toTriangle {left : Table (Binary precision) n}
    {right : Table (Binary precision) m} (symmetric : right.fill = .symmetric)
    (target : Triangle) : left.SameMatrix (right.toTriangle target) ↔ left.SameMatrix right := by
  simp only [SameMatrix, Corresponds, entry_toGrid, entry_toTriangle symmetric]

theorem sameMatrix_of_holds {left right : Table (Binary precision) n}
    (fill : left.fill = right.fill) (triangle : left.triangle = right.triangle)
    (stored : ∀ row col : Fin n, left.triangle.Holds row col →
      SameNumber (left.entry row col) (right.entry row col)) : left.SameMatrix right := by
  rw [sameMatrix_iff]
  intro row col
  by_cases inside : left.triangle.Holds row col
  · exact stored row col inside
  · have outside : ¬ right.triangle.Holds row col := triangle ▸ inside
    rw [entry_of_not_holds inside, entry_of_not_holds outside, ← fill]
    cases left.fill with
    | triangular => exact Binary.sameNumber_zero
    | symmetric => exact stored col row (Triangle.holds_transpose inside)

theorem entry_eq_get_of_triangle {left right : Table (Binary precision) n}
    (triangle : left.triangle = right.triangle) {row col : Fin n}
    (inside : left.triangle.Holds row col) :
    right.entry row col = right.entries.get (Packing.slot left.triangle row col inside) := by
  have inside' : right.triangle.Holds row col := triangle ▸ inside
  have place : Packing.slot right.triangle row col inside' =
      Packing.slot left.triangle row col inside := by
    congr 1
    exact triangle.symm
  rw [entry_of_holds inside', place]

/-- What is compared is the triangle that is stored and the matrix that is shown. -/
theorem agrees_iff {left right : Table (Binary precision) n} (fill : left.fill = right.fill) :
    left.agrees Binary.equals right = true ↔
      left.triangle = right.triangle ∧ left.SameMatrix right := by
  rw [agrees, Bool.and_eq_true, beq_iff_eq, Vector.isEqv_iff_rel]
  refine and_congr_right fun triangle => ?_
  constructor
  · intro agree
    refine sameMatrix_of_holds fill triangle fun row col inside => ?_
    rw [entry_of_holds inside, entry_eq_get_of_triangle triangle inside]
    exact Binary.equals_iff.mp (agree _ (Packing.slot left.triangle row col inside).isLt)
  · intro matrix position bound
    obtain ⟨row, col, inside, place⟩ := Packing.exists_slot left.triangle ⟨position, bound⟩
    have shown := sameMatrix_iff.mp matrix row col
    rw [entry_of_holds inside, entry_eq_get_of_triangle triangle inside, place] at shown
    exact Binary.equals_iff.mpr shown

end Table

namespace SomeTable

variable {precision : Precision} {n m : Nat}

theorem agrees?_eq {left : Table (Binary precision) n} {right : Table (Binary precision) m}
    (fill : left.fill = right.fill) :
    ∃ outcome, agrees? ⟨precision, n, left⟩ ⟨precision, m, right⟩ = some outcome ∧
      (outcome = true ↔ left.triangle = right.triangle ∧ left.SameMatrix right) := by
  by_cases dim : m = n
  · subst dim
    refine ⟨left.agrees Binary.equals right, ?_, Table.agrees_iff fill⟩
    simp only [agrees?, dif_pos, if_pos fill]
  · refine ⟨false, ?_, ?_⟩
    · simp only [agrees?, dif_pos, if_pos fill, dif_neg dim]
    · refine iff_of_false Bool.false_ne_true ?_
      rintro ⟨_, same, _⟩
      exact dim same.symm

end SomeTable

/-! ## In a session -/

namespace Session

variable {precision : Precision} {n m : Nat}

def AnswersEqual (session : Session) (name other : String) (equal : Prop) : Prop :=
  ∃ outcome : Bool, (session.step (.table name (.equals other))).1.answer = .ok (.equal outcome) ∧
    (session.step (.table name (.equals other))).2 = session ∧ (outcome = true ↔ equal)

/-- How a session compares the tables of these names. -/
structure ComparesMatrices (session : Session) (name other : String)
    (left : Table (Binary precision) n) (right : Table (Binary precision) m) : Prop where
  /-- Tables in one triangle are equal exactly if they show the same matrix.  Tables in
  different triangles are not equal. -/
  direct : session.AnswersEqual name other
    (left.triangle = right.triangle ∧ left.SameMatrix right)
  /-- A symmetric table equals another one that is laid out as it is itself exactly if they show
  the same matrix. -/
  relaid : left.fill = .symmetric → ∀ target, target ≠ name →
    (session.step (.table other (.toTriangle target left.triangle))).2.AnswersEqual name target
      (left.SameMatrix right)
  /-- It may as well be laid out as the other one is. -/
  relaid' : left.fill = .symmetric → ∀ target, target ≠ other →
    (session.step (.table name (.toTriangle target right.triangle))).2.AnswersEqual other target
      (left.SameMatrix right)

variable {session : Session} {name other : String} {left : Table (Binary precision) n}
  {right : Table (Binary precision) m}

theorem answersEqual_of_found (owned : session.tables.find? name = some ⟨precision, n, left⟩)
    (owned' : session.tables.find? other = some ⟨precision, m, right⟩)
    (fill : left.fill = right.fill) :
    session.AnswersEqual name other (left.triangle = right.triangle ∧ left.SameMatrix right) := by
  obtain ⟨outcome, compared, equal⟩ := SomeTable.agrees?_eq fill
  have stepped : session.step (.table name (.equals other)) =
      (SomeTable.reply ⟨precision, n, left⟩ (.ok (.equal outcome)), session) := by
    simp only [step_table owned, tableStep, find, owned', withFound, compared]
  refine ⟨outcome, ?_, ?_, equal⟩
  · rw [stepped]
    rfl
  · rw [stepped]

theorem tables_step_toTriangle {owner : SomeTable} (owned : session.tables.find? name = some owner)
    (target : String) (triangle : Triangle) :
    (session.step (.table name (.toTriangle target triangle))).2.tables =
      session.tables.insert target { owner with table := owner.table.toTriangle triangle } := by
  rw [step_table owned]
  rfl

/-- Once the second table is laid out as the first one is, only the matrices are compared. -/
theorem answersEqual_of_relaid (owned : session.tables.find? name = some ⟨precision, n, left⟩)
    (owned' : session.tables.find? other = some ⟨precision, m, right⟩)
    (symmetric : left.fill = .symmetric) (symmetric' : right.fill = .symmetric) {target : String}
    (apart : target ≠ name) :
    (session.step (.table other (.toTriangle target left.triangle))).2.AnswersEqual name target
      (left.SameMatrix right) := by
  have tables := tables_step_toTriangle owned' target left.triangle
  have kept : (session.step (.table other (.toTriangle target left.triangle))).2.tables.find? name =
      some ⟨precision, n, left⟩ := by
    rw [tables, Names.find?_insert, if_neg (Ne.symm apart), owned]
  have made : (session.step (.table other (.toTriangle target left.triangle))).2.tables.find?
      target = some ⟨precision, m, right.toTriangle left.triangle⟩ := by
    rw [tables, Names.find?_insert_name]
  have fill : left.fill = (right.toTriangle left.triangle).fill := by
    rw [Table.fill_toTriangle, symmetric, symmetric']
  have compared := answersEqual_of_found kept made fill
  rwa [Table.triangle_toTriangle, Table.sameMatrix_toTriangle symmetric', eq_self,
    true_and] at compared

/-- Tables are equal exactly if they are laid out alike and show the same matrix, and layouts
of symmetric tables can be made alike. -/
theorem equality_is_of_matrices (session : Session) {name other : String}
    {left : Table (Binary precision) n} {right : Table (Binary precision) m}
    (owned : session.tables.find? name = some ⟨precision, n, left⟩)
    (owned' : session.tables.find? other = some ⟨precision, m, right⟩)
    (fill : left.fill = right.fill) : session.ComparesMatrices name other left right where
  direct := answersEqual_of_found owned owned' fill
  relaid symmetric _ apart :=
    answersEqual_of_relaid owned owned' symmetric (fill.symm.trans symmetric) apart
  relaid' symmetric _ apart := by
    rw [Table.sameMatrix_comm]
    exact answersEqual_of_relaid owned' owned (fill.symm.trans symmetric) symmetric apart

theorem AnswersEqual.yes {equal : Prop} (answers : session.AnswersEqual name other equal)
    (holds : equal) :
    (session.step (.table name (.equals other))).1.answer = .ok (.equal true) := by
  obtain ⟨outcome, answer, _, exactly⟩ := answers
  rw [answer, exactly.mpr holds]

theorem AnswersEqual.no {equal : Prop} (answers : session.AnswersEqual name other equal)
    (fails : ¬ equal) :
    (session.step (.table name (.equals other))).1.answer = .ok (.equal false) := by
  obtain ⟨outcome, answer, _, exactly⟩ := answers
  rw [answer, Bool.eq_false_iff.mpr fun yes => fails (exactly.mp yes)]

theorem fits_belowZero : 2 * (2 + 1) < Word.modulus := by decide

def belowZero : Table (Binary .double) 2 where
  fill := .symmetric
  triangle := .lower
  entries := #v[.infinite false, .ofMagnitude true 0, .ofMagnitude false 1]
  ledger := ⟨[⟨1, .rows 0 1, .readWrite⟩]⟩
  fits := fits_belowZero

def aboveZero : Table (Binary .double) 2 where
  fill := .symmetric
  triangle := .upper
  entries := #v[.infinite false, .ofMagnitude false 0, .ofMagnitude false 1]
  ledger := .empty
  fits := fits_belowZero

def withZeros : Session :=
  (initial.putTable "t" ⟨.double, 2, belowZero⟩).putTable "u" ⟨.double, 2, aboveZero⟩

/-- The two zeros are equal once the tables are laid out alike, and a table that holds what is
not a number does not equal itself. -/
theorem zeros_are_equal_when_relaid :
    (withZeros.step (.table "t" (.equals "u"))).1.answer = .ok (.equal false) ∧
      ((withZeros.step (.table "u" (.toTriangle "w" .lower))).2.step
        (.table "t" (.equals "w"))).1.answer = .ok (.equal true) ∧
      ((initial.putTable "t" ⟨.double, 3, lowerNan⟩).step (.table "t" (.equals "t"))).1.answer =
        .ok (.equal false) := by
  have zeros : withZeros.ComparesMatrices "t" "u" belowZero aboveZero :=
    equality_is_of_matrices withZeros rfl rfl rfl
  have nan : (initial.putTable "t" ⟨.double, 3, lowerNan⟩).ComparesMatrices "t" "t" lowerNan
      lowerNan :=
    equality_is_of_matrices _ rfl rfl rfl
  refine ⟨zeros.direct.no ?_, (zeros.relaid rfl "w" (by decide)).yes ?_, nan.direct.no ?_⟩
  · decide
  · decide
  · decide

end Session

end HalfMatrix
