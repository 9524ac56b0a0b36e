import HalfMatrix.Proofs.Decimals.Equality
import HalfMatrix.Proofs.Documents.Scanning

/-!
# Numbers shown to a reader

The text of a finite number is scanned into its spelling, which is rounded to
the number again, and no other number has a text that can be scanned.  So two
words have one text exactly if they are the same or neither is a number.  Nor is
there a blank, a bracket or a line break in the text of a number.
-/

set_option autoImplicit false

namespace HalfMatrix

def Binary.ShownAlike {precision : Precision} (left right : Binary precision) : Prop :=
  left = right ∨ (left.isNaN = true ∧ right.isNaN = true)

instance {precision : Precision} : DecidableRel (@Binary.ShownAlike precision) :=
  fun _ _ => inferInstanceAs (Decidable (_ ∨ _))

namespace Decimal

variable {precision : Precision} {number left right : Binary precision}

/-! ## Texts of numbers -/

theorem Layout.readable_shown (precision : Precision) : Layout.shown.Readable precision := by
  constructor <;> cases precision <;> decide

theorem shown_of_isFinite (finite : number.isFinite) :
    shown number = (Spelling.ofBinary .shown number).text := by
  simp only [shown, Binary.isNaN_of_isFinite finite, Binary.not_isInfinite_of_isFinite finite,
    Bool.false_eq_true, if_false]

theorem shown_of_isNaN (nan : number.isNaN) : shown number = "NaN".toList := by
  rw [shown, if_pos nan]

theorem shown_of_isInfinite (infinite : number.isInfinite) :
    shown number = (if number.isNegative then "-inf" else "inf").toList := by
  simp only [shown, Binary.isNaN_of_isInfinite infinite, Bool.false_eq_true, if_false,
    if_pos infinite]

theorem scan_shown (finite : number.isFinite) :
    Json.Number.scan (shown number) = .ok (Spelling.ofBinary .shown number, []) := by
  have ends : Json.Number.Ends [] := nofun
  have scanned := Json.Number.scan_append (.inl rfl)
    (Spelling.wellFormed_ofBinary .shown finite) ends
  rwa [List.append_nil, ← Json.Number.text_eq_spelled, ← shown_of_isFinite finite] at scanned

theorem scan_shown_of_not_isFinite (other : number.isFinite = false) :
    Json.Number.scan (shown number) = .error .malformed := by
  obtain infinite | nan := Binary.isInfinite_or_isNaN other
  · rw [shown_of_isInfinite infinite]
    split <;> rfl
  · rw [shown_of_isNaN nan]
    rfl

theorem eq_of_shown_of_isFinite (finite : left.isFinite) (finite' : right.isFinite)
    (same : shown left = shown right) : left = right := by
  have scanned := scan_shown finite
  rw [same, scan_shown finite'] at scanned
  have spelling : Spelling.ofBinary .shown right = Spelling.ofBinary .shown left :=
    congrArg Prod.fst (Except.ok.inj scanned)
  have readable := Layout.readable_shown precision
  rw [← round_ofBinary readable finite, ← round_ofBinary readable finite', spelling]

theorem shown_ne_of_isInfinite_of_isNaN (infinite : left.isInfinite) (nan : right.isNaN) :
    shown left ≠ shown right := by
  rw [shown_of_isInfinite infinite, shown_of_isNaN nan]
  split <;> decide

theorem eq_of_shown_of_isInfinite (infinite : left.isInfinite) (infinite' : right.isInfinite)
    (same : shown left = shown right) : left = right := by
  have texts : "-inf".toList ≠ "inf".toList := by decide
  rw [shown_of_isInfinite infinite, shown_of_isInfinite infinite'] at same
  have sign : left.isNegative = right.isNegative := by
    cases sign : left.isNegative <;> cases sign' : right.isNegative <;>
      simp only [sign, sign', Bool.false_eq_true, if_true, if_false] at same ⊢
    · exact absurd same.symm texts
    · exact absurd same texts
  exact Binary.eq_of_sign_of_magnitude sign
    ((Binary.magnitude_of_isInfinite infinite).trans
      (Binary.magnitude_of_isInfinite infinite').symm)

theorem shownAlike_of_shown_of_not_isFinite (other : left.isFinite = false)
    (other' : right.isFinite = false) (same : shown left = shown right) :
    left.ShownAlike right := by
  obtain infinite | nan := Binary.isInfinite_or_isNaN other
  · obtain infinite' | nan' := Binary.isInfinite_or_isNaN other'
    · exact Or.inl (eq_of_shown_of_isInfinite infinite infinite' same)
    · exact absurd same (shown_ne_of_isInfinite_of_isNaN infinite nan')
  · obtain infinite' | nan' := Binary.isInfinite_or_isNaN other'
    · exact absurd same.symm (shown_ne_of_isInfinite_of_isNaN infinite' nan)
    · exact Or.inr ⟨nan, nan'⟩

/-- The text of a number tells it from all other numbers. -/
theorem shown_eq_shown_iff : shown left = shown right ↔ left.ShownAlike right := by
  constructor
  · intro same
    cases finite : left.isFinite with
    | true =>
        cases finite' : right.isFinite with
        | true => exact Or.inl (eq_of_shown_of_isFinite finite finite' same)
        | false =>
            have scanned := scan_shown finite
            rw [same, scan_shown_of_not_isFinite finite'] at scanned
            cases scanned
    | false =>
        cases finite' : right.isFinite with
        | true =>
            have scanned := scan_shown finite'
            rw [← same, scan_shown_of_not_isFinite finite] at scanned
            cases scanned
        | false => exact shownAlike_of_shown_of_not_isFinite finite finite' same
  · rintro (rfl | ⟨nan, nan'⟩)
    · rfl
    · rw [shown_of_isNaN nan, shown_of_isNaN nan']

/-! ## Characters of the texts -/

theorem Spelling.isDigit_or_mem_of_mem_text {spelling : Spelling}
    (wellFormed : spelling.WellFormed) {char : Char} (mem : char ∈ spelling.text) :
    char.isDigit ∨ char ∈ ['-', '+', '.', 'e'] := by
  obtain ⟨negative, whole, places, power⟩ := spelling
  simp only [text, List.mem_append] at mem
  obtain ((sign | digit) | place) | scale := mem
  · split at sign
    · obtain rfl := List.mem_singleton.mp sign
      exact Or.inr (by decide)
    · cases sign
  · exact Or.inl (wellFormed.whole_isDigit char digit)
  · split at place
    · cases place
    · obtain rfl | digit := List.mem_cons.mp place
      · exact Or.inr (by decide)
      · exact Or.inl (wellFormed.places_isDigit char digit)
  · cases power with
    | none => cases scale
    | some power =>
        simp only [Power.text, List.cons_append, List.mem_cons, List.mem_append] at scale
        obtain rfl | mark | digit := scale
        · exact Or.inr (by decide)
        · cases spelled : power.mark <;> rw [spelled] at mark
          · cases mark
          · obtain rfl := List.mem_singleton.mp mark
            exact Or.inr (by decide)
          · obtain rfl := List.mem_singleton.mp mark
            exact Or.inr (by decide)
        · exact Or.inl (wellFormed.power_isDigit power rfl char digit)

theorem not_mem_shown (number : Binary precision) :
    ∀ delimiter ∈ [' ', '[', ']', '\n'], delimiter ∉ shown number := by
  intro delimiter separates mem
  cases finite : number.isFinite with
  | true =>
      have others : ∀ delimiter ∈ [' ', '[', ']', '\n'],
          ¬ (delimiter.isDigit ∨ delimiter ∈ ['-', '+', '.', 'e']) := by
        simp only [List.forall_mem_cons, List.not_mem_nil, false_imp_iff, implies_true, and_true]
        decide
      rw [shown_of_isFinite finite] at mem
      exact others delimiter separates (Spelling.isDigit_or_mem_of_mem_text
        (Spelling.wellFormed_ofBinary .shown finite) mem)
  | false =>
      have others : ∀ delimiter ∈ [' ', '[', ']', '\n'],
          delimiter ∉ "NaN".toList ∧ delimiter ∉ "-inf".toList ∧ delimiter ∉ "inf".toList := by
        simp only [List.forall_mem_cons, List.not_mem_nil, false_imp_iff, implies_true, and_true]
        decide
      obtain ⟨noNaN, noNegative, noPositive⟩ := others delimiter separates
      obtain infinite | nan := Binary.isInfinite_or_isNaN finite
      · rw [shown_of_isInfinite infinite] at mem
        split at mem
        · exact noNegative mem
        · exact noPositive mem
      · rw [shown_of_isNaN nan] at mem
        exact noNaN mem

end Decimal

end HalfMatrix
