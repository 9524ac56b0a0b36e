import HalfMatrix.Json.Record
import HalfMatrix.Document.Triangle
import HalfMatrix.Proofs.Documents.Grammar

/-!
# Readers and whole values

A value that nobody asked for is skipped, whatever it is made of, and a reader
that meets a whole value gets just past it or refuses it.  In neither case is
the text found to end too early.
-/

set_option autoImplicit false

namespace HalfMatrix.Json

variable {awaiting : Awaiting} {opened : List Bracket} {lexemes rest : List Lexeme}

/-! ## Skipping -/

def Skips (value : List Lexeme) : Prop :=
  ∀ awaiting, awaiting = .value ∨ awaiting = .valueOrClose → ∀ opened rest,
    skip awaiting opened (value ++ rest) = skip .separator opened rest

theorem skips_scalar {lexeme : Lexeme} (scalar : lexeme.IsScalar) : Skips [lexeme] := by
  rintro awaiting here opened rest
  have noKey : ¬ (awaiting = .key ∨ awaiting = .keyOrClose) := by
    obtain rfl | rfl := here <;> simp
  unfold Lexeme.IsScalar at scalar
  split at scalar
  · obtain rfl | rfl := here <;> simp [skip]
  · obtain rfl | rfl := here <;> simp [skip]
  · obtain rfl | rfl := here <;> simp [skip]
  · obtain ⟨name, rfl⟩ | rfl := scalar
    · obtain rfl | rfl := here <;> simp [skip]
    · obtain rfl | rfl := here <;> simp [Lexeme.unpaired, skip]

theorem skip_followed_list {items : List (List Lexeme)} (each : ∀ item ∈ items, Skips item)
    (opened : List Bracket) (rest : List Lexeme) :
    skip .separator (.list :: opened) (followed .closeList items ++ rest) =
      skip .separator opened rest := by
  induction items with
  | nil => simp [followed, skip]
  | cons item items ih =>
      obtain ⟨first, later⟩ := List.forall_mem_cons.mp each
      simp only [followed, List.cons_append, List.append_assoc, skip]
      rw [first .value (.inl rfl), ih later]

theorem skip_key {key : Lexeme} (quoted : key.IsQuoted)
    (here : awaiting = .key ∨ awaiting = .keyOrClose) (opened : List Bracket)
    (rest : List Lexeme) :
    skip awaiting opened (key :: .token .colon :: rest) = skip .value opened rest := by
  obtain ⟨name, rfl⟩ | rfl := quoted
  · obtain rfl | rfl := here <;> simp [skip]
  · obtain rfl | rfl := here <;> simp [Lexeme.unpaired, skip]

theorem skip_followed_map {members : List (Lexeme × List Lexeme)}
    (keys : ∀ member ∈ members, member.1.IsQuoted) (each : ∀ member ∈ members, Skips member.2)
    (opened : List Bracket) (rest : List Lexeme) :
    skip .separator (.map :: opened)
        (followed .closeMap (members.map fun (key, value) => key :: .token .colon :: value) ++
          rest) = skip .separator opened rest := by
  induction members with
  | nil => simp [followed, skip]
  | cons member members ih =>
      obtain ⟨quoted, quotedLater⟩ := List.forall_mem_cons.mp keys
      obtain ⟨first, later⟩ := List.forall_mem_cons.mp each
      simp only [List.map_cons, followed, List.cons_append, List.append_assoc, skip]
      rw [skip_key quoted (.inl rfl), first .value (.inl rfl), ih quotedLater later]

/-- Every value is skipped, however deep it is nested. -/
theorem IsValue.skips {value : List Lexeme} (isValue : IsValue value) : Skips value := by
  induction isValue with
  | scalar scalar => exact skips_scalar scalar
  | @list items values ih =>
      intro awaiting here opened rest
      have entered : ∀ rest, skip awaiting opened (.token .openList :: rest) =
          skip .valueOrClose (.list :: opened) rest := by
        obtain rfl | rfl := here <;> simp [skip]
      cases items with
      | nil =>
          rw [listOf, enclosed, List.cons_append, entered]
          simp [skip]
      | cons item items =>
          obtain ⟨first, later⟩ := List.forall_mem_cons.mp ih
          rw [listOf, enclosed, List.cons_append, entered, List.append_assoc,
            first .valueOrClose (.inr rfl), skip_followed_list later]
  | @map members keys values ih =>
      intro awaiting here opened rest
      have entered : ∀ rest, skip awaiting opened (.token .openMap :: rest) =
          skip .keyOrClose (.map :: opened) rest := by
        obtain rfl | rfl := here <;> simp [skip]
      cases members with
      | nil =>
          rw [mapOf, List.map_nil, enclosed, List.cons_append, entered]
          simp [skip]
      | cons member members =>
          obtain ⟨quoted, quotedLater⟩ := List.forall_mem_cons.mp keys
          obtain ⟨first, later⟩ := List.forall_mem_cons.mp ih
          rw [mapOf, List.map_cons, enclosed, List.cons_append, entered, List.append_assoc,
            List.cons_append, List.cons_append, skip_key quoted (.inr rfl), first .value (.inl rfl),
            skip_followed_map quotedLater later]

theorem IsValue.skipValue {value : List Lexeme} (isValue : IsValue value) (rest : List Lexeme) :
    skipValue (value ++ rest) = .ok rest := by
  rw [Json.skipValue, isValue.skips .value (.inl rfl)]
  cases rest <;> rfl

/-! ## Reading -/

/-- What there is to read does not end in a quoted text that is taken for a whole one. -/
def Unbroken (lexemes : List Lexeme) : Prop :=
  ∀ lexeme ∈ lexemes, lexeme ≠ .flawed (.text .endOfText none)

theorem Presents.unbroken {chars : List Char} (presents : Presents lexemes chars) :
    Unbroken lexemes := by
  induction presents with
  | nil => exact List.forall_mem_nil _
  | cons blank spells later ih =>
      refine List.forall_mem_cons.mpr ⟨?_, ih⟩
      rintro rfl
      cases spells

/-- A value was read, after which the skipping would go on, or it was refused, and not
because the text ended. -/
inductive Settles {α : Type} (opened : List Bracket) (rest : List Lexeme) : Outcome α → Prop
  | taken {later : List Lexeme} (value : α) (whole : skip .separator opened later = .ok rest) :
      Settles opened rest (.ok (value, later))
  | refused {problem : Problem} (early : problem ≠ .flaw .endOfText) :
      Settles opened rest (.error problem)

/-- Wherever a whole value stands, the reader gets just past it or refuses it. -/
def Careful {α : Type} (read : Reader α) : Prop :=
  ∀ ⦃awaiting : Awaiting⦄, awaiting = .value ∨ awaiting = .valueOrClose →
    ∀ ⦃opened : List Bracket⦄ ⦃lexemes rest : List Lexeme⦄, Unbroken lexemes →
      skip awaiting opened lexemes = .ok rest → Settles opened rest (read lexemes)

theorem Settles.map {α β : Type} {outcome : Outcome α} (settles : Settles opened rest outcome)
    (convert : α → β) :
    Settles opened rest (outcome.map fun (value, rest) => (convert value, rest)) := by
  cases settles with
  | taken value whole => exact .taken (convert value) whole
  | refused early => exact .refused early

theorem settles_malformed {α : Type} : Settles opened rest (malformed : Outcome α) :=
  .refused (by simp)

theorem Number.ofSpelling_error {precision : Precision} {spelling : Decimal.Spelling} {flaw : Flaw}
    (refused : ofSpelling precision spelling = .error flaw) : flaw = .malformed := by
  unfold ofSpelling at refused
  dsimp only at refused
  split at refused
  · cases refused
  · split at refused
    · exact (Except.error.inj refused).symm
    · cases refused

theorem unexpected_ne_endOfText {lexemes : List Lexeme} (unbroken : Unbroken lexemes)
    (before : awaiting ≠ .separator) (whole : skip awaiting opened lexemes = .ok rest)
    (expected : String) : unexpected expected lexemes ≠ .flaw .endOfText := by
  cases lexemes with
  | nil => cases awaiting <;> simp [skip, endOfText] at whole before
  | cons lexeme later =>
      have first := unbroken lexeme List.mem_cons_self
      cases lexeme with
      | token token =>
          cases token with
          | number spelling =>
              simp only [unexpected]
              split
              · simp
              · rename_i flaw refused
                simp [Number.ofSpelling_error refused]
          | _ => simp [unexpected]
      | flawed flaw =>
          cases flaw with
          | text read skipped =>
              cases skipped with
              | none => cases read <;> simp [unexpected, TokenFlaw.problem] at first ⊢
              | some flaw => cases awaiting <;> simp [skip, malformed] at whole before
          | number flaw => cases awaiting <;> simp [skip, malformed] at whole before
          | word flaw => cases awaiting <;> simp [skip, malformed] at whole before
          | stray => simp [unexpected, TokenFlaw.problem]

theorem Unbroken.tail {lexeme : Lexeme} {later : List Lexeme}
    (unbroken : Unbroken (lexeme :: later)) : Unbroken later :=
  fun other member => unbroken other (List.mem_cons_of_mem _ member)

theorem Unbroken.right {front back : List Lexeme} (unbroken : Unbroken (front ++ back)) :
    Unbroken back :=
  fun other member => unbroken other (List.mem_append_right front member)

theorem settles_unexpected {α : Type} (unbroken : Unbroken lexemes)
    (before : awaiting ≠ .separator) (whole : skip awaiting opened lexemes = .ok rest)
    (expected : String) :
    Settles opened rest (.error (unexpected expected lexemes) : Outcome α) :=
  .refused (unexpected_ne_endOfText unbroken before whole expected)

theorem ne_separator (here : awaiting = .value ∨ awaiting = .valueOrClose) :
    awaiting ≠ .separator := by
  rintro rfl
  simp at here

theorem readNumber_careful (precision : Precision) (expected : String) :
    Careful (readNumber precision expected) := by
  intro awaiting here opened lexemes rest unbroken whole
  unfold readNumber
  split
  · rename_i spelling later
    have passed : skip .separator opened later = .ok rest := by
      obtain rfl | rfl := here <;> simpa [skip] using whole
    split
    · exact .taken _ passed
    · rename_i flaw refused
      exact .refused (by simp [Number.ofSpelling_error refused])
  · exact settles_unexpected unbroken (ne_separator here) whole expected

theorem readWord_careful : Careful readWord := by
  intro awaiting here opened lexemes rest unbroken whole
  have number := readNumber_careful .double "usize" here unbroken whole
  unfold readWord
  split
  · rename_i problem refused
    rw [refused] at number
    cases number with
    | refused early => exact .refused early
  · rename_i value later found
    rw [found] at number
    cases number with
    | taken _ passed => exact .taken value passed
  · exact .refused (by simp)
  · exact .refused (by simp)

theorem readBinary_careful (precision : Precision) : Careful (readBinary precision) :=
  fun _ here _ _ _ unbroken whole =>
    (readNumber_careful precision precision.name here unbroken whole).map Number.toBinary

theorem eq_cons_of_readBinary {precision : Precision} {number : Binary precision}
    (found : readBinary precision lexemes = .ok (number, rest)) :
    ∃ spelling, lexemes = .token (.number spelling) :: rest := by
  unfold readBinary readNumber at found
  split at found
  · split at found
    · cases found
      exact ⟨_, rfl⟩
    · cases found
  · cases found

theorem readText_careful : Careful readText := by
  intro awaiting here opened lexemes rest unbroken whole
  unfold readText
  split
  · rename_i value later
    refine .taken value ?_
    obtain rfl | rfl := here <;> simpa [skip] using whole
  · exact settles_unexpected unbroken (ne_separator here) whole "a string"

theorem readMoreBinaries_settles (precision : Precision) (unbroken : Unbroken lexemes)
    (whole : skip .separator (.list :: opened) lexemes = .ok rest) :
    Settles opened rest (readMoreBinaries precision lexemes) := by
  fun_induction readMoreBinaries precision lexemes with
  | case1 later => exact .taken [] (by simpa [skip] using whole)
  | case2 spelling later flaw refused =>
      exact .refused (by simp [Number.ofSpelling_error refused])
  | case3 spelling later number found ih =>
      exact (ih unbroken.tail.tail (by simpa [skip] using whole)).map (number.toBinary :: ·)
  | case4 later other =>
      have next : skip .value (.list :: opened) later = .ok rest := by simpa [skip] using whole
      exact .refused (unexpected_ne_endOfText unbroken.tail (by simp) next precision.name)
  | case5 => cases whole
  | case6 => exact .refused (by simp)

theorem readBinaries_careful (precision : Precision) : Careful (readBinaries precision) := by
  intro awaiting here opened lexemes rest unbroken whole
  unfold readBinaries
  split
  · rename_i later
    refine .taken [] ?_
    obtain rfl | rfl := here <;> simpa [skip] using whole
  · rename_i later nonempty
    have entered : skip .valueOrClose (.list :: opened) later = .ok rest := by
      obtain rfl | rfl := here <;> simpa [skip] using whole
    have first := readBinary_careful precision (.inr rfl) unbroken.tail entered
    split
    · rename_i problem refused
      rw [refused] at first
      cases first with
      | refused early => exact .refused early
    · rename_i number later found
      rw [found] at first
      cases first with
      | taken _ passed =>
          obtain ⟨spelling, rfl⟩ := eq_cons_of_readBinary found
          exact (readMoreBinaries_settles precision unbroken.tail.tail passed).map (number :: ·)
  · exact settles_unexpected unbroken (ne_separator here) whole "a sequence"

end HalfMatrix.Json

namespace HalfMatrix.Document

open Json

variable {awaiting : Awaiting} {opened : List Bracket} {lexemes rest : List Lexeme}

theorem triangleOfName_error {name : String} {problem : Problem}
    (refused : triangleOfName name = .error problem) : problem ≠ .flaw .endOfText := by
  unfold triangleOfName at refused
  split at refused <;> cases refused
  simp

theorem readTaggedTriangle_settles (unbroken : Unbroken lexemes)
    (whole : skip .keyOrClose (.map :: opened) lexemes = .ok rest) :
    Settles opened rest (readTaggedTriangle lexemes) := by
  unfold readTaggedTriangle
  split
  · rename_i name later
    have colon : skip .colon (.map :: opened) later = .ok rest := by simpa [skip] using whole
    split
    · rename_i problem refused
      exact .refused (triangleOfName_error refused)
    · rename_i triangle found
      split
      · rename_i later
        exact .taken triangle (by simpa [skip] using colon)
      · simp [skip, endOfText] at colon
      · exact settles_malformed
      · rename_i value _ _ _
        have next : skip .value (.map :: opened) value = .ok rest := by simpa [skip] using colon
        exact .refused (unexpected_ne_endOfText unbroken.tail.tail (by simp) next "unit")
      · cases colon
      · exact settles_malformed
  · exact .refused (unexpected_ne_endOfText unbroken (by simp) whole "")
  · cases whole
  · exact settles_malformed

theorem readTriangle_careful : Careful readTriangle := by
  intro awaiting here opened lexemes rest unbroken whole
  unfold readTriangle
  split
  · rename_i name later
    have passed : skip .separator opened later = .ok rest := by
      obtain rfl | rfl := here <;> simpa [skip] using whole
    cases named : triangleOfName name with
    | error problem => exact .refused (triangleOfName_error named)
    | ok triangle => exact .taken triangle passed
  · exact .refused (unexpected_ne_endOfText unbroken (ne_separator here) whole "")
  · rename_i later
    refine readTaggedTriangle_settles unbroken.tail ?_
    obtain rfl | rfl := here <;> simpa [skip] using whole
  · obtain rfl | rfl := here <;> cases whole
  · exact settles_malformed

end HalfMatrix.Document
