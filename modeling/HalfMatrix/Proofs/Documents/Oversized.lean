import HalfMatrix.Proofs.Documents.Accepted

/-!
# Dimensions that are too great

A document can give a table a dimension that no word holds, and be well formed
apart from that.  `readWideRecord` reads such documents too: it takes the
dimension to be any whole number.  The reader of tables narrows this one.  It
comes to the same record or refuses, and then it is for what the text holds,
not because the text ends too early.
-/

set_option autoImplicit false

namespace HalfMatrix

namespace Json

/-- The outcome is the wide one, or another problem than the end of the text. -/
def Narrows {α : Type} (outcome wide : Except Problem α) : Prop :=
  outcome = wide ∨ ∃ problem, outcome = .error problem ∧ problem ≠ .flaw .endOfText

namespace Narrows

variable {α β : Type} {outcome wide : Except Problem α}

theorem refl (outcome : Except Problem α) : Narrows outcome outcome := Or.inl rfl

theorem bind (narrows : Narrows outcome wide) {next wideNext : α → Except Problem β}
    (later : ∀ value, Narrows (next value) (wideNext value)) :
    Narrows (outcome >>= next) (wide >>= wideNext) := by
  rcases narrows with rfl | ⟨problem, rfl, early⟩
  · cases outcome with
    | error problem => exact refl _
    | ok value => exact later value
  · exact Or.inr ⟨problem, rfl, early⟩

theorem map (narrows : Narrows outcome wide) (convert : α → β) :
    Narrows (outcome.map convert) (wide.map convert) := by
  rcases narrows with rfl | ⟨problem, rfl, early⟩
  · exact refl _
  · exact Or.inr ⟨problem, rfl, early⟩

theorem eq_of_ok (narrows : Narrows outcome wide) {value : α} (accepted : outcome = .ok value) :
    wide = .ok value := by
  rcases narrows with same | ⟨problem, refused, _⟩
  · rw [← same, accepted]
  · rw [refused] at accepted
    cases accepted

/-- A problem is that of the wide outcome too, if the text ends with it. -/
theorem of_error (narrows : Narrows outcome wide) {problem : Problem}
    (refused : outcome = .error problem) :
    wide = .error problem ∨ problem ≠ .flaw .endOfText := by
  rcases narrows with same | ⟨other, refused', early⟩
  · exact Or.inl (same ▸ refused)
  · rw [refused] at refused'
    cases refused'
    exact Or.inr early

end Narrows

def readWhole : Reader Nat
  | .token (.number spelling) :: rest =>
      if spelling.isWhole ∧ ¬ spelling.negative then .ok (spelling.digits, rest)
      else readWord (.token (.number spelling) :: rest)
  | lexemes => readWord lexemes

theorem readWhole_shrinks : Shrinks readWhole := by
  intro lexemes rest value found
  unfold readWhole at found
  split at found
  · split_ifs at found
    · cases found
      exact Nat.le_succ _
    · exact readWord_shrinks found
  · exact readWord_shrinks found

/-- A whole number that is no word is read as one that is rounded, and is of the wrong type. -/
theorem readWord_narrows (lexemes : List Lexeme) :
    Narrows (readWord lexemes) (readWhole lexemes) := by
  unfold readWhole
  split
  · rename_i spelling rest
    split_ifs with whole
    · obtain ⟨whole, positive⟩ := whole
      simp only [Bool.not_eq_true] at positive
      by_cases great : Word.modulus ≤ spelling.digits
      · refine Or.inr ?_
        simp only [readWord, readNumber, Number.ofSpelling, whole, if_true, Number.ofWhole, great]
        split_ifs
        · exact ⟨_, rfl, by decide⟩
        · exact ⟨_, rfl, by simp⟩
      · refine Or.inl ?_
        simp [readWord, readNumber, Number.ofSpelling, whole, Number.ofWhole, great, positive]
    · exact Narrows.refl _
  · exact Narrows.refl _

/-! ## Records with another member -/

section Records

variable {Draft : Type} {schema : Schema Draft} {other : Member Draft}

def Member.replacedBy (member other : Member Draft) : Member Draft :=
  if member.name = other.name then other else member

theorem Member.replacedBy_name (member other : Member Draft) :
    (member.replacedBy other).name = member.name := by
  unfold replacedBy
  split_ifs with named
  · exact named.symm
  · rfl

namespace Schema

def replace (schema : Schema Draft) (other : Member Draft) : Schema Draft :=
  { schema with members := schema.members.map (·.replacedBy other) }

/-- What is read with the other member is narrowed by what is read without it. -/
def WidenedBy (schema : Schema Draft) (other : Member Draft) : Prop :=
  ∀ member ∈ schema.members, (member.replacedBy other).isRead = member.isRead ∧
    ∀ draft lexemes, Narrows (member.read draft lexemes)
      ((member.replacedBy other).read draft lexemes)

theorem readMember_narrows (widened : schema.WidenedBy other) (draft : Draft) (name : String)
    (lexemes : List Lexeme) :
    Narrows (schema.readMember draft name lexemes)
      ((schema.replace other).readMember draft name lexemes) := by
  have found : (schema.replace other).members.find? (fun member => member.name == name) =
      (schema.members.find? fun member => member.name == name).map (·.replacedBy other) := by
    simp only [replace, List.find?_map, Function.comp_def, Member.replacedBy_name]
  unfold readMember
  rw [found]
  cases own : schema.members.find? fun member => member.name == name with
  | none => exact Narrows.refl _
  | some member =>
      obtain ⟨isRead, reads⟩ := widened member (List.mem_of_find?_eq_some own)
      simp only [Option.map_some, isRead]
      split_ifs
      · exact Narrows.refl _
      · cases afterColon lexemes with
        | error problem => exact Narrows.refl _
        | ok value => exact reads draft value

theorem readMembers_narrows (widened : schema.WidenedBy other) (draft : Draft)
    (lexemes : List Lexeme) :
    Narrows (schema.readMembers draft lexemes)
      ((schema.replace other).readMembers draft lexemes) := by
  fun_induction schema.readMembers draft lexemes with
  | case1 draft name rest problem refused =>
      rcases (readMember_narrows widened draft name rest).of_error refused with same | early
      · refine Or.inl ?_
        rw [readMembers_named, same]
      · exact Or.inr ⟨problem, rfl, early⟩
  | case3 draft name rest extended later found ih =>
      have same := (readMember_narrows widened draft name rest).eq_of_ok found
      rw [readMembers_named, same]
      exact ih
  | case2 | case4 =>
      -- The map or the text ends after this member.
      rename_i found
      have same := (readMember_narrows widened _ _ _).eq_of_ok found
      refine Or.inl ?_
      rw [readMembers_named, same]
  | case5 draft name rest extended later unclosed more unended found =>
      have same := (readMember_narrows widened draft name rest).eq_of_ok found
      refine Or.inl ?_
      rw [readMembers_named, same]
      split <;> simp_all
  | case6 | case7 =>
      refine Or.inl ?_
      rw [readMembers]
  | case8 draft lexemes unnamed unflawed unended =>
      refine Or.inl ?_
      rw [readMembers]
      · exact unnamed
      · exact unflawed
      · exact unended

theorem readInOrder_narrows (widened : schema.WidenedBy other) {members : List (Member Draft)}
    (own : ∀ member ∈ members, member ∈ schema.members) (read : Nat) (draft : Draft)
    (lexemes : List Lexeme) :
    Narrows (schema.readInOrder read members draft lexemes)
      ((schema.replace other).readInOrder read (members.map (·.replacedBy other)) draft
        lexemes) := by
  induction members generalizing read draft lexemes with
  | nil =>
      refine Or.inl ?_
      rw [List.map_nil, readInOrder.eq_def, readInOrder.eq_def]
      split <;> first | rfl | contradiction
  | cons member members ih =>
      rw [List.map_cons]
      by_cases closed : ∃ rest, lexemes = .token .closeList :: rest
      · obtain ⟨rest, rfl⟩ := closed
        exact Or.inl rfl
      · have unclosed : ∀ rest, lexemes ≠ .token .closeList :: rest :=
          fun rest same => closed ⟨rest, same⟩
        have reads := (widened member (own member List.mem_cons_self)).2 draft
        have later := fun other mem => own other (List.mem_cons_of_mem member mem)
        rw [readInOrder_cons _ _ _ _ _ unclosed, readInOrder_cons _ _ _ _ _ unclosed]
        exact (Narrows.refl _).bind fun value => (reads value).bind fun _ => ih later _ _ _

theorem read_narrows (widened : schema.WidenedBy other) (draft : Draft) (lexemes : List Lexeme) :
    Narrows (schema.read draft lexemes) ((schema.replace other).read draft lexemes) := by
  unfold read
  split
  · exact Narrows.refl _
  · exact readMembers_narrows widened draft _
  · exact readInOrder_narrows widened (fun _ member => member) 0 draft _
  · exact Narrows.refl _

end Schema

end Records

theorem readDocument_narrows {α : Type} {read wide : Reader α}
    (narrows : ∀ lexemes, Narrows (read lexemes) (wide lexemes)) (text : String) :
    Narrows (readDocument read text) (readDocument wide text) := by
  unfold readDocument
  rcases narrows (Lexeme.scan text.toList) with same | ⟨problem, refused, early⟩
  · rw [same]
    exact Narrows.refl _
  · rw [refused]
    exact Or.inr ⟨problem, rfl, early⟩

end Json

namespace Document

open Json

variable {precision : Precision}

def wideDim : Member (TableDraft precision) :=
  .ofReader "n" (·.dim) (fun draft value => { draft with dim := some value }) readWhole
    readWhole_shrinks

def readWideRecord (precision : Precision) (lexemes : List Lexeme) :
    Outcome (TableRecord precision) :=
  match ((tableSchema precision).replace wideDim).read {} lexemes with
  | .error problem => .error problem
  | .ok (draft, rest) => draft.finish.map fun record => (record, rest)

theorem tableSchema_widenedBy_wideDim : (tableSchema precision).WidenedBy wideDim := by
  intro member own
  simp only [tableSchema, List.mem_cons, List.not_mem_nil, or_false] at own
  rcases own with rfl | rfl | rfl | rfl
  · refine ⟨rfl, fun draft lexemes => ?_⟩
    -- The readers differ in how they take the number, and not in what becomes of it.
    exact (readWord_narrows lexemes).map _
  · exact ⟨rfl, fun _ _ => Narrows.refl _⟩
  · exact ⟨rfl, fun _ _ => Narrows.refl _⟩
  · exact ⟨rfl, fun _ _ => Narrows.refl _⟩

theorem readTableRecord_narrows (lexemes : List Lexeme) :
    Narrows (readTableRecord precision lexemes) (readWideRecord precision lexemes) := by
  unfold readTableRecord readWideRecord
  rcases Schema.read_narrows tableSchema_widenedBy_wideDim {} lexemes with
    same | ⟨problem, refused, early⟩
  · rw [same]
    exact Narrows.refl _
  · rw [refused]
    exact Or.inr ⟨problem, rfl, early⟩

theorem readWideRecord_of_readTableRecord {text : String} {record : TableRecord precision}
    (found : readDocument (readTableRecord precision) text = .ok record) :
    readDocument (readWideRecord precision) text = .ok record :=
  (readDocument_narrows readTableRecord_narrows text).eq_of_ok found

/-- A text that holds a record, perhaps of a dimension that is no word, is
refused for its fill, the number of its entries and a dimension that is too
great.  It is never said to end too early. -/
theorem loadTable_refuses_wide {fill : Fill} {text : String} {record : TableRecord precision}
    (found : readDocument (readWideRecord precision) text = .ok record)
    (wrong : record.fill ≠ fill.name ∨
      record.entries.length ≠ record.dim * (record.dim + 1) / 2 ∨
      Word.modulus ≤ record.dim * (record.dim + 1)) :
    ∃ error, loadTable precision fill text = .error error ∧
      error ≠ .document (.flaw .endOfText) := by
  rcases readDocument_narrows readTableRecord_narrows text with same | ⟨problem, refused, early⟩
  · rw [found] at same
    obtain ⟨error, refused, whole⟩ := loadTable_refuses same wrong
    exact ⟨error, refused, whole _⟩
  · refine ⟨.document problem, ?_, ?_⟩
    · simp [loadTable, refused, Except.mapError, bind, Except.bind]
    · intro ended
      cases ended
      exact early rfl

end Document

end HalfMatrix
