import HalfMatrix.Proofs.Documents.Records
import HalfMatrix.Proofs.Documents.WholeValues
import Mathlib.Data.List.Nodup

/-!
# The members of a record in any order

A record is read member by member from a map, and value by value from a list.
`read_gathers` and `read_inOrder` follow the draft through either of them.
`read_counted` is about any map of whole values: if the map is not refused, then
each member that the draft did not have stood there at most once, and the draft
has it afterwards exactly if it stood there.
-/

set_option autoImplicit false

namespace HalfMatrix.Json

def entries (members : List (String × List Lexeme)) : List (List Lexeme) :=
  members.map fun (name, value) => .token (.text name) :: .token .colon :: value

def record (members : List (String × List Lexeme)) : List Lexeme :=
  enclosed .openMap .closeMap (entries members)

theorem isValue_record {members : List (String × List Lexeme)}
    (values : ∀ member ∈ members, IsValue member.2) : IsValue (record members) := by
  have keyed : record members =
      mapOf (members.map fun (name, value) => (.token (.text name), value)) := by
    rw [record, entries, mapOf, List.map_map]
    rfl
  rw [keyed]
  apply IsValue.map
  · intro member given
    obtain ⟨⟨name, value⟩, _, rfl⟩ := List.mem_map.mp given
    exact .inl ⟨name, rfl⟩
  · intro member given
    obtain ⟨named, member, rfl⟩ := List.mem_map.mp given
    exact values named member

def lexed (members : List (String × List Token)) : List (String × List Lexeme) :=
  members.map fun (name, tokens) => (name, tokens.map .token)

theorem lexed_append (members others : List (String × List Token)) :
    lexed (members ++ others) = lexed members ++ lexed others := List.map_append

theorem map_token_map (members : List (String × List Token)) :
    (Token.map members).map .token = record (lexed members) := by
  rw [Token.map, map_token_enclosed, record, entries, lexed, List.map_map, List.map_map]
  rfl

theorem presents_map {blanks : List Char} (blank : ∀ char ∈ blanks, Lexeme.isBlank char)
    {members : List (String × List Token)}
    (wellFormed : ∀ member ∈ members, ∀ token ∈ member.2, token.WellFormed) :
    Presents (record (lexed members))
      ((Token.map members).flatMap fun token => blanks ++ token.chars) := by
  rw [← map_token_map]
  exact presents_spaced blank (Token.wellFormed_map wellFormed)

/-- No value begins with the bracket that ends a list. -/
theorem IsValue.unclosed {value : List Lexeme} (isValue : IsValue value) (rest : List Lexeme) :
    ∀ later, value ++ rest ≠ .token .closeList :: later := by
  cases isValue with
  | @scalar lexeme scalar =>
      rintro later same
      obtain rfl : lexeme = .token .closeList := (List.cons.inj same).1
      simp [Lexeme.IsScalar, Lexeme.IsQuoted, Lexeme.unpaired] at scalar
  | @list items values => cases items <;> simp [listOf, enclosed]
  | @map members keys values => cases members <;> simp [mapOf, enclosed]

namespace Schema

variable {Draft : Type} {schema : Schema Draft} {draft next last : Draft} {name : String}
  {value : List Lexeme} {members : List (String × List Lexeme)}

/-! ## Maps -/

/-- Reading this member takes the one draft to the other. -/
def Accepts (schema : Schema Draft) (draft : Draft) (name : String) (value : List Lexeme)
    (next : Draft) : Prop :=
  ∀ rest, schema.readMember draft name (.token .colon :: (value ++ rest)) = .ok (next, rest)

inductive Gathers (schema : Schema Draft) : Draft → List (String × List Lexeme) → Draft → Prop
  | nil (draft : Draft) : Gathers schema draft [] draft
  | cons {draft next last : Draft} {name : String} {value : List Lexeme}
      {members : List (String × List Lexeme)} (accepts : schema.Accepts draft name value next)
      (later : Gathers schema next members last) :
      Gathers schema draft ((name, value) :: members) last

theorem accepts_own {member : Member Draft}
    (found : (schema.members.find? fun member => member.name == name) = some member)
    (fresh : member.isRead draft = false)
    (reads : ∀ rest, member.read draft (value ++ rest) = .ok (next, rest)) :
    schema.Accepts draft name value next := by
  intro rest
  simp [readMember, found, fresh, afterColon, reads rest]

theorem accepts_ofReader {α : Type} {place : Draft → Option α} {put : Draft → α → Draft}
    {read : Reader α} {shrinks : Shrinks read} {tokens : List Token} {content : α}
    (found : (schema.members.find? fun member => member.name == name) =
      some (.ofReader name place put read shrinks))
    (fresh : place draft = none) (reads : ReadsBack read tokens content)
    (becomes : put draft content = next) :
    schema.Accepts draft name (tokens.map .token) next := by
  refine accepts_own found ?_ fun rest => ?_
  · simp [Member.ofReader, fresh]
  · simp [Member.ofReader, reads rest, becomes, Except.map]

theorem accepts_foreign
    (unknown : (schema.members.find? fun member => member.name == name) = none)
    (isValue : IsValue value) : schema.Accepts draft name value draft := by
  intro rest
  simp [readMember, unknown, afterColon, isValue.skipValue rest, Except.map]

theorem readMembers_gathers (accepts : schema.Accepts draft name value next)
    (later : schema.Gathers next members last) (rest : List Lexeme) :
    schema.readMembers draft (.token (.text name) :: .token .colon ::
      (value ++ (followed .closeMap (entries members) ++ rest))) = .ok (last, rest) := by
  induction later generalizing draft name value with
  | nil last =>
      rw [readMembers_named, accepts]
      rfl
  | @cons next further last other otherValue members otherAccepts later ih =>
      rw [readMembers_named, accepts]
      simp only [entries, List.map_cons, followed, List.cons_append, List.append_assoc]
      exact ih otherAccepts

theorem read_gathers (gathers : schema.Gathers draft members last) (rest : List Lexeme) :
    schema.read draft (record members ++ rest) = .ok (last, rest) := by
  cases gathers with
  | nil => rfl
  | cons accepts later =>
      simp only [record, entries, List.map_cons, enclosed, List.cons_append, List.append_assoc]
      exact readMembers_gathers accepts later rest

theorem readsBack_map {members : List (String × List Token)}
    (gathers : schema.Gathers draft (lexed members) last) :
    ReadsBack (schema.read draft) (Token.map members) last := by
  intro rest
  rw [map_token_map]
  exact read_gathers gathers rest

/-! ## Lists -/

/-- Reading these values one after another with these members takes the one draft to the
other. -/
inductive InOrder : List (Member Draft) → Draft → List (List Lexeme) → Draft → Prop
  | nil (draft : Draft) : InOrder [] draft [] draft
  | cons {member : Member Draft} {members : List (Member Draft)} {draft next last : Draft}
      {value : List Lexeme} {values : List (List Lexeme)}
      (reads : ∀ rest, member.read draft (value ++ rest) = .ok (next, rest))
      (later : InOrder members next values last) :
      InOrder (member :: members) draft (value :: values) last

theorem readInOrder_followed {ownMembers : List (Member Draft)} {values : List (List Lexeme)}
    (inOrder : InOrder ownMembers draft values last) (whole : ∀ value ∈ values, IsValue value)
    (count : Nat) (rest : List Lexeme) :
    schema.readInOrder (count + 1) ownMembers draft (followed .closeList values ++ rest) =
      .ok (last, rest) := by
  induction inOrder generalizing count with
  | nil draft => simp [followed, readInOrder]
  | @cons member members draft next last value values reads later ih =>
      obtain ⟨first, wholeLater⟩ := List.forall_mem_cons.mp whole
      have begins : nextValue (count + 1)
          (.token .comma :: (value ++ (followed .closeList values ++ rest))) =
            .ok (value ++ (followed .closeList values ++ rest)) := by
        unfold nextValue
        have unclosed := first.unclosed (followed .closeList values ++ rest)
        split <;> simp_all
      rw [followed, List.cons_append, List.append_assoc, readInOrder_cons _ _ _ _ _ (by simp),
        begins]
      simp only [bind, Except.bind, reads]
      exact ih wholeLater (count + 1)

theorem read_inOrder {values : List (List Lexeme)}
    (inOrder : InOrder schema.members draft values last) (whole : ∀ value ∈ values, IsValue value)
    (rest : List Lexeme) : schema.read draft (listOf values ++ rest) = .ok (last, rest) := by
  have entered : ∀ lexemes, schema.read draft (.token .openList :: lexemes) =
      schema.readInOrder 0 schema.members draft lexemes := fun _ => rfl
  cases values with
  | nil =>
      generalize ownMembers : schema.members = members at inOrder
      cases inOrder
      rw [listOf, enclosed, List.cons_append, entered, ownMembers]
      simp [readInOrder]
  | cons value values =>
      obtain ⟨first, wholeLater⟩ := List.forall_mem_cons.mp whole
      generalize ownMembers : schema.members = members at inOrder
      cases inOrder with
      | cons reads later =>
          rw [listOf, enclosed, List.cons_append, List.append_assoc, entered, ownMembers,
            readInOrder_cons _ _ _ _ _ (first.unclosed _)]
          simp only [nextValue, bind, Except.bind, reads]
          exact readInOrder_followed later wholeLater 0 rest

/-! ## Counting members -/

/-- Every member keeps to its own place in a draft, and its reader takes care. -/
structure Regular (schema : Schema Draft) : Prop where
  unique : (schema.members.map Member.name).Nodup
  tracks : ∀ member ∈ schema.members, ∀ ⦃draft next : Draft⦄ ⦃lexemes rest : List Lexeme⦄,
    member.read draft lexemes = .ok (next, rest) → ∀ other ∈ schema.members,
      other.isRead next = (other.isRead draft || other.name == member.name)
  careful : ∀ member ∈ schema.members, ∀ draft, Careful (member.read draft)

def Counts (schema : Schema Draft) (draft : Draft) (names : List String) (next : Draft) : Prop :=
  ∀ member ∈ schema.members,
    (member.isRead draft).toNat + names.count member.name = (member.isRead next).toNat

/-- The members were refused for what they are, or read to the end and counted. -/
inductive Counted (schema : Schema Draft) (draft : Draft) (names : List String)
    (rest : List Lexeme) : Outcome Draft → Prop
  | taken {next : Draft} (counts : schema.Counts draft names next) :
      Counted schema draft names rest (.ok (next, rest))
  | refused {problem : Problem} (early : problem ≠ .flaw .endOfText) :
      Counted schema draft names rest (.error problem)

theorem Regular.counts_read (regular : schema.Regular) {member : Member Draft}
    (own : member ∈ schema.members) (fresh : ¬ member.isRead draft) {lexemes rest : List Lexeme}
    (read : member.read draft lexemes = .ok (next, rest)) :
    schema.Counts draft [member.name] next := by
  intro other otherOwn
  rw [regular.tracks member own read other otherOwn]
  by_cases same : other.name = member.name
  · obtain rfl := List.inj_on_of_nodup_map regular.unique otherOwn own same
    simp [fresh]
  · simp [beq_false_of_ne same, Ne.symm same]

theorem readMember_counted (regular : schema.Regular) {rest : List Lexeme}
    (isValue : IsValue value) (unbroken : Unbroken (value ++ rest)) :
    schema.Counted draft [name] rest
      (schema.readMember draft name (.token .colon :: (value ++ rest))) := by
  have whole := isValue.skipValue rest
  unfold readMember
  cases found : schema.members.find? fun member => member.name == name with
  | none =>
      simp only [afterColon, whole, Except.map]
      refine .taken fun other own => ?_
      have foreign := List.find?_eq_none.mp found other own
      simp [Ne.symm (by simpa using foreign)]
  | some member =>
      have own := List.mem_of_find?_eq_some found
      have named : member.name = name := by simpa using List.find?_some found
      simp only [afterColon]
      split_ifs with isRead
      · exact .refused (by simp)
      · have settles := regular.careful member own draft (.inl rfl) unbroken whole
        cases read : member.read draft (value ++ rest) with
        | error problem =>
            rw [read] at settles
            cases settles with
            | refused early => exact .refused early
        | ok found =>
            obtain ⟨next, later⟩ := found
            rw [read] at settles
            cases settles with
            | taken _ passed =>
                -- The reader stops where skipping the value does.
                obtain rfl : later = rest := by
                  cases later <;> exact Except.ok.inj passed
                exact .taken (named ▸ regular.counts_read own isRead read)

theorem Counted.after {names : List String} {rest : List Lexeme} {outcome : Outcome Draft}
    (counts : schema.Counts draft [name] next)
    (later : schema.Counted next names rest outcome) :
    schema.Counted draft (name :: names) rest outcome := by
  cases later with
  | refused early => exact .refused early
  | taken countsLater =>
      refine .taken fun member own => ?_
      rw [← countsLater member own, ← counts member own, List.count_cons, List.count_singleton]
      omega

theorem readMembers_counted (regular : schema.Regular) {rest : List Lexeme}
    (isValue : IsValue value) (values : ∀ member ∈ members, IsValue member.2)
    (unbroken : Unbroken (value ++ (followed .closeMap (entries members) ++ rest))) :
    schema.Counted draft (name :: members.map Prod.fst) rest
      (schema.readMembers draft (.token (.text name) :: .token .colon ::
        (value ++ (followed .closeMap (entries members) ++ rest)))) := by
  induction members generalizing draft name value with
  | nil =>
      have first : schema.Counted draft [name] _ _ := readMember_counted regular isValue unbroken
      rw [readMembers_named]
      generalize schema.readMember draft name _ = outcome at first ⊢
      cases first with
      | refused early => exact .refused early
      | taken counts => exact .taken counts
  | cons member members ih =>
      obtain ⟨other, otherValue⟩ := member
      obtain ⟨otherIsValue, valuesLater⟩ := List.forall_mem_cons.mp values
      have first : schema.Counted draft [name] _ _ := readMember_counted regular isValue unbroken
      have later := unbroken.right
      simp only [entries, List.map_cons, followed, List.cons_append, List.append_assoc]
        at first later ⊢
      rw [readMembers_named]
      generalize schema.readMember draft name _ = outcome at first ⊢
      cases first with
      | refused early => exact .refused early
      | taken counts => exact .after counts (ih otherIsValue valuesLater later.tail.tail.tail)

/-- If a map of whole values is not refused, then no member of the record stands in it twice,
and the draft has every member that stands in it. -/
theorem read_counted (regular : schema.Regular) {rest : List Lexeme}
    (values : ∀ member ∈ members, IsValue member.2) (unbroken : Unbroken (record members ++ rest)) :
    schema.Counted draft (members.map Prod.fst) rest
      (schema.read draft (record members ++ rest)) := by
  cases members with
  | nil => exact .taken fun member own => rfl
  | cons member members =>
      obtain ⟨name, value⟩ := member
      obtain ⟨isValue, valuesLater⟩ := List.forall_mem_cons.mp values
      simp only [record, entries, List.map_cons, enclosed, List.cons_append, List.append_assoc]
        at unbroken ⊢
      exact readMembers_counted regular isValue valuesLater unbroken.tail.tail.tail

end Schema

end HalfMatrix.Json
