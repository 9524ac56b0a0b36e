import HalfMatrix.Proofs.Documents.Scanning
import Mathlib.Data.List.Chain

/-!
# Texts of values

A value is a sequence of lexemes.  In a text each lexeme is spelled in one of
its ways, and any blanks may stand around it.  `scan_presents` says that a text
of a value is scanned into the lexemes of the value, whichever way it was
written.
-/

set_option autoImplicit false

namespace HalfMatrix.Json

open Decimal (Spelling)

/-! ## Spellings of lexemes -/

def Token.IsFixed : Token → Prop
  | number _ => False
  | text _ => False
  | _ => True

namespace Lexeme

/-- A quoted text in which half of a surrogate pair stands alone.  It is well
formed, but it is the text of nothing. -/
def unpaired : Lexeme := .flawed (.text .malformed none)

inductive Spells : Lexeme → List Char → Prop
  | fixed {token : Token} (fixed : token.IsFixed) : Spells (.token token) token.chars
  | number {letter : Char} {spelling : Spelling} (isLetter : Number.IsPowerLetter letter)
      (wellFormed : spelling.WellFormed) :
      Spells (.token (.number spelling)) (Number.spelled letter spelling)
  | text {units : List Nat} {chars value : List Char} (spelled : Quoted.Spells units chars)
      (paired : Quoted.pair units = .text value) :
      Spells (.token (.text (String.ofList value))) ('"' :: (chars ++ ['"']))
  | unpaired {units : List Nat} {chars : List Char} (spelled : Quoted.Spells units chars)
      (alone : ∀ value, Quoted.pair units ≠ .text value) :
      Spells unpaired ('"' :: (chars ++ ['"']))

def IsNumber : Lexeme → Prop
  | .token (.number _) => True
  | _ => False

theorem scan_quoted {units : List Nat} {chars : List Char} (spelled : Quoted.Spells units chars)
    (rest : List Char) :
    scan ('"' :: (chars ++ ['"']) ++ rest) =
      (match Quoted.pair units with
        | .text value => .token (.text (String.ofList value))
        | _ => unpaired) :: scan rest := by
  have scanned := Quoted.scan_spells spelled rest
  have next : next '"' (chars ++ '"' :: rest) = ofQuoted (chars ++ '"' :: rest) := rfl
  simp only [List.cons_append, List.append_assoc, List.nil_append]
  rw [scan_next rfl, next]
  simp only [ofQuoted, scanned]
  cases Quoted.pair units <;> rfl

theorem Spells.scan {lexeme : Lexeme} {chars rest : List Char} (spells : lexeme.Spells chars)
    (ends : lexeme.IsNumber → Number.Ends rest) :
    Lexeme.scan (chars ++ rest) = lexeme :: Lexeme.scan rest := by
  cases spells with
  | @fixed token fixed =>
      apply scan_chars
      · cases token <;> trivial
      · cases token <;> trivial
  | number isLetter wellFormed => exact scan_number isLetter wellFormed (ends trivial)
  | text spelled paired => rw [scan_quoted spelled, paired]
  | @unpaired units chars spelled alone =>
      rw [scan_quoted spelled]
      cases paired : Quoted.pair units with
      | text value => exact absurd paired (alone value)
      | openPair => rfl
      | alone => rfl

theorem spells_chars {token : Token} (wellFormed : token.WellFormed) :
    (Lexeme.token token).Spells token.chars := by
  cases token with
  | number spelling =>
      rw [Token.chars, Number.text_eq_spelled]
      exact .number (.inl rfl) wellFormed
  | text value =>
      have spells := Spells.text (Quoted.spells_encode value.toList) (Quoted.pair_toNat _)
      rwa [String.ofList_toList] at spells
  | comma => exact .fixed trivial
  | colon => exact .fixed trivial
  | openList => exact .fixed trivial
  | closeList => exact .fixed trivial
  | openMap => exact .fixed trivial
  | closeMap => exact .fixed trivial
  | null => exact .fixed trivial
  | boolean value => exact .fixed trivial

/-- Nothing but a number begins with a character that goes on a number. -/
theorem Spells.ends {lexeme : Lexeme} {chars : List Char} (spells : lexeme.Spells chars)
    (other : ¬ lexeme.IsNumber) (rest : List Char) : Number.Ends (chars ++ rest) := by
  cases spells with
  | @fixed token fixed =>
      cases token with
      | number spelling => exact fixed.elim
      | text value => exact fixed.elim
      | boolean value => cases value <;> exact Number.ends_cons.mpr (by decide)
      | _ => exact Number.ends_cons.mpr (by decide)
  | number isLetter wellFormed => exact absurd trivial other
  | text spelled paired => exact Number.ends_cons.mpr (by decide)
  | unpaired spelled alone => exact Number.ends_cons.mpr (by decide)

end Lexeme

/-! ## Texts of lexemes -/

/-- The characters are spellings of the lexemes with blanks between and around them. -/
inductive Presents : List Lexeme → List Char → Prop
  | nil {blanks : List Char} (blank : ∀ char ∈ blanks, Lexeme.isBlank char) : Presents [] blanks
  | cons {lexeme : Lexeme} {lexemes : List Lexeme} {blanks spelling chars : List Char}
      (blank : ∀ char ∈ blanks, Lexeme.isBlank char) (spells : lexeme.Spells spelling)
      (later : Presents lexemes chars) :
      Presents (lexeme :: lexemes) (blanks ++ (spelling ++ chars))

def Apart (left right : Lexeme) : Prop := left.IsNumber → ¬ right.IsNumber

theorem presents_spaced {blanks : List Char} (blank : ∀ char ∈ blanks, Lexeme.isBlank char)
    {tokens : List Token} (wellFormed : ∀ token ∈ tokens, token.WellFormed) :
    Presents (tokens.map .token) (tokens.flatMap fun token => blanks ++ token.chars) := by
  induction tokens with
  | nil => exact .nil (List.forall_mem_nil _)
  | cons token tokens ih =>
      obtain ⟨first, later⟩ := List.forall_mem_cons.mp wellFormed
      rw [List.flatMap_cons, List.append_assoc]
      exact .cons blank (Lexeme.spells_chars first) (ih later)

theorem Lexeme.scan_blanks {blanks : List Char} (blank : ∀ char ∈ blanks, isBlank char)
    (rest : List Char) : scan (blanks ++ rest) = scan rest := by
  induction blanks with
  | nil => rfl
  | cons char blanks ih =>
      obtain ⟨first, later⟩ := List.forall_mem_cons.mp blank
      rw [List.cons_append, scan_blank first, ih later]

theorem ends_of_blank {char : Char} (blank : Lexeme.isBlank char) (rest : List Char) :
    Number.Ends (char :: rest) := by
  simp only [Lexeme.isBlank, Bool.or_eq_true, beq_iff_eq] at blank
  obtain ((rfl | rfl) | rfl) | rfl := blank <;> exact Number.ends_cons.mpr (by decide)

theorem Presents.ends {lexemes : List Lexeme} {chars : List Char}
    (presents : Presents lexemes chars) (other : ∀ next ∈ lexemes.head?, ¬ next.IsNumber) :
    Number.Ends chars := by
  cases presents with
  | @nil blanks blank =>
      cases chars with
      | nil => exact nofun
      | cons char chars => exact ends_of_blank (blank char List.mem_cons_self) chars
  | @cons lexeme lexemes blanks spelling chars blank spells later =>
      cases blanks with
      | nil => exact spells.ends (other lexeme rfl) chars
      | cons char blanks => exact ends_of_blank (blank char List.mem_cons_self) _

/-- A text is scanned into the lexemes that it presents. -/
theorem Presents.scan {lexemes : List Lexeme} {chars : List Char}
    (presents : Presents lexemes chars) (apart : lexemes.IsChain Apart) :
    Lexeme.scan chars = lexemes := by
  induction presents with
  | @nil blanks blank => rw [← List.append_nil blanks, Lexeme.scan_blanks blank, Lexeme.scan_nil]
  | cons blank spells later ih =>
      obtain ⟨first, rest⟩ := List.isChain_cons.mp apart
      -- A number needs no blank after it, because the next lexeme is none.
      have ends := fun number => later.ends fun next head => first next head number
      rw [Lexeme.scan_blanks blank, spells.scan ends, ih rest]

/-! ## Values -/

namespace Lexeme

def IsQuoted (lexeme : Lexeme) : Prop :=
  (∃ value, lexeme = .token (.text value)) ∨ lexeme = unpaired

def IsScalar : Lexeme → Prop
  | .token .null => True
  | .token (.boolean _) => True
  | .token (.number _) => True
  | lexeme => lexeme.IsQuoted

end Lexeme

def followed (close : Token) : List (List Lexeme) → List Lexeme
  | [] => [.token close]
  | item :: items => .token .comma :: (item ++ followed close items)

def enclosed (opening close : Token) : List (List Lexeme) → List Lexeme
  | [] => [.token opening, .token close]
  | item :: items => .token opening :: (item ++ followed close items)

def listOf (items : List (List Lexeme)) : List Lexeme := enclosed .openList .closeList items

def mapOf (members : List (Lexeme × List Lexeme)) : List Lexeme :=
  enclosed .openMap .closeMap (members.map fun (key, value) => key :: .token .colon :: value)

inductive IsValue : List Lexeme → Prop
  | scalar {lexeme : Lexeme} (scalar : lexeme.IsScalar) : IsValue [lexeme]
  | list {items : List (List Lexeme)} (values : ∀ item ∈ items, IsValue item) :
      IsValue (listOf items)
  | map {members : List (Lexeme × List Lexeme)} (keys : ∀ member ∈ members, member.1.IsQuoted)
      (values : ∀ member ∈ members, IsValue member.2) : IsValue (mapOf members)

theorem isChain_followed {close : Token} (noNumber : ¬ (Lexeme.token close).IsNumber)
    {items : List (List Lexeme)} (apart : ∀ item ∈ items, item.IsChain Apart)
    {before : List Lexeme} (start : before.IsChain Apart) :
    (before ++ followed close items).IsChain Apart := by
  induction items generalizing before with
  | nil =>
      refine List.isChain_append.mpr ⟨start, .singleton _, ?_⟩
      rintro left _ right ⟨⟩ _
      exact noNumber
  | cons item items ih =>
      obtain ⟨first, later⟩ := List.forall_mem_cons.mp apart
      refine List.isChain_append.mpr ⟨start, List.isChain_cons.mpr ⟨?_, ih later first⟩, ?_⟩
      · rintro right _ ⟨⟩
      · rintro left _ right ⟨⟩ _ ⟨⟩

theorem isChain_enclosed {opening close : Token} (noNumber : ¬ (Lexeme.token opening).IsNumber)
    (noNumber' : ¬ (Lexeme.token close).IsNumber) {items : List (List Lexeme)}
    (apart : ∀ item ∈ items, item.IsChain Apart) :
    (enclosed opening close items).IsChain Apart := by
  cases items with
  | nil => exact List.isChain_cons_cons.mpr ⟨fun number => absurd number noNumber, .singleton _⟩
  | cons item items =>
      obtain ⟨first, later⟩ := List.forall_mem_cons.mp apart
      exact List.isChain_cons.mpr
        ⟨fun _ _ number => absurd number noNumber, isChain_followed noNumber' later first⟩

theorem IsValue.apart {lexemes : List Lexeme} (value : IsValue lexemes) :
    lexemes.IsChain Apart := by
  induction value with
  | scalar scalar => exact .singleton _
  | list values ih => exact isChain_enclosed id id ih
  | @map members keys values ih =>
      apply isChain_enclosed id id
      intro item given
      obtain ⟨⟨key, value⟩, member, rfl⟩ := List.mem_map.mp given
      have noNumber : ¬ key.IsNumber := by
        obtain ⟨name, rfl⟩ | rfl := keys _ member <;> exact id
      refine List.isChain_cons_cons.mpr ⟨fun number => absurd number noNumber, ?_⟩
      exact List.isChain_cons.mpr ⟨fun _ _ => False.elim, ih _ member⟩

/-- A text of a value is scanned into the value. -/
theorem scan_presents {lexemes : List Lexeme} {chars : List Char} (value : IsValue lexemes)
    (presents : Presents lexemes chars) : Lexeme.scan chars = lexemes :=
  presents.scan value.apart

/-! ## Written lists -/

theorem Token.wellFormed_separated {items : List (List Token)}
    (each : ∀ item ∈ items, ∀ token ∈ item, token.WellFormed) :
    ∀ token ∈ List.flatten (items.intersperse [Token.comma]), token.WellFormed := by
  induction items with
  | nil => exact List.forall_mem_nil _
  | cons item items ih =>
      obtain ⟨first, later⟩ := List.forall_mem_cons.mp each
      cases items with
      | nil => simpa using first
      | cons next items =>
          rw [flatten_separated]
          exact List.forall_mem_append.mpr ⟨first, List.forall_mem_cons.mpr ⟨trivial, ih later⟩⟩

theorem Token.wellFormed_list {items : List (List Token)}
    (each : ∀ item ∈ items, ∀ token ∈ item, token.WellFormed) :
    ∀ token ∈ Token.list items, token.WellFormed :=
  List.forall_mem_cons.mpr ⟨trivial, List.forall_mem_append.mpr
    ⟨wellFormed_separated each, List.forall_mem_singleton.mpr trivial⟩⟩

theorem Token.wellFormed_map {members : List (String × List Token)}
    (each : ∀ member ∈ members, ∀ token ∈ member.2, token.WellFormed) :
    ∀ token ∈ Token.map members, token.WellFormed := by
  refine List.forall_mem_cons.mpr ⟨trivial, List.forall_mem_append.mpr
    ⟨wellFormed_separated ?_, List.forall_mem_singleton.mpr trivial⟩⟩
  intro item given
  obtain ⟨member, own, rfl⟩ := List.mem_map.mp given
  exact List.forall_mem_cons.mpr ⟨trivial, List.forall_mem_cons.mpr ⟨trivial, each member own⟩⟩

theorem map_token_enclosed (opening close : Token) (items : List (List Token)) :
    (opening :: List.flatten (items.intersperse [Token.comma]) ++ [close]).map Lexeme.token =
      enclosed opening close (items.map (·.map .token)) := by
  have later : ∀ (item : List Token) (items : List (List Token)),
      (List.flatten ((item :: items).intersperse [Token.comma]) ++ [close]).map Lexeme.token =
        item.map .token ++ followed close (items.map (·.map .token)) := by
    intro item items
    induction items generalizing item with
    | nil => simp [followed]
    | cons next items ih =>
        rw [Token.flatten_separated, List.append_assoc, List.cons_append, List.map_append, List.map_cons, ih]
        rfl
  cases items with
  | nil => rfl
  | cons item items =>
      rw [List.cons_append, List.map_cons, later]
      rfl

theorem map_token_list (items : List (List Token)) :
    (Token.list items).map .token = listOf (items.map (·.map .token)) :=
  map_token_enclosed .openList .closeList items

end HalfMatrix.Json
