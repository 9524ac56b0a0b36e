import HalfMatrix.Json.Token
import HalfMatrix.Proofs.Decimals.Spellings

/-!
# Scanning gives written tokens back

A text that begins with the text of a token is scanned into that token and the
scan of what follows.  Only a number could run on into what follows it, so a
number must not be followed by a character that numbers have; in the lists and
maps that are written, a comma or a bracket stands there.
-/

set_option autoImplicit false

namespace HalfMatrix.Json

open Decimal (Mark Power Spelling)

/-! ## Numbers -/

namespace Number

def goesOn (char : Char) : Bool :=
  char.isDigit || char == '.' || char == 'e' || char == 'E'

/-- No number that stands before the text goes on in it. -/
def Ends (rest : List Char) : Prop := ∀ char ∈ rest.head?, goesOn char = false

theorem ends_cons {char : Char} {rest : List Char} :
    Ends (char :: rest) ↔ goesOn char = false := by
  simp [Ends]

theorem scanDigits_append {digits rest : List Char} (nonempty : digits ≠ [])
    (isDigit : ∀ char ∈ digits, char.isDigit)
    (stops : ∀ char ∈ rest.head?, char.isDigit = false) :
    scanDigits (digits ++ rest) = .ok (digits, rest) := by
  have taken : rest.takeWhile Char.isDigit = [] := by
    cases rest with
    | nil => rfl
    | cons char rest => simp [stops char rfl]
  have dropped : rest.dropWhile Char.isDigit = rest := by
    cases rest with
    | nil => rfl
    | cons char rest => simp [stops char rfl]
  unfold scanDigits
  rw [List.takeWhile_append_of_pos isDigit, List.dropWhile_append_of_pos isDigit, taken, dropped,
    List.append_nil]
  split
  · contradiction
  · rfl

theorem scanSign_append (negative : Bool) {rest : List Char}
    (stops : ∀ char ∈ rest.head?, char ≠ '-') :
    scanSign ((if negative then ['-'] else []) ++ rest) = (negative, rest) := by
  cases negative with
  | true => rfl
  | false =>
      cases rest with
      | nil => rfl
      | cons char rest =>
          have other := stops char rfl
          simp [scanSign, other]

theorem scanWhole_append {digits rest : List Char} (nonempty : digits ≠ [])
    (isDigit : ∀ char ∈ digits, char.isDigit)
    (noNeedlessZero : digits.head? = some '0' → digits.length ≤ 1)
    (stops : ∀ char ∈ rest.head?, char.isDigit = false) :
    scanWhole (digits ++ rest) = .ok (digits, rest) := by
  have allowed : ¬ (digits.head? = some '0' ∧ 1 < digits.length) := by
    rintro ⟨zero, further⟩
    exact absurd (noNeedlessZero zero) (Nat.not_le.mpr further)
  simp [scanWhole, scanDigits_append nonempty isDigit stops, bind, Except.bind, allowed, pure,
    Except.pure]

theorem scanPlaces_append {places rest : List Char} (isDigit : ∀ char ∈ places, char.isDigit)
    (stops : ∀ char ∈ rest.head?, char.isDigit = false ∧ char ≠ '.') :
    scanPlaces ((if places = [] then [] else '.' :: places) ++ rest) = .ok (places, rest) := by
  by_cases none : places = []
  · subst none
    cases rest with
    | nil => rfl
    | cons char rest =>
        have other := (stops char rfl).2
        simp [scanPlaces, other, pure, Except.pure]
  · simp only [if_neg none, List.cons_append, scanPlaces]
    exact scanDigits_append none isDigit fun char first => (stops char first).1

theorem scanMark_append (mark : Mark) {rest : List Char}
    (stops : ∀ char ∈ rest.head?, char.isDigit) : scanMark (mark.text ++ rest) = (mark, rest) := by
  cases mark with
  | plus => rfl
  | minus => rfl
  | bare =>
      cases rest with
      | nil => rfl
      | cons char rest =>
          have digit := stops char rfl
          have notPlus : char ≠ '+' := by
            rintro rfl
            contradiction
          have notMinus : char ≠ '-' := by
            rintro rfl
            contradiction
          simp [Mark.text, scanMark, notPlus, notMinus]

theorem isDigit_of_head? {digits : List Char} (nonempty : digits ≠ [])
    (isDigit : ∀ char ∈ digits, char.isDigit) (rest : List Char) :
    ∀ char ∈ (digits ++ rest).head?, char.isDigit := by
  cases digits with
  | nil => contradiction
  | cons digit digits =>
      intro char first
      cases first
      exact isDigit digit List.mem_cons_self

def IsPowerLetter (letter : Char) : Prop := letter = 'e' ∨ letter = 'E'

def powerText (letter : Char) : Option Power → List Char
  | none => []
  | some power => letter :: power.mark.text ++ power.digits

def spelled (letter : Char) (spelling : Spelling) : List Char :=
  (if spelling.negative then ['-'] else []) ++
    (spelling.whole ++ ((if spelling.places = [] then [] else '.' :: spelling.places) ++
      powerText letter spelling.power))

theorem text_eq_spelled (spelling : Spelling) : spelling.text = spelled 'e' spelling := by
  obtain ⟨negative, whole, places, power⟩ := spelling
  cases power <;> simp [Spelling.text, spelled, powerText, Power.text]

theorem scanPower_append {letter : Char} (isLetter : IsPowerLetter letter)
    {power : Option Power} {rest : List Char}
    (nonempty : ∀ given ∈ power, given.digits ≠ [])
    (isDigit : ∀ given ∈ power, ∀ char ∈ given.digits, char.isDigit) (ends : Ends rest) :
    scanPower (powerText letter power ++ rest) = .ok (power, rest) := by
  cases power with
  | none =>
      cases rest with
      | nil => rfl
      | cons char rest =>
          have other := ends char rfl
          simp only [goesOn, Bool.or_eq_false_iff, beq_eq_false_iff_ne] at other
          simp [powerText, scanPower, other, pure, Except.pure]
  | some power =>
      have digits := isDigit power rfl
      have some := nonempty power rfl
      have marked := scanMark_append power.mark (isDigit_of_head? some digits rest)
      have scanned : scanDigits (power.digits ++ rest) = .ok (power.digits, rest) :=
        scanDigits_append some digits fun char first => by
          have other := ends char first
          simp only [goesOn, Bool.or_eq_false_iff] at other
          exact other.1.1.1
      have announced : letter = 'e' ∨ letter = 'E' := isLetter
      simp [powerText, scanPower, announced, marked, scanned, bind, Except.bind, pure,
        Except.pure]

theorem powerText_stops {letter : Char} (isLetter : IsPowerLetter letter)
    (power : Option Power) {rest : List Char} (ends : Ends rest) :
    ∀ char ∈ (powerText letter power ++ rest).head?, char.isDigit = false ∧ char ≠ '.' := by
  intro char first
  cases power with
  | none =>
      have other := ends char first
      simp only [goesOn, Bool.or_eq_false_iff, beq_eq_false_iff_ne] at other
      exact ⟨other.1.1.1, other.1.1.2⟩
  | some power =>
      cases first
      obtain rfl | rfl := isLetter <;> exact ⟨by decide, by decide⟩

theorem placesText_stops {letter : Char} (isLetter : IsPowerLetter letter) (places : List Char)
    (power : Option Power) {rest : List Char} (ends : Ends rest) :
    ∀ char ∈ ((if places = [] then [] else '.' :: places) ++
      (powerText letter power ++ rest)).head?, char.isDigit = false := by
  intro char first
  split at first
  · exact (powerText_stops isLetter power ends char first).1
  · cases first
    decide

/-- A well-formed spelling is scanned from its text. -/
theorem scan_append {letter : Char} (isLetter : IsPowerLetter letter) {spelling : Spelling}
    (wellFormed : spelling.WellFormed) {rest : List Char} (ends : Ends rest) :
    scan (spelled letter spelling ++ rest) = .ok (spelling, rest) := by
  obtain ⟨negative, whole, places, power⟩ := spelling
  have wholeFirst := isDigit_of_head? wellFormed.whole_ne_nil wellFormed.whole_isDigit
    ((if places = [] then [] else '.' :: places) ++ (powerText letter power ++ rest))
  have sign := scanSign_append negative (fun char first minus => by
    have digit := wholeFirst char first
    rw [minus] at digit
    contradiction)
  have wholeScan := scanWhole_append wellFormed.whole_ne_nil wellFormed.whole_isDigit
    wellFormed.noNeedlessZero (placesText_stops isLetter places power ends)
  have placesScan := scanPlaces_append wellFormed.places_isDigit
    (powerText_stops isLetter power ends)
  have powerScan :=
    scanPower_append isLetter wellFormed.power_ne_nil wellFormed.power_isDigit ends
  simp only at wholeScan placesScan powerScan
  simp only [spelled, List.append_assoc]
  simp [scan, sign, wholeScan, placesScan, powerScan, bind, Except.bind, pure, Except.pure]

theorem spelled_eq_cons (letter : Char) {spelling : Spelling} (wellFormed : spelling.WellFormed) :
    ∃ char later, spelled letter spelling = char :: later ∧ (char = '-' ∨ char.isDigit) := by
  obtain ⟨digit, digits, wholeEq⟩ := List.exists_cons_of_ne_nil wellFormed.whole_ne_nil
  have isDigit := wellFormed.whole_isDigit digit (by simp [wholeEq])
  cases negative : spelling.negative with
  | true => exact ⟨'-', _, by simp [spelled, negative]; rfl, .inl rfl⟩
  | false => exact ⟨digit, _, by simp [spelled, negative, wholeEq]; rfl, .inr isDigit⟩

end Number

/-! ## Quoted text -/

namespace Quoted

inductive Spells : List Nat → List Char → Prop
  | nil : Spells [] []
  | plain {char : Char} {units : List Nat} {chars : List Char} (visible : ¬ char < ' ')
      (noQuote : char ≠ '"') (noEscape : char ≠ '\\') (later : Spells units chars) :
      Spells (char.toNat :: units) (char :: chars)
  | escaped {char : Char} {unit : Nat} {units : List Nat} {chars : List Char}
      (escape : escapedUnit? char = some unit) (later : Spells units chars) :
      Spells (unit :: units) ('\\' :: char :: chars)
  | code {a b c d : Char} {unit : Nat} {units : List Nat} {chars : List Char}
      (digits : hexUnit? a b c d = some unit) (later : Spells units chars) :
      Spells (unit :: units) ('\\' :: 'u' :: a :: b :: c :: d :: chars)

theorem scan_escaped {char : Char} {unit : Nat} (escape : escapedUnit? char = some unit)
    (rest : List Char) : scan ('\\' :: char :: rest) = withUnit unit (scan rest) := by
  have noCode : char ≠ 'u' := by
    rintro rfl
    contradiction
  simp [scan, noCode, escape]

theorem scan_spells {units : List Nat} {chars : List Char} (spells : Spells units chars)
    (rest : List Char) : scan (chars ++ '"' :: rest) = (units, .closed rest) := by
  induction spells with
  | nil => simp [scan]
  | plain visible noQuote noEscape later ih => simp [scan, visible, noEscape, ih, withUnit]
  | escaped escape later ih =>
      rw [List.cons_append, List.cons_append, scan_escaped escape, ih]
      rfl
  | code digits later ih => simp [scan, digits, ih, withUnit]

theorem hexDigit?_digitChar : ∀ digit < 16, hexDigit? (Nat.digitChar digit) = some digit := by
  decide

theorem spells_codeEscape {code : Nat} (bound : code < 256) {units : List Nat}
    {chars : List Char} (later : Spells units chars) :
    Spells (code :: units) (codeEscape code ++ chars) := by
  have high := hexDigit?_digitChar (code / 16) (by omega)
  have low := hexDigit?_digitChar (code % 16) (by omega)
  have zero : hexDigit? '0' = some 0 := by decide
  have unit : code / 16 * 16 + code % 16 = code := by omega
  have digits : hexUnit? '0' '0' (Nat.digitChar (code / 16)) (Nat.digitChar (code % 16)) =
      some code := by
    simp [hexUnit?, zero, high, low, unit]
  exact .code digits later

theorem spells_encodeChar (char : Char) {units : List Nat} {chars : List Char}
    (later : Spells units chars) : Spells (char.toNat :: units) (encodeChar char ++ chars) := by
  unfold encodeChar
  split_ifs with quote backslash backspace formFeed lineFeed carriageReturn tab control
  · rw [quote]
    exact .escaped rfl later
  · rw [backslash]
    exact .escaped rfl later
  · rw [backspace]
    exact .escaped rfl later
  · rw [formFeed]
    exact .escaped rfl later
  · rw [lineFeed]
    exact .escaped rfl later
  · rw [carriageReturn]
    exact .escaped rfl later
  · rw [tab]
    exact .escaped rfl later
  · have bound : char.toNat < 32 := control
    exact spells_codeEscape (by omega) later
  · exact .plain control quote backslash later

theorem spells_encode (text : List Char) :
    Spells (text.map Char.toNat) (text.flatMap encodeChar) := by
  induction text with
  | nil => exact .nil
  | cons char text ih => exact spells_encodeChar char ih

theorem scan_encode (text rest : List Char) :
    scan (text.flatMap encodeChar ++ '"' :: rest) = (text.map Char.toNat, .closed rest) :=
  scan_spells (spells_encode text) rest

theorem isLeading_toNat (char : Char) : isLeading char.toNat = false := by
  have valid := char.valid
  simp only [UInt32.isValidChar, Nat.isValidChar] at valid
  simp only [isLeading, Char.toNat, Bool.and_eq_false_iff, decide_eq_false_iff_not]
  omega

theorem isTrailing_toNat (char : Char) : isTrailing char.toNat = false := by
  have valid := char.valid
  simp only [UInt32.isValidChar, Nat.isValidChar] at valid
  simp only [isTrailing, Char.toNat, Bool.and_eq_false_iff, decide_eq_false_iff_not]
  omega

/-- No code point of a character is half of a pair. -/
theorem pair_toNat (text : List Char) : pair (text.map Char.toNat) = .text text := by
  induction text with
  | nil => rfl
  | cons char text ih =>
      cases text with
      | nil => simp [pair, isLeading_toNat, isTrailing_toNat]
      | cons next text =>
          rw [List.map_cons] at ih
          simp [pair, isLeading_toNat, isTrailing_toNat, ih, Paired.cons]

end Quoted

/-! ## Tokens -/

namespace Token

def WellFormed : Token → Prop
  | number spelling => spelling.WellFormed
  | _ => True

/-- The token does not go on in the text after it. -/
def EndsBefore (rest : List Char) : Token → Prop
  | number _ => Number.Ends rest
  | _ => True

end Token

namespace Lexeme

theorem scan_nil : scan [] = [] := by
  rw [scan]

theorem scan_blank {char : Char} (blank : isBlank char) (rest : List Char) :
    scan (char :: rest) = scan rest := by
  rw [scan, if_pos blank]

theorem scan_next {char : Char} (visible : isBlank char = false) (rest : List Char) :
    scan (char :: rest) = (next char rest).1 :: scan (next char rest).2 := by
  rw [scan, if_neg (by simp [visible])]

theorem ofQuoted_encode (text : String) (rest : List Char) :
    ofQuoted (text.toList.flatMap Quoted.encodeChar ++ '"' :: rest) =
      (.token (.text text), rest) := by
  simp [ofQuoted, Quoted.scan_encode, Quoted.pair_toNat]

theorem next_number {char : Char} (first : char = '-' ∨ char.isDigit) (rest : List Char) :
    isBlank char = false ∧ next char rest = ofNumber (char :: rest) := by
  have others : ∀ other : Char, other.isDigit = false → other ≠ '-' → char ≠ other := by
    rintro other noDigit notMinus rfl
    cases first with
    | inl minus => exact notMinus minus
    | inr digit => simp [digit] at noDigit
  constructor
  · simp [isBlank, others ' ' (by decide) (by decide), others '\n' (by decide) (by decide),
      others '\t' (by decide) (by decide), others '\r' (by decide) (by decide)]
  · simp only [next, if_neg (others ',' (by decide) (by decide)),
      if_neg (others ':' (by decide) (by decide)), if_neg (others '[' (by decide) (by decide)),
      if_neg (others ']' (by decide) (by decide)), if_neg (others '\x7b' (by decide) (by decide)),
      if_neg (others '\x7d' (by decide) (by decide)), if_neg (others '"' (by decide) (by decide)),
      if_pos first]

theorem scan_number {letter : Char} (isLetter : Number.IsPowerLetter letter)
    {spelling : Spelling} (wellFormed : spelling.WellFormed) {rest : List Char}
    (ends : Number.Ends rest) :
    scan (Number.spelled letter spelling ++ rest) = .token (.number spelling) :: scan rest := by
  have scanned := Number.scan_append isLetter wellFormed ends
  obtain ⟨char, later, textEq, first⟩ := Number.spelled_eq_cons letter wellFormed
  rw [textEq, List.cons_append] at scanned ⊢
  obtain ⟨visible, nextEq⟩ := next_number first (later ++ rest)
  rw [scan_next visible, nextEq]
  simp [ofNumber, scanned]

/-- A text that begins with a token is scanned into the token and what follows. -/
theorem scan_chars {token : Token} (wellFormed : token.WellFormed) {rest : List Char}
    (ends : token.EndsBefore rest) : scan (token.chars ++ rest) = .token token :: scan rest := by
  cases token with
  | comma => exact scan_next rfl rest
  | colon => exact scan_next rfl rest
  | openList => exact scan_next rfl rest
  | closeList => exact scan_next rfl rest
  | openMap => exact scan_next rfl rest
  | closeMap => exact scan_next rfl rest
  | null => exact scan_next rfl _
  | boolean value => cases value <;> exact scan_next rfl _
  | number spelling =>
      rw [Token.chars, Number.text_eq_spelled]
      exact scan_number (.inl rfl) wellFormed ends
  | text value =>
      have quoted := ofQuoted_encode value rest
      have first : next '"' (value.toList.flatMap Quoted.encodeChar ++ '"' :: rest) =
          (.token (.text value), rest) := quoted
      simp only [Token.chars, Quoted.encode, List.append_assoc, List.cons_append,
        List.nil_append]
      rw [scan_next rfl, first]

theorem scan_eq_nil_iff (chars : List Char) :
    scan chars = [] ↔ ∀ char ∈ chars, isBlank char := by
  induction chars with
  | nil => simp [scan_nil]
  | cons char chars ih =>
      cases blank : isBlank char with
      | true => simp [scan_blank blank, ih, blank]
      | false => simp [scan_next blank, blank]

end Lexeme

/-! ## Sequences of tokens -/

theorem Token.flatten_separated (item next : List Token) (items : List (List Token)) :
    List.flatten ((item :: next :: items).intersperse [comma]) =
      item ++ comma :: List.flatten ((next :: items).intersperse [comma]) := rfl

/-- The tokens are scanned from their text, whatever follows that no number
goes on in. -/
def ScansBack (tokens : List Token) : Prop :=
  ∀ rest : List Char, Number.Ends rest →
    Lexeme.scan (tokens.flatMap Token.chars ++ rest) =
      tokens.map .token ++ Lexeme.scan rest

namespace ScansBack

theorem singleton {token : Token} (wellFormed : token.WellFormed) : ScansBack [token] := by
  intro rest ends
  have endsBefore : token.EndsBefore rest := by
    cases token <;> first | exact ends | trivial
  simp [Lexeme.scan_chars wellFormed endsBefore]

theorem cons {token : Token} {tokens : List Token} (wellFormed : token.WellFormed)
    (ends : ∀ rest : List Char, token.EndsBefore rest) (back : ScansBack tokens) :
    ScansBack (token :: tokens) := by
  intro rest restEnds
  rw [List.flatMap_cons, List.append_assoc, Lexeme.scan_chars wellFormed (ends _),
    back rest restEnds, List.map_cons, List.cons_append]

/-- What stands between brackets is scanned item by item: after each item comes
a comma or the bracket. -/
theorem separated {items : List (List Token)} (each : ∀ item ∈ items, ScansBack item)
    {close : Token} (bracket : close = .closeList ∨ close = .closeMap) (rest : List Char) :
    Lexeme.scan
        ((List.flatten (items.intersperse [.comma]) ++ [close]).flatMap Token.chars ++ rest) =
      (List.flatten (items.intersperse [.comma]) ++ [close]).map .token ++ Lexeme.scan rest := by
  have closeEnds : Number.Ends (close.chars ++ rest) := by
    obtain rfl | rfl := bracket <;> exact Number.ends_cons.mpr (by decide)
  have closeScan : Lexeme.scan (close.chars ++ rest) = .token close :: Lexeme.scan rest := by
    obtain rfl | rfl := bracket <;> exact Lexeme.scan_chars (by trivial) (by trivial)
  induction items with
  | nil => simpa using closeScan
  | cons item items ih =>
      have itemBack := each item List.mem_cons_self
      have later := ih fun item member => each item (List.mem_cons_of_mem _ member)
      cases items with
      | nil => simpa [closeScan] using itemBack _ closeEnds
      | cons next items =>
          generalize others : List.flatten ((next :: items).intersperse [.comma]) ++ [close] =
            joined at later
          have commaEnds :
              Number.Ends (Token.comma.chars ++ (joined.flatMap Token.chars ++ rest)) :=
            Number.ends_cons.mpr (by decide)
          have commaScan : Lexeme.scan (Token.comma.chars ++ (joined.flatMap Token.chars ++ rest)) =
              .token .comma :: Lexeme.scan (joined.flatMap Token.chars ++ rest) :=
            Lexeme.scan_chars (by trivial) (by trivial)
          rw [Token.flatten_separated, List.append_assoc, List.cons_append, others,
            List.flatMap_append, List.flatMap_cons, List.append_assoc, List.append_assoc,
            itemBack _ commaEnds, commaScan, later, List.map_append, List.append_assoc,
            List.map_cons, List.cons_append]

theorem list {items : List (List Token)} (each : ∀ item ∈ items, ScansBack item) :
    ScansBack (Token.list items) :=
  cons (by trivial) (fun _ => by trivial) fun rest _ => separated each (.inl rfl) rest

theorem scan_map {members : List (String × List Token)}
    (each : ∀ member ∈ members, ScansBack member.2) (rest : List Char) :
    Lexeme.scan ((Token.map members).flatMap Token.chars ++ rest) =
      (Token.map members).map .token ++ Lexeme.scan rest := by
  rw [Token.map, List.cons_append, List.flatMap_cons, List.append_assoc,
    Lexeme.scan_chars (by trivial) (by trivial), separated _ (.inr rfl), List.map_cons,
    List.cons_append]
  intro item member
  obtain ⟨⟨name, value⟩, given, rfl⟩ := List.mem_map.mp member
  exact cons (by trivial) (fun _ => by trivial)
    (cons (by trivial) (fun _ => by trivial) (each _ given))

end ScansBack

end HalfMatrix.Json
