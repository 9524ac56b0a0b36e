import HalfMatrix.Print.Outlet
import HalfMatrix.Proofs.Documents.Scanning

/-!
# Texts in the bytes of files

Bytes that begin with a text are a text if the rest of them is one.  What is
written to a file is found again behind the place where it was written, in
front of the old bytes that it did not reach.
-/

set_option autoImplicit false

namespace HalfMatrix

/-! ## Texts in front of bytes -/

namespace Bytes

theorem fromUTF8?_eq_some_iff {bytes : ByteArray} {text : String} :
    String.fromUTF8? bytes = some text ↔ text.toByteArray = bytes := by
  unfold String.fromUTF8?
  constructor
  · intro found
    split at found
    · cases found
      rfl
    · cases found
  · rintro rfl
    rw [dif_pos text.isValidUTF8]
    rfl

theorem isValidUTF8_append_iff (chars : List Char) (bytes : ByteArray) :
    (chars.utf8Encode ++ bytes).IsValidUTF8 ↔ bytes.IsValidUTF8 := by
  induction chars with
  | nil => simp
  | cons char chars ih =>
      rw [← List.singleton_append, List.utf8Encode_append, ByteArray.append_assoc,
        ByteArray.isValidUTF8_utf8Encode_singleton_append_iff, ih]

theorem fromUTF8?_append (text : String) (bytes : ByteArray) :
    String.fromUTF8? (text.toByteArray ++ bytes) = (String.fromUTF8? bytes).map (text ++ ·) := by
  cases rest : String.fromUTF8? bytes with
  | some later =>
      rw [Option.map_some, fromUTF8?_eq_some_iff, String.toByteArray_append,
        fromUTF8?_eq_some_iff.mp rest]
  | none =>
      have invalid : ¬ bytes.IsValidUTF8 := by
        intro valid
        simp [String.fromUTF8?, valid] at rest
      have still : ¬ (text.toByteArray ++ bytes).IsValidUTF8 := by
        rwa [← String.utf8Encode_toList, isValidUTF8_append_iff]
      simp [String.fromUTF8?, still]

/-! ## Blanks -/

def isBlank (byte : UInt8) : Bool :=
  byte == 0x20 || byte == 0x0a || byte == 0x09 || byte == 0x0d

def AllBlank (bytes : ByteArray) : Prop := ∀ byte ∈ bytes.data.toList, isBlank byte

theorem exists_blank_byte {char : Char} (blank : Json.Lexeme.isBlank char) :
    ∃ byte : UInt8, isBlank byte ∧ [char].utf8Encode = [byte].toByteArray := by
  simp only [Json.Lexeme.isBlank, Bool.or_eq_true, beq_iff_eq] at blank
  obtain ((rfl | rfl) | rfl) | rfl := blank
  · exact ⟨0x20, rfl, rfl⟩
  · exact ⟨0x0a, rfl, rfl⟩
  · exact ⟨0x09, rfl, rfl⟩
  · exact ⟨0x0d, rfl, rfl⟩

theorem allBlank_utf8Encode {chars : List Char}
    (blank : ∀ char ∈ chars, Json.Lexeme.isBlank char) : AllBlank chars.utf8Encode := by
  induction chars with
  | nil => simp [AllBlank]
  | cons char chars ih =>
      obtain ⟨first, firstBlank, firstEq⟩ := exists_blank_byte (blank char List.mem_cons_self)
      have later := ih fun other member => blank other (List.mem_cons_of_mem _ member)
      intro byte member
      rw [← List.singleton_append, List.utf8Encode_append, ByteArray.toList_data_append, firstEq,
        List.toList_data_toByteArray, List.singleton_append, List.mem_cons] at member
      obtain rfl | behind := member
      · exact firstBlank
      · exact later byte behind

theorem exists_blank_char {byte : UInt8} (blank : isBlank byte) :
    ∃ char : Char, Json.Lexeme.isBlank char ∧ [char].utf8Encode = [byte].toByteArray := by
  simp only [isBlank, Bool.or_eq_true, beq_iff_eq] at blank
  obtain ((rfl | rfl) | rfl) | rfl := blank
  · exact ⟨' ', rfl, rfl⟩
  · exact ⟨'\n', rfl, rfl⟩
  · exact ⟨'\t', rfl, rfl⟩
  · exact ⟨'\r', rfl, rfl⟩

theorem exists_blank_chars {bytes : List UInt8} (blank : ∀ byte ∈ bytes, isBlank byte) :
    ∃ chars : List Char, (∀ char ∈ chars, Json.Lexeme.isBlank char) ∧
      chars.utf8Encode = bytes.toByteArray := by
  induction bytes with
  | nil => exact ⟨[], by simp⟩
  | cons byte bytes ih =>
      obtain ⟨char, charBlank, charEq⟩ := exists_blank_char (blank byte List.mem_cons_self)
      obtain ⟨chars, charsBlank, charsEq⟩ :=
        ih fun other member => blank other (List.mem_cons_of_mem _ member)
      refine ⟨char :: chars, List.forall_mem_cons.mpr ⟨charBlank, charsBlank⟩, ?_⟩
      rw [← List.singleton_append, List.utf8Encode_append, charEq, charsEq,
        ← List.toByteArray_append, List.singleton_append]

/-- Bytes are a text of blanks exactly if each of them is a blank. -/
theorem allBlank_iff {bytes : ByteArray} :
    AllBlank bytes ↔ ∃ text, String.fromUTF8? bytes = some text ∧
      ∀ char ∈ text.toList, Json.Lexeme.isBlank char := by
  constructor
  · intro blank
    obtain ⟨chars, charsBlank, charsEq⟩ := exists_blank_chars blank
    refine ⟨String.ofList chars, fromUTF8?_eq_some_iff.mpr ?_, by simpa using charsBlank⟩
    rw [String.toByteArray_ofList, charsEq]
    exact ByteArray.ext (by simp [List.data_toByteArray])
  · rintro ⟨text, found, blank⟩
    rw [← fromUTF8?_eq_some_iff.mp found, ← String.utf8Encode_toList]
    exact allBlank_utf8Encode blank

end Bytes

namespace File

theorem remaining_seek_write (file : File) (bytes : ByteArray) :
    ((file.write bytes).seek file.cursor).remaining =
      bytes ++ file.content.extract (file.cursor + bytes.size) file.content.size := by
  unfold write
  split_ifs with empty
  · rw [ByteArray.size_eq_zero_iff.mp empty]
    simp [seek, remaining]
  · have gap : (ByteArray.mk (Array.replicate (file.cursor - file.content.size) 0)).size =
        file.cursor - file.content.size := Array.size_replicate
    have front : (file.content.extract 0 file.cursor ++
        ByteArray.mk (Array.replicate (file.cursor - file.content.size) 0)).size =
          file.cursor := by
      rw [ByteArray.size_append, ByteArray.size_extract, gap]
      omega
    simp only [seek, remaining]
    generalize file.content.extract 0 file.cursor ++
      ByteArray.mk (Array.replicate (file.cursor - file.content.size) 0) = before at front ⊢
    rw [ByteArray.append_assoc]
    exact ByteArray.extract_append_eq_right front.symm ByteArray.size_append

end File

end HalfMatrix
