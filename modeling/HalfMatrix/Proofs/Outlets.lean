import HalfMatrix.Print.Printer
import Mathlib.Data.List.Basic

/-!
# What an outlet keeps of a text

A text is written piece after piece, a piece portion after portion, and the
first failure ends it.  What an outlet keeps does not show any of that: standard
output, a buffer and a file get the whole text, a stream gets as much of its
beginning as it has room for.  `receive_append` says that two texts are kept
like their concatenation, `Target.writeAll_eq` that the pieces are kept like
the text.
-/

set_option autoImplicit false

namespace HalfMatrix

theorem Bytes.extract_zero_congr {bytes : ByteArray} {stop stop' : Nat}
    (same : min stop bytes.size = min stop' bytes.size) :
    bytes.extract 0 stop = bytes.extract 0 stop' := by
  apply ByteArray.ext
  rw [ByteArray.data_extract, ByteArray.data_extract]
  exact Array.extract_eq_extract_right.mpr same

/-! ## Streams -/

namespace Stream

theorem atMost_le (greatest : Option Nat) (count : Nat) : atMost greatest count ≤ count := by
  cases greatest with
  | none => exact Nat.le_refl count
  | some greatest => exact Nat.min_le_right greatest count

theorem atMost_map_sub (greatest : Option Nat) (first second : Nat) :
    atMost (greatest.map (· - first)) second = atMost greatest (first + second) - first := by
  cases greatest with
  | none => simp [atMost]
  | some greatest =>
      simp only [Option.map_some, atMost]
      omega

theorem min_atMost_add (greatest : Option Nat) (first second : Nat) :
    min (atMost greatest (first + second)) first = atMost greatest first := by
  cases greatest with
  | none => simp [atMost]
  | some greatest =>
      simp only [atMost]
      omega

def capacity (stream : Stream) : Option Nat :=
  if stream.chunk = some 0 then some 0 else stream.limit.map (· - stream.taken.size)

def accepts (stream : Stream) (count : Nat) : Nat := atMost stream.capacity count

/-- The stream with as much of the beginning of `bytes` as it takes. -/
def receive (stream : Stream) (bytes : ByteArray) : Stream :=
  stream.take (bytes.extract 0 (stream.accepts bytes.size))

def Fits (stream : Stream) (bytes : ByteArray) : Prop := bytes.size ≤ stream.accepts bytes.size

instance (stream : Stream) (bytes : ByteArray) : Decidable (stream.Fits bytes) :=
  inferInstanceAs (Decidable (_ ≤ _))

def failure (stream : Stream) : WriteError := if stream.silent then .nothingTaken else .full

theorem accepts_le (stream : Stream) (count : Nat) : stream.accepts count ≤ count :=
  atMost_le stream.capacity count

theorem accepts_eq_room {stream : Stream} (moves : stream.chunk ≠ some 0) (count : Nat) :
    stream.accepts count = stream.room count := by
  rw [accepts, capacity, if_neg moves, room]

theorem accepts_of_stuck {stream : Stream} (stuck : stream.chunk = some 0) (count : Nat) :
    stream.accepts count = 0 := by
  rw [accepts, capacity, if_pos stuck]
  exact Nat.zero_min count

theorem take_empty (stream : Stream) : stream.take .empty = stream := by
  rw [take, ByteArray.append_empty]

theorem receive_of_accepts_eq_zero {stream : Stream} {bytes : ByteArray}
    (nothing : stream.accepts bytes.size = 0) : stream.receive bytes = stream := by
  rw [receive, nothing, ByteArray.extract_same, take_empty]

theorem receive_empty (stream : Stream) : stream.receive .empty = stream :=
  receive_of_accepts_eq_zero (Nat.le_zero.mp (stream.accepts_le 0))

theorem receive_of_fits {stream : Stream} {bytes : ByteArray} (fits : stream.Fits bytes) :
    stream.receive bytes = stream.take bytes := by
  have all : stream.accepts bytes.size = bytes.size :=
    Nat.le_antisymm (stream.accepts_le bytes.size) fits
  rw [receive, all, ByteArray.extract_zero_size]

theorem size_taken_receive (stream : Stream) (bytes : ByteArray) :
    (stream.receive bytes).taken.size = stream.taken.size + stream.accepts bytes.size := by
  have part := stream.accepts_le bytes.size
  simp only [receive, take, ByteArray.size_append, ByteArray.size_extract]
  omega

theorem capacity_receive (stream : Stream) (bytes : ByteArray) :
    (stream.receive bytes).capacity = stream.capacity.map (· - bytes.size) := by
  by_cases stuck : stream.chunk = some 0
  · rw [receive_of_accepts_eq_zero (accepts_of_stuck stuck bytes.size), capacity, if_pos stuck,
      Option.map_some, Nat.zero_sub]
  · have moves : (stream.receive bytes).chunk ≠ some 0 := stuck
    have room := accepts_eq_room stuck bytes.size
    have sameLimit : (stream.receive bytes).limit = stream.limit := rfl
    rw [capacity, if_neg moves, capacity, if_neg stuck, size_taken_receive, sameLimit, room]
    cases bounded : stream.limit with
    | none => rfl
    | some limit =>
        simp only [Stream.room, bounded, Option.map_some, atMost, Option.some.injEq]
        omega

/-- Two texts after one another are taken like their concatenation. -/
theorem receive_append (stream : Stream) (first second : ByteArray) :
    stream.receive (first ++ second) = (stream.receive first).receive second := by
  have front : first.extract 0 (stream.accepts (first.size + second.size)) =
      first.extract 0 (stream.accepts first.size) := by
    apply Bytes.extract_zero_congr
    rw [accepts, min_atMost_add]
    exact (Nat.min_eq_left (stream.accepts_le first.size)).symm
  have rest : (stream.receive first).accepts second.size =
      stream.accepts (first.size + second.size) - first.size := by
    rw [accepts, capacity_receive, atMost_map_sub]
    rfl
  calc
    stream.receive (first ++ second)
        = stream.take (first.extract 0 (stream.accepts first.size) ++
            second.extract 0 ((stream.receive first).accepts second.size)) := by
          rw [receive, ByteArray.size_append, ByteArray.extract_append, front, Nat.zero_sub, rest]
    _ = (stream.receive first).receive second := by
          simp only [receive, take, ByteArray.append_assoc]

theorem fits_append {stream : Stream} {first second : ByteArray} :
    stream.Fits (first ++ second) ↔ stream.Fits first ∧ (stream.receive first).Fits second := by
  unfold Fits accepts
  rw [capacity_receive, atMost_map_sub, ByteArray.size_append]
  cases stream.capacity with
  | none => simp [atMost]
  | some capacity =>
      simp only [atMost]
      omega

theorem receive_of_not_fits {stream : Stream} {first : ByteArray} (full : ¬ stream.Fits first)
    (second : ByteArray) : (stream.receive first).receive second = stream.receive first := by
  apply receive_of_accepts_eq_zero
  unfold Fits accepts at full
  rw [accepts, capacity_receive, atMost_map_sub]
  cases bounded : stream.capacity with
  | none => exact absurd (Nat.le_refl first.size) (by rwa [bounded] at full)
  | some capacity =>
      rw [bounded] at full
      simp only [atMost] at full ⊢
      omega

/-- A stream takes all of a text that is not empty only if it has taken all before it. -/
theorem fits_receive_iff {stream : Stream} {first second : ByteArray} (nonempty : second.size ≠ 0) :
    (stream.receive first).Fits second ↔ stream.Fits (first ++ second) := by
  rw [fits_append]
  refine ⟨fun fits => ⟨?_, fits⟩, And.right⟩
  by_contra full
  have stuck := congrArg (fun sink => sink.taken.size) (receive_of_not_fits full second)
  simp only [size_taken_receive] at stuck
  have all : second.size ≤ (stream.receive first).accepts second.size := fits
  omega

section Untouched

variable {stream : Stream} (moves : stream.chunk ≠ some 0) (untouched : stream.taken = .empty)

include moves untouched

theorem capacity_of_untouched : stream.capacity = stream.limit := by
  rw [capacity, if_neg moves, untouched]
  exact Option.map_id'

theorem fits_of_untouched (bytes : ByteArray) :
    stream.Fits bytes ↔ ∀ most, stream.limit = some most → bytes.size ≤ most := by
  rw [Fits, accepts, capacity_of_untouched moves untouched]
  cases stream.limit with
  | none => simp [atMost]
  | some limit =>
      simp only [atMost, Nat.le_min, Nat.le_refl, and_true, Option.some.injEq, forall_eq']

theorem taken_of_untouched (bytes : ByteArray) :
    (stream.receive bytes).taken = bytes.extract 0 (atMost stream.limit bytes.size) := by
  rw [receive, take, untouched, ByteArray.empty_append, accepts,
    capacity_of_untouched moves untouched]

end Untouched

/-! ### Portions -/

theorem portion_eq_ok {stream : Stream} {size count : Nat}
    (taken : stream.portion size = .ok count) :
    count = atMost stream.chunk (stream.room size) ∧
      (stream.room size = 0 → 0 < size → stream.silent = true) := by
  simp only [portion] at taken
  split at taken
  · cases taken
  · rename_i willing
    refine ⟨(Except.ok.inj taken).symm, fun noRoom positive => ?_⟩
    by_contra loud
    exact willing ⟨noRoom, positive, loud⟩

theorem portion_eq_error {stream : Stream} {size : Nat} {error : WriteError}
    (refused : stream.portion size = .error error) :
    stream.room size = 0 ∧ stream.failure = error := by
  simp only [portion] at refused
  split at refused
  · rename_i unwilling
    obtain ⟨noRoom, _, loud⟩ := unwilling
    exact ⟨noRoom, by rw [failure, if_neg loud, Except.error.inj refused]⟩
  · cases refused

/-- Only a stream that never takes anything takes nothing although there is room. -/
theorem room_eq_zero_of_portion {stream : Stream} {size : Nat}
    (nothing : atMost stream.chunk (stream.room size) = 0) (moves : stream.chunk ≠ some 0) :
    stream.room size = 0 := by
  cases bounded : stream.chunk with
  | none => rwa [bounded] at nothing
  | some chunk =>
      have positive : chunk ≠ 0 := fun zero => moves (by rw [bounded, zero])
      rw [bounded, atMost] at nothing
      omega

theorem portion_le_accepts {stream : Stream} {size count : Nat}
    (taken : stream.portion size = .ok count) (positive : 0 < count) :
    stream.chunk ≠ some 0 ∧ count ≤ stream.accepts size := by
  obtain ⟨amount, _⟩ := portion_eq_ok taken
  have moves : stream.chunk ≠ some 0 := by
    intro stuck
    rw [amount, stuck, atMost, Nat.zero_min] at positive
    exact absurd positive (Nat.lt_irrefl 0)
  refine ⟨moves, ?_⟩
  rw [accepts_eq_room moves, amount]
  exact atMost_le _ _

theorem fits_extract {stream : Stream} {bytes : ByteArray} {count : Nat}
    (few : count ≤ stream.accepts bytes.size) : stream.Fits (bytes.extract 0 count) := by
  have part := stream.accepts_le bytes.size
  have least := min_atMost_add stream.capacity count (bytes.size - count)
  rw [Nat.add_sub_cancel' (Nat.le_trans few part)] at least
  simp only [accepts] at few part
  rw [Fits, accepts, ByteArray.size_extract, Nat.sub_zero, Nat.min_eq_left (by omega), ← least]
  omega

theorem extract_append_rest {bytes : ByteArray} {count : Nat} (few : count ≤ bytes.size) :
    bytes.extract 0 count ++ bytes.extract count bytes.size = bytes := by
  rw [ByteArray.extract_append_extract, Nat.zero_min, Nat.max_eq_right few,
    ByteArray.extract_zero_size]

/-- What becomes of a stream and a text that is written to it: the stream takes as much as it
can, and the writing fails if that is not all. -/
structure Absorbs (stream : Stream) (bytes : ByteArray)
    (outcome : Stream × Except WriteError Unit) : Prop where
  kept : outcome.1 = stream.receive bytes
  success : outcome.2 = .ok () ↔ stream.Fits bytes
  failed : stream.chunk ≠ some 0 → ¬ stream.Fits bytes → outcome.2 = .error stream.failure

theorem absorbs_nothing {stream : Stream} {bytes : ByteArray} (nonempty : bytes.size ≠ 0)
    (noRoom : stream.chunk ≠ some 0 → stream.room bytes.size = 0) {error : WriteError}
    (failed : stream.chunk ≠ some 0 → stream.failure = error) :
    stream.Absorbs bytes (stream, .error error) := by
  have nothing : stream.accepts bytes.size = 0 := by
    by_cases stuck : stream.chunk = some 0
    · exact accepts_of_stuck stuck bytes.size
    · rw [accepts_eq_room stuck, noRoom stuck]
  have full : ¬ stream.Fits bytes := by
    rw [Fits, nothing]
    omega
  exact ⟨(receive_of_accepts_eq_zero nothing).symm, by simp [full],
    fun moves _ => congrArg Except.error (failed moves).symm⟩

theorem Absorbs.portion {stream : Stream} {first second : ByteArray}
    {outcome : Stream × Except WriteError Unit} (moves : stream.chunk ≠ some 0)
    (fits : stream.Fits first) (later : (stream.take first).Absorbs second outcome) :
    stream.Absorbs (first ++ second) outcome := by
  rw [← receive_of_fits fits] at later
  have whole : stream.Fits (first ++ second) ↔ (stream.receive first).Fits second := by
    rw [fits_append]
    exact and_iff_right fits
  refine ⟨?_, later.success.trans whole.symm, fun _ full => later.failed moves ?_⟩
  · rw [later.kept, receive_append]
  · exact whole.not.mp full

/-- A stream takes as much of a text as it can, whatever it takes at once. -/
theorem absorbs_writeAll (stream : Stream) (bytes : ByteArray) :
    stream.Absorbs bytes (stream.writeAll bytes) := by
  -- The induction follows the portions.
  fun_induction writeAll stream bytes with
  | case1 stream bytes empty =>
      have fits : stream.Fits bytes := by
        rw [Fits, empty]
        exact Nat.zero_le _
      rw [ByteArray.size_eq_zero_iff] at empty
      refine ⟨?_, by simp [fits], fun _ full => absurd fits full⟩
      rw [receive_of_fits fits, empty, take_empty]
  | case2 stream bytes nonempty error refused =>
      obtain ⟨noRoom, failed⟩ := portion_eq_error refused
      exact absorbs_nothing nonempty (fun _ => noRoom) (fun _ => failed)
  | case3 stream bytes nonempty count taken positive ih =>
      obtain ⟨moves, few⟩ := portion_le_accepts taken positive
      have absorbed := ih.portion moves (fits_extract few)
      rwa [extract_append_rest (Nat.le_trans few (stream.accepts_le _))] at absorbed
  | case4 stream bytes nonempty count taken none =>
      obtain ⟨amount, willing⟩ := portion_eq_ok taken
      have noRoom := room_eq_zero_of_portion (amount.symm.trans (Nat.eq_zero_of_not_pos none))
      refine absorbs_nothing nonempty noRoom fun moves => ?_
      rw [failure, if_pos (willing (noRoom moves) (Nat.pos_of_ne_zero nonempty))]

end Stream

/-! ## Files -/

namespace File

def front (file : File) : ByteArray :=
  file.content.extract 0 file.cursor ++ ⟨Array.replicate (file.cursor - file.content.size) 0⟩

theorem size_front (file : File) : file.front.size = file.cursor := by
  have gap : (ByteArray.mk (Array.replicate (file.cursor - file.content.size) 0)).size =
      file.cursor - file.content.size := Array.size_replicate
  rw [front, ByteArray.size_append, ByteArray.size_extract, gap]
  omega

theorem front_of_le {file : File} (inside : file.cursor ≤ file.content.size) :
    file.front = file.content.extract 0 file.cursor := by
  rw [front, Nat.sub_eq_zero_of_le inside]
  exact ByteArray.append_empty

theorem write_empty (file : File) : file.write .empty = file := rfl

theorem write_of_nonempty (file : File) {bytes : ByteArray} (nonempty : bytes.size ≠ 0) :
    file.write bytes =
      { content := file.front ++ bytes ++
          file.content.extract (file.cursor + bytes.size) file.content.size
        cursor := file.cursor + bytes.size } := by
  rw [write, if_neg nonempty]
  rfl

theorem write_append (file : File) (first second : ByteArray) :
    file.write (first ++ second) = (file.write first).write second := by
  by_cases none : first.size = 0
  · rw [ByteArray.size_eq_zero_iff.mp none, ByteArray.empty_append, write_empty]
  by_cases none' : second.size = 0
  · rw [ByteArray.size_eq_zero_iff.mp none', ByteArray.append_empty, write_empty]
  have both : (first ++ second).size ≠ 0 := by
    rw [ByteArray.size_append]
    omega
  have reached : (file.front ++ first).size = file.cursor + first.size := by
    rw [ByteArray.size_append, size_front]
  have inside : (file.write first).cursor ≤ (file.write first).content.size := by
    rw [write_of_nonempty file none, ByteArray.size_append, reached]
    exact Nat.le_add_right _ _
  -- The second text finds the cursor behind the first.
  have front : (file.write first).front = file.front ++ first := by
    rw [front_of_le inside, write_of_nonempty file none]
    exact ByteArray.extract_append_eq_left reached.symm
  have rest : (file.write first).content.extract ((file.write first).cursor + second.size)
        (file.write first).content.size =
      file.content.extract (file.cursor + (first ++ second).size) file.content.size := by
    have stop : min (file.cursor + first.size +
        (min file.content.size file.content.size - (file.cursor + first.size)))
          file.content.size = file.content.size := by omega
    rw [write_of_nonempty file none]
    simp only
    rw [ByteArray.size_append, ← reached, ByteArray.extract_append_size_add,
      ByteArray.extract_extract, ByteArray.size_extract, reached, stop, ByteArray.size_append,
      Nat.add_assoc]
  rw [write_of_nonempty _ none', front, rest, write_of_nonempty file both,
    write_of_nonempty file none, ByteArray.size_append]
  simp only [ByteArray.append_assoc, Nat.add_assoc]

end File

/-! ## Targets -/

theorem modify_of_getElem? {α : Type} {list : List α} {index : Nat} {item : α}
    (found : list[index]? = some item) (change : α → α) :
    list.modify index change = list.set index (change item) := by
  rw [List.modify_eq_set_getElem?, found]
  rfl

theorem modify_of_getElem?_eq_none {α : Type} {list : List α} {index : Nat}
    (missed : list[index]? = none) (change : α → α) : list.modify index change = list :=
  List.modify_eq_self (List.getElem?_eq_none_iff.mp missed)

namespace Print

def Target.receive (target : Target) (outlets : Outlets) (text : String) : Target × Outlets :=
  match target with
  | stdout => (stdout, { outlets with stdout := outlets.stdout ++ text })
  | buffer held => (buffer (held ++ text), outlets)
  | stream number =>
      (stream number,
        { outlets with
          streams := outlets.streams.modify number fun sink => sink.receive text.toByteArray })
  | file number =>
      (file number,
        { outlets with
          files := outlets.files.modify number fun sink => sink.write text.toByteArray })

def Target.TakesAll (target : Target) (outlets : Outlets) (text : String) : Prop :=
  match target with
  | stream number => ∀ sink, outlets.streams[number]? = some sink → sink.Fits text.toByteArray
  | _ => True

/-- What it means to write a text: the target gets it and nothing else does, and
the writing fails, in the way of the stream, if that does not take all. -/
structure Delivers (target : Target) (outlets : Outlets) (text : String) (written : Written) :
    Prop where
  kept : (written.1, written.2.1) = target.receive outlets text
  success : written.2.2 = .ok () ↔ target.TakesAll outlets text
  failed : ∀ number sink, target = .stream number → outlets.streams[number]? = some sink →
    sink.chunk ≠ some 0 → ¬ sink.Fits text.toByteArray → written.2.2 = .error sink.failure

theorem Target.receive_empty (target : Target) (outlets : Outlets) :
    target.receive outlets "" = (target, outlets) := by
  cases target with
  | stdout => simp [receive]
  | buffer held => simp [receive]
  | stream number =>
      have same : (fun sink : Stream => sink.receive "".toByteArray) = id := by
        funext sink
        exact sink.receive_empty
      simp only [receive, same, List.modify_id]
  | file number =>
      have same : (fun sink : File => sink.write "".toByteArray) = id := by
        funext sink
        exact File.write_empty sink
      simp only [receive, same, List.modify_id]

theorem Target.receive_append (target : Target) (outlets : Outlets) (first second : String) :
    target.receive outlets (first ++ second) =
      (target.receive outlets first).1.receive (target.receive outlets first).2 second := by
  cases target with
  | stdout => simp only [receive, String.append_assoc]
  | buffer held => simp only [receive, String.append_assoc]
  | stream number =>
      simp only [receive, List.modify_modify_eq, String.toByteArray_append, Stream.receive_append]
      rfl
  | file number =>
      simp only [receive, List.modify_modify_eq, String.toByteArray_append, File.write_append]
      rfl

theorem Target.takesAll_append {target : Target} {outlets : Outlets} {first second : String} :
    target.TakesAll outlets (first ++ second) ↔
      target.TakesAll outlets first ∧
        (target.receive outlets first).1.TakesAll (target.receive outlets first).2 second := by
  cases target with
  | stdout => simp [TakesAll, receive]
  | buffer held => simp [TakesAll, receive]
  | file number => simp [TakesAll, receive]
  | stream number =>
      simp only [TakesAll, receive, List.getElem?_modify_eq, String.toByteArray_append]
      cases outlets.streams[number]? with
      | none => simp
      | some sink => simp [Stream.fits_append]

theorem Target.receive_of_not_takesAll {target : Target} {outlets : Outlets} {first : String}
    (full : ¬ target.TakesAll outlets first) (second : String) :
    (target.receive outlets first).1.receive (target.receive outlets first).2 second =
      target.receive outlets first := by
  cases target with
  | stdout => exact absurd trivial full
  | buffer held => exact absurd trivial full
  | file number => exact absurd trivial full
  | stream number =>
      simp only [TakesAll, not_forall] at full
      obtain ⟨sink, found, full⟩ := full
      simp only [receive, List.modify_modify_eq]
      rw [modify_of_getElem? found, modify_of_getElem? found, Function.comp_apply,
        Stream.receive_of_not_fits full]

theorem Target.write_delivers (target : Target) (outlets : Outlets) (piece : String) :
    Delivers target outlets piece (target.write outlets piece) := by
  cases target with
  | stdout => exact ⟨rfl, by simp [write, TakesAll], fun _ _ other => by cases other⟩
  | buffer held => exact ⟨rfl, by simp [write, TakesAll], fun _ _ other => by cases other⟩
  | stream number =>
      cases found : outlets.streams[number]? with
      | none =>
          refine ⟨?_, by simp [write, TakesAll, found], fun number' sink same held => ?_⟩
          · simp only [write, receive, found, modify_of_getElem?_eq_none found]
          · cases same
            rw [found] at held
            cases held
      | some sink =>
          obtain ⟨kept, success, failed⟩ := sink.absorbs_writeAll piece.toByteArray
          refine ⟨?_, ?_, fun number' sink' same held => ?_⟩
          · simp only [write, receive, found, modify_of_getElem? found, kept]
          · simpa [write, TakesAll, found] using success
          · cases same
            obtain rfl := Option.some.inj (found.symm.trans held)
            simpa only [write, found] using failed
  | file number =>
      cases found : outlets.files[number]? with
      | none =>
          refine ⟨?_, by simp [write, TakesAll, found], fun _ _ other => by cases other⟩
          simp only [write, receive, found, modify_of_getElem?_eq_none found]
      | some sink =>
          refine ⟨?_, by simp [write, TakesAll, found], fun _ _ other => by cases other⟩
          simp only [write, receive, found, modify_of_getElem? found]

theorem Target.takesAll_empty (target : Target) (outlets : Outlets) :
    target.TakesAll outlets "" := by
  cases target with
  | stream number => exact fun sink _ => Nat.zero_le (sink.accepts 0)
  | stdout => trivial
  | buffer held => trivial
  | file number => trivial

theorem Target.takesAll_stream_iff {number : Nat} {outlets : Outlets} {sink : Stream}
    (found : outlets.streams[number]? = some sink) (text : String) :
    (stream number).TakesAll outlets text ↔ sink.Fits text.toByteArray := by
  simp [TakesAll, found]

section Pieces

variable {target target' : Target} {outlets outlets' : Outlets} {piece text : String}
  {written : Written}

theorem Delivers.append (delivered : Delivers target outlets piece (target', outlets', .ok ()))
    (later : Delivers target' outlets' text written) :
    Delivers target outlets (piece ++ text) written := by
  have first : target.TakesAll outlets piece := delivered.success.mp rfl
  have received : target.receive outlets piece = (target', outlets') := delivered.kept.symm
  refine ⟨?_, ?_, ?_⟩
  · rw [later.kept, Target.receive_append, received]
  · rw [later.success, Target.takesAll_append, received]
    exact (and_iff_right first).symm
  · rintro number sink rfl found moves full
    simp only [Target.receive, modify_of_getElem? found] at received
    obtain ⟨rfl, rfl⟩ := Prod.mk.inj received
    have bound : number < outlets.streams.length := (List.getElem?_eq_some_iff.mp found).1
    refine later.failed number (sink.receive piece.toByteArray) rfl
      (List.getElem?_set_self bound) moves fun fits => full ?_
    rw [String.toByteArray_append]
    exact Stream.fits_append.mpr ⟨(Target.takesAll_stream_iff found piece).mp first, fits⟩

theorem Delivers.stop {error : WriteError}
    (delivered : Delivers target outlets piece (target', outlets', .error error)) :
    Delivers target outlets (piece ++ text) (target', outlets', .error error) := by
  have full : ¬ target.TakesAll outlets piece := delivered.success.not.mp (by simp)
  refine ⟨?_, iff_of_false (by simp) fun all => full (Target.takesAll_append.mp all).1, ?_⟩
  · rw [Target.receive_append, Target.receive_of_not_takesAll full]
    exact delivered.kept
  · rintro number sink rfl found moves _
    exact delivered.failed number sink rfl found moves
      ((Target.takesAll_stream_iff found piece).not.mp full)

end Pieces

/-- Pieces are written like the text that they make up. -/
theorem Target.writeAll_delivers (target : Target) (outlets : Outlets) (pieces : List String) :
    Delivers target outlets (String.join pieces) (target.writeAll outlets pieces) := by
  induction pieces generalizing target outlets with
  | nil =>
      have all : target.TakesAll outlets (String.join []) := target.takesAll_empty outlets
      refine ⟨(target.receive_empty outlets).symm, iff_of_true rfl all, ?_⟩
      rintro number sink rfl found _ full
      exact absurd ((takesAll_stream_iff found _).mp all) full
  | cons piece pieces ih =>
      have delivered := target.write_delivers outlets piece
      rw [String.join_cons, writeAll]
      cases written : target.write outlets piece with
      | mk target' rest =>
          obtain ⟨outlets', outcome⟩ := rest
          rw [written] at delivered
          cases outcome with
          | ok _ => exact delivered.append (ih target' outlets')
          | error error => exact delivered.stop

end Print

end HalfMatrix
