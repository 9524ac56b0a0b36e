import HalfMatrix.Proofs.Session.Redirections
import HalfMatrix.Proofs.Session.Routing

/-!
# What a stream has taken

A printer that prints to a stream is the only one that does, because every
switch to a stream makes a new one.  So the stream gets what the printer
prints, and holds as much of the beginning of that as it is allowed to take.
The run in which the printer prints to a buffer instead shows all of it.
-/

set_option autoImplicit false

namespace HalfMatrix

namespace Session

variable {session : Session} {name : String} {number : Nat} {command : Command}
  {commands : List Command}

/-! ## One printer for each stream -/

def StreamsOpen (session : Session) : Prop :=
  ∀ name number, session.target? name = some (.stream number) →
    number < session.outlets.streams.length

theorem received_stream_iff {out : Printout} {outlets : Outlets} :
    (out.received outlets).1 = .stream number ↔ out.printer.target = .stream number := by
  unfold Printout.received
  cases out.printer.target <;> simp [Print.Target.receive]

theorem length_received_streams (out : Printout) (outlets : Outlets) :
    (out.received outlets).2.streams.length = outlets.streams.length := by
  unfold Printout.received
  cases out.printer.target <;> simp [Print.Target.receive]

theorem Puts.target?_stream_iff {out : Printout} {next : Session} (puts : session.Puts out next)
    (other : String) :
    next.target? other = some (.stream number) ↔ session.target? other = some (.stream number) := by
  rw [puts.target?]
  split
  · rename_i own
    rw [own, puts.target?_self, Option.some.injEq, Option.some.injEq, received_stream_iff]
  · rfl

theorem StreamsOpen.step (opened : session.StreamsOpen)
    (lays : ∀ out, session.printout? command = some out → out.LaysOut) :
    (session.step command).2.StreamsOpen := by
  intro other number target
  cases session.step_output command lays with
  | printed put puts =>
      rw [puts.outlets, length_received_streams]
      exact opened other number ((puts.target?_stream_iff other).mp target)
  | switched silent switches buffer unbuffered redirected =>
      obtain ⟨new, streams⟩ := redirected.streams
      rw [redirected.targets] at target
      split at target
      · exact (redirected.fresh number (Option.some.inj target)).2
      · have bound := opened other number target
        rw [streams, List.length_append]
        omega
  | cleared is stdout streams targets =>
      subst is
      rw [streams]
      rw [targets] at target
      exact opened other number target
  | quiet silent stays quiet =>
      rw [quiet.streams]
      rw [quiet.targets] at target
      exact opened other number target

theorem StreamsOpen.after (opened : session.StreamsOpen) (lays : session.LaysOut commands) :
    (session.after commands).StreamsOpen := by
  induction commands generalizing session with
  | nil => exact opened
  | cons command commands ih =>
      obtain ⟨laysNow, laysLater⟩ := laysOut_cons.mp lays
      exact ih (opened.step laysNow) laysLater

/-- The printer is the one that prints to this stream, and the stream is there. -/
structure Feeds (session : Session) (name : String) (number : Nat) : Prop where
  inside : number < session.outlets.streams.length
  only : ∀ other, session.target? other = some (.stream number) ↔ other = name

section Feeds

variable {next : Session} (feeds : session.Feeds name number)

include feeds

theorem Feeds.toStream_of_puts {out : Printout} (puts : session.Puts out next) :
    Printout.toStream number [out] = Printout.printedBy name [out] := by
  have own := feeds.only out.name
  rw [puts.target?_self, Option.some.injEq] at own
  rw [Printout.toStream, Printout.printedBy, Printout.textOf_singleton, Printout.textOf_singleton]
  by_cases same : out.name = name
  · simp [same, own.mpr same]
  · have elsewhere := own.not.mpr same
    cases is : out.printer.target with
    | stream other =>
        rw [is, Print.Target.stream.injEq] at elsewhere
        simp [same, elsewhere]
    | stdout => simp [same]
    | buffer held => simp [same]
    | file other => simp [same]

theorem Feeds.of_puts {out : Printout} (puts : session.Puts out next) :
    next.Feeds name number := by
  refine ⟨?_, fun other => (puts.target?_stream_iff other).trans (feeds.only other)⟩
  rw [puts.outlets, length_received_streams]
  exact feeds.inside

/-- Another printer can be given another stream, but not this one. -/
theorem Feeds.of_redirected {other : String} {target : Print.Target} (apart : name ≠ other)
    (redirected : session.Redirected other target next) : next.Feeds name number := by
  have bound := feeds.inside
  obtain ⟨new, streams⟩ := redirected.streams
  refine ⟨?_, fun rival => ?_⟩
  · rw [streams, List.length_append]
    omega
  · rw [redirected.targets]
    split
    · rename_i same
      -- A new stream is numbered after all that are there.
      have later : target ≠ .stream number := by
        intro clash
        have fresh := (redirected.fresh number clash).1
        omega
      rw [Option.some.injEq]
      exact iff_of_false later fun is => apart (is.symm.trans same)
    · exact feeds.only rival

theorem Feeds.congr (streams : next.outlets.streams = session.outlets.streams)
    (targets : ∀ name, next.target? name = session.target? name) : next.Feeds name number := by
  refine ⟨?_, fun other => ?_⟩
  · rw [streams]
    exact feeds.inside
  · rw [targets]
    exact feeds.only other

/-- A printer that is not switched goes on feeding its stream, and nothing else is
printed there. -/
theorem Feeds.step (lays : ∀ out, session.printout? command = some out → out.LaysOut)
    (stays : ¬ session.Switches name command) :
    (session.step command).2.Feeds name number ∧
      Printout.toStream number (session.printout? command).toList =
        Printout.printedBy name (session.printout? command).toList := by
  cases session.step_output command lays with
  | printed put puts =>
      rw [put]
      exact ⟨feeds.of_puts puts, feeds.toStream_of_puts puts⟩
  | switched silent switches buffer unbuffered redirected =>
      rw [silent]
      refine ⟨feeds.of_redirected ?_ redirected, rfl⟩
      rintro rfl
      exact stays switches
  | cleared is stdout streams targets =>
      subst is
      exact ⟨feeds.congr streams targets, rfl⟩
  | quiet silent stays quiet =>
      rw [silent]
      exact ⟨feeds.congr quiet.streams quiet.targets, rfl⟩

end Feeds

theorem Feeds.after (feeds : session.Feeds name number) (lays : session.LaysOut commands)
    (stays : session.Stays name commands) :
    (session.after commands).Feeds name number ∧
      Printout.toStream number (session.printouts commands) =
        Printout.printedBy name (session.printouts commands) := by
  induction commands generalizing session with
  | nil => exact ⟨feeds, rfl⟩
  | cons command commands ih =>
      obtain ⟨laysNow, laysLater⟩ := laysOut_cons.mp lays
      obtain ⟨stays, staysLater⟩ := stays
      obtain ⟨feedsNow, now⟩ := feeds.step laysNow stays
      obtain ⟨feedsLater, later⟩ := ih feedsNow laysLater staysLater
      refine ⟨feedsLater, ?_⟩
      rw [Printout.toStream, Printout.printedBy] at now later ⊢
      rw [printouts, Printout.textOf_append, Printout.textOf_append, now, later]

/-! ## A new stream -/

section NewStream

variable {used : Printer} (found : session.printers.find? name = some used)
  (stream : String) (chunk limit : Option Nat) (silent : Bool)

include found

theorem step_toStream :
    session.step (.printer name (.toStream stream chunk limit silent)) =
      ({ answer := .ok .done },
        (session.addStream stream { chunk, limit, silent }).putPrinter name
          (used.redirect (.stream session.outlets.streams.length))) := by
  simp only [step, printerStep, withFound, find, found]

theorem step_toBuffer :
    session.step (.printer name .toBuffer) =
      ({ answer := .ok .done }, session.putPrinter name (used.redirect (.buffer ""))) := by
  simp only [step, printerStep, changePrinter, withFound, find, found]

theorem stream_of_toStream :
    (session.step (.printer name (.toStream stream chunk limit silent))).2.outlets.streams[
      session.outlets.streams.length]? = some { chunk, limit, silent } := by
  rw [step_toStream found]
  exact List.getElem?_concat_length

theorem feeds_of_toStream (opened : session.StreamsOpen) :
    (session.step (.printer name (.toStream stream chunk limit silent))).2.Feeds name
      session.outlets.streams.length := by
  obtain ⟨inside, _⟩ :=
    List.getElem?_eq_some_iff.mp (stream_of_toStream found stream chunk limit silent)
  have redirected := session.redirected_addStream name stream used { chunk, limit, silent }
  refine ⟨inside, fun other => ?_⟩
  rw [step_toStream found, redirected.targets]
  split
  · rename_i same
    simp [same]
  · rename_i apart
    refine iff_of_false (fun target => ?_) apart
    exact Nat.lt_irrefl _ (opened other _ target)

/-- Nothing else depends on whether a printer is switched to a buffer or to a stream. -/
theorem alike_of_toStream :
    (session.step (.printer name .toBuffer)).2.Alike
      (session.step (.printer name (.toStream stream chunk limit silent))).2 := by
  have opened : session.Alike (session.addStream stream { chunk, limit, silent }) :=
    ⟨⟨rfl, rfl, rfl, rfl⟩, rfl, fun _ => rfl⟩
  rw [step_toStream found, step_toBuffer found]
  exact opened.putPrinter name rfl

end NewStream

/-! ## What prints answer -/

theorem Sound.of_books {left right : Session} (sound : left.Sound) (books : left.SameBooks right) :
    right.Sound := by
  obtain ⟨tables, views, _, ticket⟩ := books
  constructor
  case orderly => exact fun name owner => tables ▸ sound.orderly name owner
  case distinct => rw [tables]; exact sound.distinct
  case leasesApart => rw [tables]; exact sound.leasesApart
  case viewsApart => rw [views]; exact sound.viewsApart
  case leaseIssued => rw [tables, ticket]; exact sound.leaseIssued
  case viewIssued => rw [views, ticket]; exact sound.viewIssued
  case under => rw [tables, views]; exact sound.under

theorem step_answer {out : Printout} (sound : session.Sound)
    (put : session.printout? command = some out) (lays : out.LaysOut) :
    ∃ written, Print.Delivers out.printer.target session.outlets out.text written ∧
      (session.step command).1.answer =
        (written.2.2.mapError Refusal.write).map fun () => Answer.done := by
  obtain ⟨printed, shown, delivers, _⟩ :=
    Printer.printRows_of_admits session.outlets out.title lays
  refine ⟨_, delivers, ?_⟩
  unfold Session.printout? at put
  split at put
  · rename_i name printer region title
    simp only [bind, Option.bind_eq_some_iff] at put
    obtain ⟨owner, owned, used, found, put⟩ := put
    split at put
    · rename_i view lent granted
      obtain rfl := Option.some.inj put
      have released : lent.release region view = .ok (owner.table, .ok ()) :=
        Table.takeBack_lent (sound.fresh owned) granted rfl
      rw [step_printRegion_of_granted owned found granted
        (Printer.printRegion_of_released granted released shown)]
      rfl
    · cases put
  · rename_i name printer title
    simp only [bind, Option.bind_eq_some_iff] at put
    obtain ⟨owner, owned, used, found, put⟩ := put
    obtain rfl := Option.some.inj put
    have passed : used.printValues session.outlets title owner.table.entries.toList = .ok printed :=
      shown
    simp only [step, withFound, find, owned, tableStep, printPacked, found, passed]
    rfl
  · rename_i name printer title
    simp only [bind, Option.bind_eq_some_iff] at put
    obtain ⟨held, owned, used, found, put⟩ := put
    obtain rfl := Option.some.inj put
    have passed : used.printView session.outlets title held.view = .ok printed := shown
    simp only [step, withFound, find, owned, viewStep, found, passed]
    rfl
  · rename_i name precision values title
    simp only [bind, Option.bind_eq_some_iff] at put
    obtain ⟨used, found, put⟩ := put
    obtain rfl := Option.some.inj put
    have passed : used.printValues session.outlets title
        (values.map (Numeral.toBinary precision)) = .ok printed := shown
    simp only [step, withFound, find, printerStep, found, passed]
    rfl
  · cases put

/-- A printout is never empty: it has a title line. -/
theorem size_text_ne_zero (out : Printout) : out.text.toByteArray.size ≠ 0 := by
  have titled : out.text = out.title ++ ("\n" ++ String.join
      ((Print.body out.printer.settings out.rows).flatMap Print.linePieces)) := by
    simp only [Printout.text, Printout.pieces, Print.pieces, Print.linePieces, List.cons_append,
      List.nil_append, String.join_cons]
  have lineBreak : "\n".toByteArray.size = 1 := rfl
  rw [titled, String.toByteArray_append, String.toByteArray_append, ByteArray.size_append,
    ByteArray.size_append]
  omega

/-- A print to a stream that has got `text` before succeeds exactly if the limit of the
stream is enough for both. -/
theorem answer_of_feeds {text : String} {fresh : Stream} {out : Printout} (sound : session.Sound)
    (feeds : session.Feeds name number)
    (found : session.outlets.streams[number]? = some (fresh.receive text.toByteArray))
    (moves : fresh.chunk ≠ some 0) (untouched : fresh.taken = .empty)
    (put : session.printout? command = some out) (own : out.name = name) (lays : out.LaysOut) :
    ((session.step command).1.answer = .ok .done ↔
        ∀ most ∈ fresh.limit, (text ++ out.text).utf8ByteSize ≤ most) ∧
      ∀ most ∈ fresh.limit, most < (text ++ out.text).utf8ByteSize →
        (session.step command).1.answer = .error (.write fresh.failure) := by
  have target : out.printer.target = .stream number := by
    have target := (step_puts put lays).target?_self
    rw [own, (feeds.only name).mpr rfl] at target
    exact (Option.some.inj target).symm
  have fits : (fresh.receive text.toByteArray).Fits out.text.toByteArray ↔
      ∀ most ∈ fresh.limit, (text ++ out.text).utf8ByteSize ≤ most := by
    rw [Stream.fits_receive_iff (size_text_ne_zero out), ← String.toByteArray_append,
      Stream.fits_of_untouched moves untouched]
    rfl
  obtain ⟨written, delivers, answer⟩ := step_answer sound put lays
  constructor
  · have done : (session.step command).1.answer = .ok .done ↔ written.2.2 = .ok () := by
      rw [answer]
      cases written.2.2 <;> simp [Except.mapError, Except.map]
    rw [done, delivers.success, target, Print.Target.takesAll_stream_iff found, fits]
  · intro most bounded longer
    have full : ¬ (fresh.receive text.toByteArray).Fits out.text.toByteArray := fun all =>
      Nat.not_le.mpr longer (fits.mp all most bounded)
    have failed := delivers.failed number _ target found moves full
    rw [answer, failed]
    rfl

theorem answer_of_buffer {text : String} (target : session.target? name = some (.buffer text)) :
    (session.step (.printer name .buffered)).1.answer = .ok (.text text) := by
  obtain ⟨used, found, is⟩ := Option.map_eq_some_iff.mp target
  simp only [step, printerStep, withFound, find, found, Printer.buffered?, is]

/-! ## Prefixes -/

/-- Where one run prints `text` to a buffer, the other one has printed as much of the
beginning of it to a stream as the limit allows. -/
structure HoldsPrefix (buffering streaming : Session) (name text : String)
    (limit : Option Nat) : Prop where
  held : ∃ number sink, streaming.target? name = some (.stream number) ∧
    streaming.outlets.streams[number]? = some sink ∧
    sink.taken = text.toByteArray.extract 0 (Stream.atMost limit text.utf8ByteSize)
  /-- What is refused for the buffer is refused for the stream, and adds nothing to either. -/
  refused : ∀ command, command.Prints → buffering.printout? command = none →
    buffering.Unprinted (buffering.step command) ∧ streaming.Unprinted (streaming.step command)

/-- The next print to the stream succeeds exactly if the limit allows for all that the buffer
holds then. -/
structure AnswersByLength (buffering streaming : Session) (name text : String)
    (limit : Option Nat) (silent : Bool) : Prop where
  success : ∀ command out, buffering.printout? command = some out → out.name = name →
    out.LaysOut → ((streaming.step command).1.answer = .ok .done ↔
      ∀ most ∈ limit, (text ++ out.text).utf8ByteSize ≤ most)
  failure : ∀ command out, buffering.printout? command = some out → out.name = name →
    out.LaysOut → ∀ most ∈ limit, most < (text ++ out.text).utf8ByteSize →
      (streaming.step command).1.answer = .error (.write (if silent then .nothingTaken else .full))

theorem answersByLength_of_feeds {buffering streaming : Session} {text : String} {fresh : Stream}
    (alike : buffering.Alike streaming) (sound : streaming.Sound)
    (feeds : streaming.Feeds name number)
    (found : streaming.outlets.streams[number]? = some (fresh.receive text.toByteArray))
    (moves : fresh.chunk ≠ some 0) (untouched : fresh.taken = .empty) :
    buffering.AnswersByLength streaming name text fresh.limit fresh.silent := by
  constructor
  all_goals
    intro command out put own lays
    obtain ⟨out', put', block⟩ := alike.printout?_of_some put
    have own' : out'.name = name := (Printout.name_of_block block).trans own
    have answer := answer_of_feeds sound feeds found moves untouched put' own'
      (Printout.laysOut_of_block block lays)
    rw [Printout.text_of_block block] at answer
  · exact answer.1
  · exact answer.2

def intoBuffer (earlier : List Command) (name : String) (commands : List Command) :
    List Command :=
  earlier ++ .printer name .toBuffer :: commands

def intoStream (earlier : List Command) (name stream : String) (chunk limit : Option Nat)
    (silent : Bool) (commands : List Command) : List Command :=
  earlier ++ .printer name (.toStream stream chunk limit silent) :: commands

/-- A stream holds the beginning of what a buffer in its place would hold, up to its limit,
whatever it takes at once; prints succeed as long as that is all of it. -/
theorem streams_hold_exact_prefix (earlier : List Command) (name : String) (used : Printer)
    (commands : List Command) (found : (initial.after earlier).printers.find? name = some used)
    (lays : initial.LaysOut (intoBuffer earlier name commands))
    (stays : ((initial.after earlier).step (.printer name .toBuffer)).2.Stays name commands) :
    ∃ text, ((initial.after (intoBuffer earlier name commands)).step
        (.printer name .buffered)).1.answer = .ok (.text text) ∧
      ∀ (stream : String) (chunk limit : Option Nat) (silent : Bool), chunk ≠ some 0 →
        (initial.after (intoBuffer earlier name commands)).HoldsPrefix
          (initial.after (intoStream earlier name stream chunk limit silent commands))
          name text limit ∧
        (initial.issued (intoBuffer earlier name commands) < 2 ^ 64 - 1 →
          (initial.after (intoBuffer earlier name commands)).AnswersByLength
            (initial.after (intoStream earlier name stream chunk limit silent commands))
            name text limit silent) := by
  obtain ⟨laysBefore, lays⟩ := laysOut_append.mp lays
  obtain ⟨_, laysAfter⟩ := laysOut_cons.mp lays
  have opened : (initial.after earlier).StreamsOpen :=
    StreamsOpen.after (fun _ _ none => by cases none) laysBefore
  obtain ⟨session, is⟩ : ∃ session, initial.after earlier = session := ⟨_, rfl⟩
  have sound : initial.issued (intoBuffer earlier name commands) < 2 ^ 64 - 1 →
      ((session.step (.printer name .toBuffer)).2.after commands).Sound := by
    intro few
    have sound := sound_after few
    rw [intoBuffer, after_append, after_cons, is] at sound
    exact sound
  simp only [intoBuffer, intoStream, after_append, after_cons] at sound ⊢
  rw [is] at found opened laysAfter stays ⊢
  refine ⟨Printout.printedBy name
    ((session.step (.printer name .toBuffer)).2.printouts commands), ?_, ?_⟩
  · apply answer_of_buffer
    refine (after_buffer_iff laysAfter _).mpr (.inr ⟨stays, "", ?_, String.empty_append.symm⟩)
    rw [step_toBuffer found, target?, putPrinter, Names.find?_insert_name]
    rfl
  intro stream chunk limit silent moves
  have alike := alike_of_toStream found stream chunk limit silent
  obtain ⟨alikeAfter, blocks, staysToo⟩ := alike.run laysAfter
  have laysToo := laysOut_of_blocks blocks laysAfter
  obtain ⟨feeds, fed⟩ := (feeds_of_toStream found stream chunk limit silent opened).after laysToo
    ((staysToo name).mpr stays)
  have kept := after_stream laysToo (stream_of_toStream found stream chunk limit silent)
  rw [fed, Printout.printedBy, Printout.textOf_block name blocks, ← Printout.printedBy] at kept
  refine ⟨⟨⟨_, _, (feeds.only name).mpr rfl, kept, ?_⟩, ?_⟩, fun few => ?_⟩
  · exact Stream.taken_of_untouched moves rfl _
  · exact fun command prints silent => ⟨step_unprinted prints silent,
      step_unprinted prints (alikeAfter.printout?_of_none silent)⟩
  · exact answersByLength_of_feeds alikeAfter ((sound few).of_books alikeAfter.toSameBooks) feeds
      kept moves rfl

def newPrinter : List Command := [.printer "p" (.create .default)]

def titled : List Command := [.printer "p" (.printValues .double [] "ab")]

/-- A stream of three bytes that takes one at a time has the title and its line break, and the
next print fails. -/
theorem stream_ends_with_title :
    ∃ used, (initial.after newPrinter).printers.find? "p" = some used ∧
      initial.LaysOut (intoBuffer newPrinter "p" titled) ∧
      ((initial.after newPrinter).step (.printer "p" .toBuffer)).2.Stays "p" titled ∧
      (∃ number sink,
        (initial.after (intoStream newPrinter "p" "s" (some 1) (some 3) true titled)).target? "p" =
          some (.stream number) ∧
        (initial.after (intoStream newPrinter "p" "s" (some 1) (some 3)
          true titled)).outlets.streams[number]? = some sink ∧
        sink.taken = "ab\n".toByteArray) ∧
      ((initial.after (intoStream newPrinter "p" "s" (some 1) (some 3) true titled)).step
        (.printer "p" (.printValues .double [] ""))).1.answer = .error (.write .nothingTaken) := by
  have lays : initial.LaysOut (intoBuffer newPrinter "p" titled) := by decide
  have stays : ((initial.after newPrinter).step (.printer "p" .toBuffer)).2.Stays "p" titled := by
    refine ⟨?_, trivial⟩
    rintro ⟨change, is, switch, _⟩
    cases is
    exact switch
  obtain ⟨text, shown, prefixes⟩ :=
    streams_hold_exact_prefix newPrinter "p" _ titled rfl lays stays
  obtain rfl : "ab\n\n\n" = text := Answer.text.inj (Except.ok.inj shown)
  obtain ⟨⟨⟨number, sink, target, held, taken⟩, _⟩, answers⟩ :=
    prefixes "s" (some 1) (some 3) true (by decide)
  refine ⟨_, rfl, lays, stays, ⟨number, sink, target, held, ?_⟩, ?_⟩
  · rw [taken]
    rfl
  · exact (answers (by decide)).failure (.printer "p" (.printValues .double [] "")) _ rfl rfl
      (by decide) 3 rfl (by decide)

end Session

end HalfMatrix
