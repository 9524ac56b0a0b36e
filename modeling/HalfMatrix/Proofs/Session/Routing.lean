import HalfMatrix.Proofs.Session.Printouts

/-!
# Where prints go

A printer prints to the target that it was switched to last.  The buffer of a
printer holds what was printed since it was made; standard output and the
streams hold what was printed to them, and nothing else.
-/

set_option autoImplicit false

namespace HalfMatrix

namespace Printout

def printedBy (name : String) (outs : List Printout) : String :=
  textOf (fun out => out.name == name) outs

def toStdout (outs : List Printout) : String :=
  textOf (fun out => match out.printer.target with | .stdout => true | _ => false) outs

def toStream (number : Nat) (outs : List Printout) : String :=
  textOf (fun out => match out.printer.target with | .stream other => other == number | _ => false)
    outs

end Printout

namespace Session

variable {session : Session} {name : String} {command : Command} {commands : List Command}

/-! ## Buffers -/

theorem Puts.target? {out : Printout} {next : Session} (puts : session.Puts out next)
    (other : String) :
    next.target? other =
      if other = out.name then some (out.received session.outlets).1
      else session.target? other := by
  rw [Session.target?, puts.printers]
  split <;> rfl

theorem Puts.target?_self {out : Printout} {next : Session} (puts : session.Puts out next) :
    session.target? out.name = some out.printer.target := by
  rw [Session.target?, puts.found]
  rfl

theorem received_buffer_iff {out : Printout} {outlets : Outlets} {text : String} :
    (out.received outlets).1 = .buffer text ↔
      ∃ held, out.printer.target = .buffer held ∧ text = held ++ out.text := by
  unfold Printout.received
  cases out.printer.target with
  | buffer held => simp [Print.Target.receive, eq_comm]
  | stdout => simp [Print.Target.receive]
  | stream number => simp [Print.Target.receive]
  | file number => simp [Print.Target.receive]

theorem not_switches_of_printout {out : Printout} (put : session.printout? command = some out) :
    ¬ session.Switches name command := by
  rintro ⟨change, rfl, switch, _⟩
  cases change with
  | printValues precision values title => exact switch
  | _ => cases put

theorem printedBy_toList (put : Option Printout) :
    Printout.printedBy name put.toList =
      match put with
      | some out => if out.name = name then out.text else ""
      | none => "" := by
  cases put with
  | none => rfl
  | some out =>
      simp only [Option.toList_some, Printout.printedBy, Printout.textOf_singleton, beq_iff_eq]

/-- One step and a buffer: a switch makes it empty, and else it grows by what its
printer prints. -/
theorem step_buffer_iff (lays : ∀ out, session.printout? command = some out → out.LaysOut)
    (text : String) :
    (session.step command).2.target? name = some (.buffer text) ↔
      (session.Switches name command ∧ command = .printer name .toBuffer ∧ text = "") ∨
        (¬ session.Switches name command ∧ ∃ held, session.target? name = some (.buffer held) ∧
          text = held ++ Printout.printedBy name (session.printout? command).toList) := by
  rw [printedBy_toList]
  cases session.step_output command lays with
  | @printed out put puts =>
      have stays : ¬ session.Switches name command := not_switches_of_printout put
      simp only [stays, false_and, false_or, not_false_eq_true, true_and, put, puts.target?]
      by_cases own : name = out.name
      · subst own
        rw [if_pos rfl, puts.target?_self]
        simp [received_buffer_iff]
      · rw [if_neg own, if_neg (Ne.symm own)]
        simp
  | @switched other target silent switches buffer unbuffered redirected =>
      rw [silent, redirected.targets]
      by_cases own : name = other
      · subst own
        simp only [switches, true_and, not_true_eq_false, false_and, or_false, if_pos]
        by_cases toBuffer : command = .printer name .toBuffer
        · simp [toBuffer, buffer toBuffer, eq_comm]
        · have none := unbuffered toBuffer text
          simp [toBuffer, none]
      · have stays : ¬ session.Switches name command := by
          obtain ⟨change, is, _⟩ := switches
          rintro ⟨change', is', _⟩
          cases is.symm.trans is'
          exact own rfl
        simp [stays, own]
  | cleared is stdout streams targets =>
      have stays : ¬ session.Switches name command := by
        rintro ⟨change, is', _⟩
        cases is.symm.trans is'
      subst is
      rw [targets]
      simp [stays, printout?]
  | quiet silent stays quiet =>
      rw [silent, quiet.targets]
      simp [stays name]

/-- The last switch of the printer in the run is one to a buffer, and `text` is
what it has printed since. -/
def SinceBuffered (session : Session) (name : String) (commands : List Command)
    (text : String) : Prop :=
  ∃ earlier later, commands = earlier ++ .printer name .toBuffer :: later ∧
    (session.after earlier).Switches name (.printer name .toBuffer) ∧
    ((session.after earlier).step (.printer name .toBuffer)).2.Stays name later ∧
    text = Printout.printedBy name
      (((session.after earlier).step (.printer name .toBuffer)).2.printouts later)

theorem sinceBuffered_cons {text : String} :
    session.SinceBuffered name (command :: commands) text ↔
      (session.Switches name command ∧ command = .printer name .toBuffer ∧
          (session.step command).2.Stays name commands ∧
          text = Printout.printedBy name ((session.step command).2.printouts commands)) ∨
        (session.step command).2.SinceBuffered name commands text := by
  constructor
  · rintro ⟨earlier, later, split, switches, stays, text⟩
    cases earlier with
    | nil =>
        obtain ⟨rfl, rfl⟩ := List.cons.inj split
        exact Or.inl ⟨switches, rfl, stays, text⟩
    | cons first earlier =>
        obtain ⟨rfl, rfl⟩ := List.cons.inj split
        exact Or.inr ⟨earlier, later, rfl, switches, stays, text⟩
  · rintro (⟨switches, rfl, stays, text⟩ | ⟨earlier, later, rfl, switches, stays, text⟩)
    · exact ⟨[], commands, rfl, switches, stays, text⟩
    · exact ⟨command :: earlier, later, rfl, switches, stays, text⟩

/-- A buffer after a run: either it was made in the run, or it was there and has
grown. -/
theorem after_buffer_iff (lays : session.LaysOut commands) (text : String) :
    (session.after commands).target? name = some (.buffer text) ↔
      session.SinceBuffered name commands text ∨
        (session.Stays name commands ∧ ∃ held, session.target? name = some (.buffer held) ∧
          text = held ++ Printout.printedBy name (session.printouts commands)) := by
  induction commands generalizing session with
  | nil =>
      have never : ¬ session.SinceBuffered name [] text := by
        rintro ⟨earlier, later, split, _⟩
        simp at split
      simp [never, after_nil, Stays, printouts, Printout.printedBy, Printout.textOf]
  | cons command commands ih =>
      obtain ⟨laysNow, laysLater⟩ := laysOut_cons.mp lays
      rw [after_cons, ih laysLater, sinceBuffered_cons]
      simp only [step_buffer_iff laysNow, Stays, printouts, Printout.printedBy,
        Printout.textOf_append]
      constructor
      · rintro (since | ⟨stays, held, made | kept, rfl⟩)
        · exact Or.inl (Or.inr since)
        · obtain ⟨switches, is, rfl⟩ := made
          exact Or.inl (Or.inl ⟨switches, is, stays, String.empty_append⟩)
        · obtain ⟨still, before, target, rfl⟩ := kept
          exact Or.inr ⟨⟨still, stays⟩, before, target, String.append_assoc⟩
      · rintro ((⟨switches, is, stays, rfl⟩ | since) | ⟨⟨still, stays⟩, before, target, rfl⟩)
        · exact Or.inr ⟨stays, "", Or.inl ⟨switches, is, rfl⟩, String.empty_append.symm⟩
        · exact Or.inl since
        · exact Or.inr ⟨stays, _, Or.inr ⟨still, before, target, rfl⟩, String.append_assoc.symm⟩

/-! ## Standard output and streams -/

theorem received_stdout (out : Printout) (outlets : Outlets) :
    (out.received outlets).2.stdout = outlets.stdout ++ Printout.toStdout [out] := by
  rw [Printout.toStdout, Printout.textOf_singleton, Printout.received]
  cases out.printer.target <;> simp [Print.Target.receive]

theorem received_stream (out : Printout) {outlets : Outlets} {number : Nat} {sink : Stream}
    (found : outlets.streams[number]? = some sink) :
    (out.received outlets).2.streams[number]? =
      some (sink.receive (Printout.toStream number [out]).toByteArray) := by
  have kept : some (sink.receive "".toByteArray) = outlets.streams[number]? := by
    rw [found]
    exact congrArg some sink.receive_empty
  rw [Printout.toStream, Printout.textOf_singleton, Printout.received]
  cases out.printer.target with
  | stream other =>
      simp only [Print.Target.receive, List.getElem?_modify, found, beq_iff_eq]
      by_cases own : other = number
      · simp [own]
      · simpa [own, found] using kept.symm
  | stdout => exact kept.symm
  | buffer held => exact kept.symm
  | file other => exact kept.symm

theorem after_stdout (lays : session.LaysOut commands)
    (unread : ∀ command ∈ commands, command ≠ .stdout) :
    (session.after commands).outlets.stdout =
      session.outlets.stdout ++ Printout.toStdout (session.printouts commands) := by
  induction commands generalizing session with
  | nil => exact String.append_empty.symm
  | cons command commands ih =>
      obtain ⟨laysNow, laysLater⟩ := laysOut_cons.mp lays
      obtain ⟨unreadNow, unreadLater⟩ := List.forall_mem_cons.mp unread
      have step : (session.step command).2.outlets.stdout =
          session.outlets.stdout ++ Printout.toStdout (session.printout? command).toList := by
        cases session.step_output command laysNow with
        | @printed out put puts =>
            rw [puts.outlets, put]
            exact received_stdout out session.outlets
        | switched silent switches buffer unbuffered redirected =>
            rw [silent, redirected.stdout]
            exact String.append_empty.symm
        | cleared is stdout streams targets => exact absurd is unreadNow
        | quiet silent stays quiet =>
            rw [silent, quiet.stdout]
            exact String.append_empty.symm
      rw [after_cons, ih laysLater unreadLater, step, String.append_assoc, printouts]
      exact congrArg _ (Printout.textOf_append _ _ _).symm

theorem after_stream (lays : session.LaysOut commands) {number : Nat} {sink : Stream}
    (found : session.outlets.streams[number]? = some sink) :
    (session.after commands).outlets.streams[number]? =
      some (sink.receive (Printout.toStream number (session.printouts commands)).toByteArray) := by
  induction commands generalizing session sink with
  | nil => exact found.trans (congrArg some sink.receive_empty.symm)
  | cons command commands ih =>
      obtain ⟨laysNow, laysLater⟩ := laysOut_cons.mp lays
      have kept : some sink = some (sink.receive (Printout.toStream number []).toByteArray) :=
        congrArg some sink.receive_empty.symm
      have step : (session.step command).2.outlets.streams[number]? =
          some (sink.receive
            (Printout.toStream number (session.printout? command).toList).toByteArray) := by
        cases session.step_output command laysNow with
        | @printed out put puts =>
            rw [puts.outlets, put]
            exact received_stream out found
        | switched silent switches buffer unbuffered redirected =>
            obtain ⟨opened, streams⟩ := redirected.streams
            have bound := (List.getElem?_eq_some_iff.mp found).1
            rw [silent, streams, List.getElem?_append_left bound, found]
            exact kept
        | cleared is stdout streams targets =>
            subst is
            rw [streams, found]
            exact kept
        | quiet silent stays quiet =>
            rw [silent, quiet.streams, found]
            exact kept
      rw [after_cons, ih laysLater step, ← Stream.receive_append, ← String.toByteArray_append,
        printouts, Printout.toStream, Printout.toStream, Printout.toStream, Printout.textOf_append]

/-! ## All together -/

/-- Where the prints of a run have gone, and where those of the next command go. -/
structure RoutesPrints (commands : List Command) (name : String) (used : Printer) : Prop where
  /-- The buffer can be read exactly if the printer was last switched to it, and
  then shows what the printer has printed since. -/
  buffered : ∀ text, ((initial.after commands).step (.printer name .buffered)).1.answer =
      .ok (.text text) ↔ initial.SinceBuffered name commands text
  unbuffered : (∀ text, ¬ initial.SinceBuffered name commands text) →
    ((initial.after commands).step (.printer name .buffered)).1.answer =
      .error (.notBuffered used.target.name)
  reading : ((initial.after commands).step (.printer name .buffered)).2 = initial.after commands
  /-- What a command prints goes to the target that its printer has, and to no other. -/
  delivered : ∀ command out, (initial.after commands).printout? command = some out →
    out.LaysOut → (initial.after commands).Puts out ((initial.after commands).step command).2
  refused : ∀ command, command.Prints → (initial.after commands).printout? command = none →
    (initial.after commands).Unprinted ((initial.after commands).step command)
  stdout : ∀ earlier later, commands = earlier ++ later → (∀ command ∈ later, command ≠ .stdout) →
    (initial.after commands).outlets.stdout = (initial.after earlier).outlets.stdout ++
      Printout.toStdout ((initial.after earlier).printouts later)
  streams : ∀ earlier later number (sink : Stream), commands = earlier ++ later →
    (initial.after earlier).outlets.streams[number]? = some sink →
    (initial.after commands).outlets.streams[number]? = some (sink.receive
      (Printout.toStream number ((initial.after earlier).printouts later)).toByteArray)

/-- In every run every print goes to the one target that its printer has at that
moment, and a buffer shows what was printed since the last switch. -/
theorem prints_are_routed (commands : List Command) (name : String) (used : Printer)
    (lays : initial.LaysOut commands)
    (found : (initial.after commands).printers.find? name = some used) :
    RoutesPrints commands name used := by
  have target : (initial.after commands).target? name = some used.target := by
    rw [target?, found]
    rfl
  have since : ∀ text, used.target = .buffer text ↔ initial.SinceBuffered name commands text := by
    intro text
    have made : (initial.after commands).target? name = some (.buffer text) ↔ _ :=
      after_buffer_iff lays text
    rw [target, Option.some.injEq] at made
    rw [made]
    -- The session starts without any printer.
    refine or_iff_left ?_
    rintro ⟨_, held, none, _⟩
    cases none
  have split : ∀ earlier later, commands = earlier ++ later →
      (initial.after commands) = (initial.after earlier).after later ∧
        (initial.after earlier).LaysOut later := by
    rintro earlier later rfl
    exact ⟨after_append initial earlier later, (laysOut_append.mp lays).2⟩
  constructor
  case buffered =>
    intro text
    rw [← since]
    simp only [step, printerStep, withFound, find, found, Printer.buffered?]
    cases used.target <;> simp [refuse]
  case unbuffered =>
    intro never
    simp only [step, printerStep, withFound, find, found, Printer.buffered?]
    cases is : used.target with
    | buffer text => exact absurd ((since text).mp is) (never text)
    | stdout => rfl
    | stream number => rfl
    | file number => rfl
  case reading => exact (initial.after commands).step_buffered name
  case delivered => exact fun _ _ => step_puts
  case refused => exact fun _ => step_unprinted
  case stdout =>
    intro earlier later is unread
    obtain ⟨reached, laysLater⟩ := split earlier later is
    rw [reached]
    exact after_stdout laysLater unread
  case streams =>
    intro earlier later number sink is opened
    obtain ⟨reached, laysLater⟩ := split earlier later is
    rw [reached]
    exact after_stream laysLater opened

def bufferedTwice : List Command :=
  [.printer "p" (.create .default),
    .printer "p" .toBuffer,
    .printer "p" (.printValues .double [] "a"),
    .printer "p" .toStdout,
    .printer "p" (.printValues .double [] "b"),
    .printer "p" .toBuffer,
    .printer "p" (.printValues .double [] "c")]

theorem second_buffer_shows_last_print :
    ∃ used, (initial.after bufferedTwice).printers.find? "p" = some used ∧
      initial.LaysOut bufferedTwice ∧ RoutesPrints bufferedTwice "p" used ∧
      ((initial.after bufferedTwice).step (.printer "p" .buffered)).1.answer =
        .ok (.text "c\n\n\n") := by
  have lays : initial.LaysOut bufferedTwice := by decide
  refine ⟨_, rfl, lays, prints_are_routed bufferedTwice "p" _ lays rfl, ?_⟩
  rfl

end Session

end HalfMatrix
