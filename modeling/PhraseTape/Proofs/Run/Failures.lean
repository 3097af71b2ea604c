import PhraseTape.Proofs.Console.Reading
import PhraseTape.Proofs.Run.Access
import PhraseTape.Proofs.Run.Moments

/-!
# How an instruction fails

An instruction fails in one of five ways: it uses a cell where the pointer names none, or the flush
in front of a line fails, or the reader fails before the line is complete, or the line is there and
the pointer names no cell to store it, or the writer does not take all bytes of a cell. In none of
them is the machine changed. What is gone is what the console has used up by then: an input that
fails because of the pointer has taken one line, and an output that fails can have left a part of
its bytes.

## Main definitions

* `Session.Fails` : the ways in which an instruction fails, with the session that each leaves.

## Main results

* `Session.perform_read_eq_ok_iff`, `Session.perform_print_eq_ok_iff` : how an input and an output
  succeed.
* `Session.perform_eq_error_iff` : there are no other ways to fail.
* `Session.Fails.of_address`, `Session.Fails.of_io` : what is left, sorted by the reason.
* `Session.dispatch_error_effects` : what a failing instruction leaves.
-/

namespace PhraseTape

namespace Session

/-- The instruction `i` fails on the session `s`, with the fault and the session that it leaves. -/
inductive Fails (s : Session) : Instruction → Fault → Session → Prop
  /-- The pointer names no cell, and the instruction uses one and is no input. -/
  | access {i : Instruction} {e : AddressError} (hi : i ≠ .read) (ha : s.Accesses i)
      (he : s.machine.tape.resolve s.machine.pointer = .error e) : Fails s i (.address e) s
  /-- The flush of an input fails. -/
  | flush {e : IoError} (he : s.console.nextFlush = some e) :
      Fails s .read (.io e) { s with console := s.console.flushed }
  /-- The reader fails before the end of the line. -/
  | line {e : IoError} {lost : List UInt8} {rest : Feed} (hf : s.console.nextFlush = none)
      (hb : Feed.Breaks lost e s.console.feed rest) :
      Fails s .read (.io e) { s with console := s.console.flushed.asked rest }
  /-- The line is read, and the pointer names no cell for it. -/
  | store {e : AddressError} {line : List UInt8} {rest : Feed} (hf : s.console.nextFlush = none)
      (hl : Feed.HandsOut line s.console.feed rest)
      (he : s.machine.tape.resolve s.machine.pointer = .error e) :
      Fails s .read (.address e) { s with console := s.console.flushed.asked rest }
  /-- The writer does not take all bytes of the cell. -/
  | write {e : IoError} {v : Cell} (hv : s.machine.cell = .ok v)
      (he : (offer (s.machine.encoding.encode v) s.console.replies).failure = some e) :
      Fails s .print (.io e)
        { s with console := Console.left (s.console.write (s.machine.encoding.encode v)) }

variable {s t : Session} {i : Instruction} {f : Fault}

/-! ### The instructions that use the console -/

theorem perform_read_of_nextFlush {e : IoError} (he : s.console.nextFlush = some e) :
    s.perform .read = .error (.io e) { s with console := s.console.flushed } := by
  simp only [perform, readCell, Console.flush_of_nextFlush_some he]

theorem perform_read_of_breaks {e : IoError} {lost : List UInt8} {rest : Feed}
    (hf : s.console.nextFlush = none) (hb : Feed.Breaks lost e s.console.feed rest) :
    s.perform .read = .error (.io e) { s with console := s.console.flushed.asked rest } := by
  have hread : s.console.flushed.readLine = _ := Console.readLine_of_breaks hb
  simp only [perform, readCell, Console.flush_of_nextFlush_none hf, hread]

/-- An input stores the line that the feed hands out, if there is a cell for it. -/
theorem perform_read_of_handsOut {line : List UInt8} {rest : Feed}
    (hf : s.console.nextFlush = none) (hl : Feed.HandsOut line s.console.feed rest) :
    s.perform .read =
      match s.machine.tape.resolve s.machine.pointer with
      | .ok j =>
        .ok () ⟨s.machine.put j (Cell.ofLineBytes line), s.console.flushed.asked rest⟩
      | .error e => .error (.address e) { s with console := s.console.flushed.asked rest } := by
  have hread : s.console.flushed.readLine = _ := Console.readLine_of_handsOut hl
  cases hr : s.machine.tape.resolve s.machine.pointer <;>
    simp only [perform, readCell, Console.flush_of_nextFlush_none hf, hread, hr]

/-- An output on a cell succeeds if the writer takes all bytes. -/
theorem perform_print_of_cell {v : Cell} (hv : s.machine.cell = .ok v) :
    s.perform .print =
      match (offer (s.machine.encoding.encode v) s.console.replies).failure with
      | none => .ok ()
        { s with console := Console.left (s.console.write (s.machine.encoding.encode v)) }
      | some e => .error (.io e)
        { s with console := Console.left (s.console.write (s.machine.encoding.encode v)) } := by
  cases hw : (offer (s.machine.encoding.encode v) s.console.replies).failure <;>
    simp only [perform, printCell, hv, Console.write, hw, Console.left]

/-- An input that succeeds has flushed the writer, and stored the line that the feed hands out. -/
theorem perform_read_eq_ok_iff : s.perform .read = .ok () t ↔
    s.console.nextFlush = none ∧ ∃ line rest j, Feed.HandsOut line s.console.feed rest ∧
      s.machine.tape.resolve s.machine.pointer = .ok j ∧
      t = ⟨s.machine.put j (Cell.ofLineBytes line), s.console.flushed.asked rest⟩ := by
  refine ⟨fun h => ?_, fun ⟨hf, line, rest, j, hl, hr, ht⟩ => ?_⟩
  · cases hf : s.console.nextFlush with
    | some e =>
      rw [perform_read_of_nextFlush hf] at h
      cases h
    | none =>
      rcases s.console.feed.handsOut_or_breaks with ⟨line, rest, hl⟩ | ⟨lost, e, rest, hb⟩
      · rw [perform_read_of_handsOut hf hl] at h
        cases hr : s.machine.tape.resolve s.machine.pointer <;> rw [hr] at h <;> cases h
        exact ⟨rfl, line, rest, _, hl, rfl, rfl⟩
      · rw [perform_read_of_breaks hf hb] at h
        cases h
  · rw [perform_read_of_handsOut hf hl, hr, ht]

/-- An output that succeeds has written the cell, and nothing else. -/
theorem perform_print_eq_ok_iff : s.perform .print = .ok () t ↔
    ∃ v c, s.machine.cell = .ok v ∧ s.console.write (s.machine.encoding.encode v) = .ok () c ∧
      t = ⟨s.machine, c⟩ := by
  refine ⟨fun h => ?_, fun ⟨v, c, hv, hc, ht⟩ => by simp only [perform, printCell, hv, hc, ht]⟩
  simp only [perform, printCell] at h
  cases hv : s.machine.cell with
  | error e =>
    rw [hv] at h
    cases h
  | ok v =>
    rw [hv] at h
    simp only at h
    cases hc : s.console.write (s.machine.encoding.encode v) <;> rw [hc] at h <;> cases h
    exact ⟨v, _, rfl, hc, rfl⟩

/-! ### The ways to fail -/

theorem Fails.perform (h : s.Fails i f t) : s.perform i = .error f t := by
  cases h with
  | access hi ha he =>
    obtain ⟨m, c⟩ := s
    have he' : m.tape.resolve m.pointer = .error _ := he
    have hcell : m.cell = .error _ := congrArg (Except.map m.tape.cell) he'
    cases i with
    | change sign text => simp only [Session.perform, addCell, he']
    | right | left => exact absurd ha id
    | loopStart | loopEnd => simp only [Session.perform, jumpIf, hcell]
    | read => exact absurd rfl hi
    | print => simp only [Session.perform, printCell, hcell]
  | flush he => exact perform_read_of_nextFlush he
  | line hf hb => exact perform_read_of_breaks hf hb
  | store hf hl he => rw [perform_read_of_handsOut hf hl, he]
  | write hv he => rw [perform_print_of_cell hv, he]

theorem fails_of_perform (h : s.perform i = .error f t) : s.Fails i f t := by
  cases i with
  | change sign text =>
    simp only [perform, addCell] at h
    cases hr : s.machine.tape.resolve s.machine.pointer <;> rw [hr] at h <;> cases h
    exact .access (by simp) trivial hr
  | right | left => cases h
  | loopStart | loopEnd =>
    simp only [perform, jumpIf] at h
    cases hcell : s.machine.cell <;> rw [hcell] at h <;> cases h
    exact .access (by simp) trivial (resolve_of_cell_error hcell)
  | read =>
    cases hf : s.console.nextFlush with
    | some e =>
      rw [perform_read_of_nextFlush hf] at h
      cases h
      exact .flush hf
    | none =>
      rcases s.console.feed.handsOut_or_breaks with ⟨line, rest, hl⟩ | ⟨lost, e, rest, hb⟩
      · rw [perform_read_of_handsOut hf hl] at h
        cases hr : s.machine.tape.resolve s.machine.pointer <;> rw [hr] at h <;> cases h
        exact .store hf hl hr
      · rw [perform_read_of_breaks hf hb] at h
        cases h
        exact .line hf hb
  | print =>
    cases hcell : s.machine.cell with
    | error e =>
      simp only [perform, printCell, hcell] at h
      cases h
      exact .access (by simp) trivial (resolve_of_cell_error hcell)
    | ok v =>
      rw [perform_print_of_cell hcell] at h
      cases hw : (offer (s.machine.encoding.encode v) s.console.replies).failure <;>
        rw [hw] at h <;> cases h
      exact .write hcell hw

/-- **There are no other ways to fail** than those of `Fails`. -/
theorem perform_eq_error_iff : s.perform i = .error f t ↔ s.Fails i f t :=
  ⟨fails_of_perform, Fails.perform⟩

theorem exists_fails_of_dispatch (h : s.dispatch = .error f t) :
    ∃ i, s.machine.current? = some i ∧ s.Fails i f t := by
  cases hi : s.machine.current? with
  | none =>
    rw [dispatch_of_finished ((Machine.current?_eq_none_iff _).1 hi)] at h
    cases h
  | some i => exact ⟨i, rfl, fails_of_perform ((dispatch_of_current? hi).symm.trans h)⟩

/-- What fails because of the pointer prints nothing, and makes no call unless it is an input: then
the flush has succeeded and one line is taken. -/
theorem Fails.of_address {e : AddressError} (h : s.Fails i (.address e) t) :
    t.console.output = s.console.output ∧ (i ≠ .read → t = s) ∧
      (i = .read → s.console.nextFlush = none ∧ ∃ line rest,
        Feed.HandsOut line s.console.feed rest ∧ t.console = s.console.flushed.asked rest) := by
  cases h with
  | access hi => exact ⟨rfl, fun _ => rfl, fun h => absurd h hi⟩
  | store hf hl =>
    refine ⟨?_, fun h => absurd rfl h, fun _ => ⟨hf, _, _, hl, rfl⟩⟩
    rw [Console.output_asked, Console.output_flushed]

/-- What fails because of the reader or the writer is an input, in its flush or in its reading, or
an output on a cell, which makes no other calls than those that offer its bytes. -/
theorem Fails.of_io {e : IoError} (h : s.Fails i (.io e) t) :
    i = .read ∧ s.console.nextFlush = some e ∧ t.console = s.console.flushed ∨
      (i = .read ∧ s.console.nextFlush = none ∧ ∃ lost rest,
        Feed.Breaks lost e s.console.feed rest ∧ t.console = s.console.flushed.asked rest) ∨
      i = .print ∧ (∃ v, s.machine.cell = .ok v) ∧ t.console.feed = s.console.feed ∧
        t.console.flushes = s.console.flushes ∧
        ∃ events : List Event, t.console.transcript = s.console.transcript ++ events ∧
          ∀ event ∈ events, event.isFlush = false ∧ event ≠ .lineRequested := by
  cases h with
  | flush he => exact .inl ⟨rfl, he, rfl⟩
  | line hf hb => exact .inr (.inl ⟨rfl, hf, _, _, hb, rfl⟩)
  | write hv =>
    rw [Console.left_write]
    exact .inr (.inr ⟨rfl, ⟨_, hv⟩, rfl, rfl, _, rfl, offer_calls _ _⟩)

/-- **What a failing instruction leaves.** Tape, pointer and counter are as they were, like the rest
of the machine. If the pointer was the reason, no byte has been accepted, and nothing at all has
changed unless the instruction is an input: then the writer was flushed without a failure and
exactly one line was taken from the reader. If the reader or the writer was the reason, the
instruction is an input whose flush failed, with the reader untouched, or an input whose flush
succeeded and whose line was not complete when the reader failed, or an output on a cell, which has
touched neither the reader nor the flushes. There is no other reason. -/
theorem dispatch_error_effects (h : s.dispatch = .error f t) :
    t.machine = s.machine ∧ ∃ i, s.machine.current? = some i ∧
      (∀ e, f = .address e →
        t.console.output = s.console.output ∧ (i ≠ .read → t = s) ∧
          (i = .read → s.console.nextFlush = none ∧ ∃ line rest,
            Feed.HandsOut line s.console.feed rest ∧
            t.console = s.console.flushed.asked rest)) ∧
      (∀ e, f = .io e →
        (i = .read ∧ s.console.nextFlush = some e ∧ t.console = s.console.flushed ∧
          t.console.feed = s.console.feed) ∨
        (i = .read ∧ s.console.nextFlush = none ∧ ∃ lost rest,
          Feed.Breaks lost e s.console.feed rest ∧
          t.console = s.console.flushed.asked rest) ∨
        (i = .print ∧ (∃ v, s.machine.cell = .ok v) ∧ t.console.feed = s.console.feed ∧
          t.console.flushes = s.console.flushes ∧
          ∃ events : List Event, t.console.transcript = s.console.transcript ++ events ∧
            ∀ event ∈ events, event.isFlush = false ∧ event ≠ .lineRequested)) ∧
      f ≠ .aborted := by
  obtain ⟨i, hi, hfails⟩ := exists_fails_of_dispatch h
  refine ⟨machine_of_dispatch_error h, i, hi, fun e he => ?_, fun e he => ?_, ?_⟩
  · subst he
    exact hfails.of_address
  · subst he
    refine hfails.of_io.imp_left ?_
    rintro ⟨hread, hflush, hconsole⟩
    exact ⟨hread, hflush, hconsole, by rw [hconsole]; rfl⟩
  · rintro rfl
    cases hfails

/-- Asks for a line with the pointer in front of the tape. -/
def readsOutside : Session where
  machine := { program := #[.read], tape := Tape.new 1 .error, pointer := -1 }
  console := { feed := [.piece [65, 10, 66]], replies := [.fail ⟨.brokenPipe, none⟩] }

/-- The pointer is looked at when the line is taken; the second line is left. -/
theorem dispatch_error_effects_readsOutside :
    readsOutside.dispatch = .error (.address .beforeStart) (left readsOutside.dispatch) ∧
      (left readsOutside.dispatch).machine = readsOutside.machine ∧
      (left readsOutside.dispatch).console.output = [] ∧
      ∃ line rest, Feed.HandsOut line readsOutside.console.feed rest ∧
        (left readsOutside.dispatch).console = readsOutside.console.flushed.asked rest ∧
        rest = [.piece [66]] := by
  have h : readsOutside.dispatch = .error (.address .beforeStart) (left readsOutside.dispatch) :=
    rfl
  obtain ⟨hmachine, i, hi, haddress, -, -⟩ := dispatch_error_effects h
  obtain rfl : Instruction.read = i := Option.some.inj hi
  obtain ⟨houtput, -, hread⟩ := haddress _ rfl
  obtain ⟨-, line, rest, hl, hconsole⟩ := hread rfl
  have hrest : [Delivery.piece [66]] = rest := congrArg Console.feed hconsole
  exact ⟨h, hmachine, houtput, line, rest, hl, hconsole, hrest.symm⟩

end Session

end PhraseTape
