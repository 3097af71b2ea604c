import PhraseTape.Proofs.Console.Mending
import PhraseTape.Proofs.Run.Deliveries
import PhraseTape.Proofs.Run.Retries

/-!
# Failures of the reader

A reader that fails inside a line has lost the bytes that it had delivered for the line. The input
that asked for the line has failed, and is carried out again when the run is taken up; then it reads
the line behind the failure. So the run that is taken up after each failure is a single run on the
mended feed, from which the failures and the lost bytes are deleted.

## Main definitions

* `Session.mended` : a session without its first failures of the reader.
* `Session.Twins` : two sessions that only differ in the calls of their writers.
* `Session.Mends` : two sessions, of which the second reads from a mended feed.

## Main results

* `Session.Mends.perform_ok`, `Session.Mends.perform_io` : an instruction that succeeds does so on
  the mended feed, and an input that fails is still to come there.
* `Session.Mends.exists_execute_of_retries` : the mended run comes to where a run is taken up.
* `Session.retries_on_mended_feed` : a run that is taken up again after failures of its reader.
-/

namespace PhraseTape

namespace Console

/-- The two consoles agree in their readers and in what was printed, and their writers never
fail. -/
structure Twins (c d : Console) : Prop where
  feed : d.feed = c.feed
  output : d.output = c.output
  left : c.Reliable
  right : d.Reliable

variable {c d : Console}

theorem Twins.flushed (h : Twins c d) : Twins c.flushed d.flushed := by
  refine ⟨h.feed, ?_, h.left.flushed, h.right.flushed⟩
  rw [output_flushed, output_flushed, h.output]

theorem Twins.flush (h : Twins c d) : Alike Twins c.flush d.flush :=
  alike_flush (h.right.nextFlush.trans h.left.nextFlush.symm) h.flushed

theorem Twins.asked (h : Twins c d) (rest : Feed) : Twins (c.asked rest) (d.asked rest) := by
  refine ⟨rfl, ?_, h.left.asked rest, h.right.asked rest⟩
  rw [output_asked, output_asked, h.output]

theorem Twins.readLine (h : Twins c d) : Alike Twins c.readLine d.readLine :=
  alike_readLine h.feed h.asked

theorem Twins.write (h : Twins c d) (bytes : List UInt8) :
    Alike Twins (c.write bytes) (d.write bytes) := by
  obtain ⟨c', hc, hfeed, houtput, hreliable⟩ := h.left.write bytes
  obtain ⟨d', hd, hfeed', houtput', hreliable'⟩ := h.right.write bytes
  rw [hc, hd]
  exact ⟨rfl, by rw [hfeed', hfeed, h.feed], by rw [houtput', houtput, h.output], hreliable,
    hreliable'⟩

end Console

namespace Session

/-- The session without the first `k` failures of its reader, and the bytes that are lost with
them. -/
def mended (k : Nat) (s : Session) : Session :=
  s.withFeed (s.console.feed.mend k)

/-- The sessions agree in their machines, their readers and what was printed, and their writers
never fail. -/
structure Twins (s t : Session) : Prop where
  machine : t.machine = s.machine
  console : Console.Twins s.console t.console

/-- The sessions agree in their machines and what was printed, their writers never fail, and the
second session reads the lines that the first one reads when its first `k` failures are deleted. -/
structure Mends (k : Nat) (s m : Session) : Prop where
  machine : m.machine = s.machine
  reading : m.console.feed.readLine [] = (s.console.feed.mend k).readLine []
  output : m.console.output = s.console.output
  left : s.console.Reliable
  right : m.console.Reliable

variable {s t m w : Session} {i : Instruction} {e : IoError} {k : Nat}
  {failed : List (Option Moment)}

theorem mends_mended (h : s.console.Reliable) (k : Nat) : Mends k s (s.mended k) :=
  ⟨rfl, rfl, rfl, h, h.willing, h.flushes⟩

/-! ### Twins -/

theorem Twins.step (h : Twins s t) (hi : s.machine.current? = some i) :
    Outcome.Alike Twins s.step t.step := by
  have hconsoles : OnConsoles s.machine.encoding s.machine.encoding Console.Twins s t :=
    ⟨rfl, h.machine, h.console⟩
  have halike := hconsoles.perform (i := i) (fun _ => h.console.flush)
    (fun _ _ _ hcd => hcd.readLine) fun _ v => h.console.write (s.machine.encoding.encode v)
  exact (hconsoles.step hi halike).mono fun _ _ huv => ⟨huv.machine_eq, huv.console⟩

theorem Twins.finish (h : Twins s t) : Report.Alike Twins (s.finish ()) (t.finish ()) := by
  rw [finish_eq_flushed, finish_eq_flushed, h.console.left.nextFlush, h.console.right.nextFlush]
  exact ⟨rfl, rfl, h.machine, h.console.flushed⟩

/-- Two runs of twins. -/
theorem lockstep_twins : Lockstep Observer.silent Observer.silent Twins fun _ _ => True where
  current h := congrArg Machine.current? h.machine
  verdict _ _ _ := rfl
  step h hi _ _ := h.step hi
  finish _ h := h.finish

/-! ### One instruction on a mended feed -/

/-- An input whose line is complete receives the same line from the mended feed. -/
theorem Mends.handsOut (h : Mends k s m) {line : List UInt8} {rest : Feed}
    (hl : Feed.HandsOut line s.console.feed rest) :
    Feed.HandsOut line m.console.feed (rest.mend k) :=
  Feed.readLine_eq_ok_iff.1 (h.reading.trans (Feed.mend_of_handsOut hl k).readLine)

/-- What two inputs have printed is the same if it was before. -/
theorem Mends.output_asked (h : Mends k s m) (left left' : Feed) :
    (m.console.flushed.asked left').output = (s.console.flushed.asked left).output := by
  simp only [Console.output_asked, Console.output_flushed, h.output]

/-- An input that succeeds does so on the mended feed. -/
theorem Mends.perform_read_ok (h : Mends k s m) (hs : s.perform .read = .ok () t) :
    ∃ n, m.perform .read = .ok () n ∧ Mends k t n ∧
      t.console.feed.failures = s.console.feed.failures := by
  obtain ⟨-, line, rest, j, hl, hr, rfl⟩ := perform_read_eq_ok_iff.1 hs
  refine ⟨_, perform_read_eq_ok_iff.2 ⟨h.right.nextFlush, line, _, j, h.handsOut hl,
    h.machine ▸ hr, rfl⟩, ⟨?_, rfl, h.output_asked _ _, h.left.flushed.asked _,
    h.right.flushed.asked _⟩, hl.failures_eq⟩
  rw [h.machine]

/-- An output that succeeds does so on the mended feed. -/
theorem Mends.perform_print_ok (h : Mends k s m) (hs : s.perform .print = .ok () t) :
    ∃ n, m.perform .print = .ok () n ∧ Mends k t n ∧
      t.console.feed.failures = s.console.feed.failures := by
  obtain ⟨v, c, hv, hc, rfl⟩ := perform_print_eq_ok_iff.1 hs
  obtain ⟨c', hc', hfeed, houtput, hreliable⟩ := h.left.write (s.machine.encoding.encode v)
  obtain ⟨d, hd, hfeed', houtput', hreliable'⟩ := h.right.write (s.machine.encoding.encode v)
  rw [hc] at hc'
  cases hc'
  refine ⟨⟨s.machine, d⟩, ?_, ⟨rfl, ?_, ?_, hreliable, hreliable'⟩, by rw [hfeed]⟩
  · exact perform_print_eq_ok_iff.2 ⟨v, d, h.machine ▸ hv, h.machine ▸ hd, by rw [h.machine]⟩
  · rw [hfeed, hfeed', h.reading]
  · rw [houtput, houtput', h.output]

/-- **An instruction that succeeds does so on the mended feed**, and takes no failure. -/
theorem Mends.perform_ok (h : Mends k s m) (hs : s.perform i = .ok () t) :
    ∃ n, m.perform i = .ok () n ∧ Mends k t n ∧
      t.console.feed.failures = s.console.feed.failures := by
  by_cases hread : i = .read
  · subst hread
    exact h.perform_read_ok hs
  by_cases hprint : i = .print
  · subst hprint
    exact h.perform_print_ok hs
  have halike := perform_of_machine_eq h.machine hread hprint
  rw [hs] at halike
  obtain ⟨n, hn, hmachine, ht, hconsole⟩ := halike.of_ok
  refine ⟨n, hn, ⟨hmachine, ?_, ?_, ?_, ?_⟩, by rw [ht]⟩ <;> simp only [ht, hconsole]
  · exact h.reading
  · exact h.output
  · exact h.left
  · exact h.right

/-- What fails because of the reader is an input; one failure is taken, and on the mended feed the
input is still to come. -/
theorem Mends.perform_io (h : Mends (k + 1) s m) (hs : s.perform i = .error (.io e) t) :
    i = .read ∧ Mends k t m ∧ s.console.feed.failures = t.console.feed.failures + 1 := by
  cases fails_of_perform hs with
  | flush he =>
    rw [h.left.nextFlush] at he
    cases he
  | line hf hb =>
    refine ⟨rfl, ⟨h.machine, h.reading.trans (Feed.mend_of_breaks hb k), ?_,
      h.left.flushed.asked _, h.right⟩, hb.failures_eq⟩
    rw [Console.output_asked, Console.output_flushed, h.output]
  | @write _ v hv he =>
    rw [(offer_of_willing h.left.willing _).1] at he
    cases he

/-- From the first input on, a feed that hands out the same lines is the same. -/
theorem Mends.perform_read (h : Mends 0 s m) :
    Outcome.Alike Twins (s.perform .read) (m.perform .read) := by
  have hreading := h.reading
  rw [Feed.mend_zero] at hreading
  have htwins : ∀ rest, Console.Twins (s.console.flushed.asked rest)
      (m.console.flushed.asked rest) := fun rest =>
    ⟨rfl, h.output_asked _ _, h.left.flushed.asked rest, h.right.flushed.asked rest⟩
  rcases s.console.feed.handsOut_or_breaks with ⟨line, rest, hl⟩ | ⟨lost, e, rest, hb⟩
  · have hl' := Feed.readLine_eq_ok_iff.1 (hreading.trans hl.readLine)
    rw [perform_read_of_handsOut h.left.nextFlush hl,
      perform_read_of_handsOut h.right.nextFlush hl', h.machine]
    cases s.machine.tape.resolve s.machine.pointer with
    | ok j => exact ⟨rfl, htwins rest⟩
    | error f => exact ⟨rfl, rfl, htwins rest⟩
  · obtain ⟨lost', hb'⟩ := Feed.readLine_eq_error_iff.1 (hreading.trans hb.readLine)
    rw [perform_read_of_breaks h.left.nextFlush hb, perform_read_of_breaks h.right.nextFlush hb']
    exact ⟨rfl, h.machine, htwins rest⟩

/-! ### Runs on a mended feed -/

theorem Mends.advance (h : Mends k s m) : Mends k s.advance m.advance :=
  ⟨congrArg Machine.advance h.machine, h.reading, h.output, h.left, h.right⟩

/-- A run that fails because of its reader has come to an input. On a mended feed the run comes to
the same input, and goes on there. -/
theorem Mends.exists_execute_of_ends {a b : Unit} (h : Mends (k + 1) s m)
    (hs : Ends Observer.silent a s (.error (.io e)) b t) :
    t.machine.current? = some .read ∧
      s.console.feed.failures = t.console.feed.failures + 1 ∧
      ∃ n m', Mends k t m' ∧ ∀ fuel,
        m.execute Observer.silent (n + fuel) () = m'.execute Observer.silent fuel () := by
  generalize hr : Except.error (Fault.io e) = r at hs
  induction hs generalizing m with
  | finish hi hs =>
    rw [finish_eq_flushed, h.left.nextFlush] at hs
    cases hs
    cases hr
  | abort hi ho => cases hr
  | @fault a b s t i f hi ho hs =>
    cases hr
    obtain ⟨rfl, hmends, hfailures⟩ := h.perform_io (perform_of_step_error hi hs)
    have hmachine : t.machine = s.machine := hmends.machine.symm.trans h.machine
    exact ⟨hmachine ▸ hi, hfailures, 0, m, hmends, fun fuel => by rw [Nat.zero_add]⟩
  | @step a b c s t u i r hi ho hs _ ih =>
    obtain ⟨v, hv, rfl⟩ := perform_of_step_ok hi hs
    obtain ⟨n, hn, hmends, hfailures⟩ := h.perform_ok hv
    obtain ⟨hread, hcount, k, m', hm', hexecute⟩ := ih hmends.advance hr
    have hi' : m.machine.current? = some i := by rw [h.machine, hi]
    have hstep : m.step = .ok () n.advance := by rw [step_of_current? hi', hn]
    refine ⟨hread, hfailures.symm.trans hcount, k + 1, m', hm', fun fuel => ?_⟩
    rw [Nat.add_right_comm, execute_of_step hi' rfl hstep]
    exact hexecute fuel

/-- The run on a mended feed comes to where a run is taken up again, and goes on there. -/
theorem Mends.exists_execute_of_retries (h : Mends (failed.length + k) s m)
    (hw : Retries failed s w) :
    (∀ x ∈ failed, x.map Moment.instruction = some .read) ∧
      (failed = [] ∧ w = s ∨ w.machine.current? = some .read) ∧
      ∃ n m', Mends k w m' ∧ ∀ fuel,
        m.execute Observer.silent (n + fuel) () = m'.execute Observer.silent fuel () := by
  induction hw generalizing m with
  | refl s =>
    refine ⟨by simp, .inl ⟨rfl, rfl⟩, 0, m, ?_, fun fuel => by rw [Nat.zero_add]⟩
    rwa [List.length_nil, Nat.zero_add] at h
  | @again failed s t w e hs _ ih =>
    rw [List.length_cons, Nat.add_right_comm] at h
    obtain ⟨hread, -, n, m₁, h₁, hn⟩ := h.exists_execute_of_ends hs
    obtain ⟨hfailed, hw, n', m₂, h₂, hn'⟩ := ih h₁
    refine ⟨List.forall_mem_cons.2 ⟨?_, hfailed⟩, .inr ?_, n + n', m₂, h₂, fun fuel => ?_⟩
    · rw [moment?, hread]
      rfl
    · rcases hw with ⟨-, rfl⟩ | hw
      · exact hread
      · exact hw
    · rw [Nat.add_assoc, hn, hn']

/-- A run that is taken up at an input is alike on a feed that hands out the same lines. -/
theorem Mends.execute_alike (h : Mends 0 s m) (hi : s.machine.current? = some .read)
    (fuel : Nat) :
    Report.Alike Twins (s.execute Observer.silent (fuel + 1) ())
      (m.execute Observer.silent (fuel + 1) ()) := by
  have hi' : m.machine.current? = some .read := by rw [h.machine, hi]
  have hstep := alike_step hi hi'
    (fun _ _ htwins => ⟨congrArg Machine.advance htwins.machine, htwins.console⟩) h.perform_read
  cases hs : s.step with
  | ok _ t =>
    rw [hs] at hstep
    obtain ⟨n, hn, htn⟩ := hstep.of_ok
    rw [execute_of_step hi rfl hs, execute_of_step hi' rfl hn]
    exact lockstep_twins.execute_alike htn fuel ()
  | error f t =>
    rw [hs] at hstep
    obtain ⟨n, hn, htn⟩ := hstep.of_error
    rw [execute_of_fault hi rfl hs, execute_of_fault hi' rfl hn]
    exact ⟨rfl, rfl, htn⟩

/-- Each time that a run is taken up, one failure fewer is left. -/
theorem exists_retries (h : s.console.Reliable) : ∃ failed w, Retries failed s w ∧
    failed.length ≤ s.console.feed.failures ∧
    ∀ e t, ¬ Ends Observer.silent () w (.error (.io e)) () t := by
  induction hn : s.console.feed.failures generalizing s with
  | zero =>
    refine ⟨[], s, .refl s, Nat.le_refl 0, fun e t hs => ?_⟩
    obtain ⟨-, hfailures, -⟩ := (mends_mended h 1).exists_execute_of_ends hs
    omega
  | succ n ih =>
    by_cases hs : ∃ e t, Ends Observer.silent () s (.error (.io e)) () t
    · obtain ⟨e, t, hs⟩ := hs
      obtain ⟨-, hfailures, -, m, hmends, -⟩ := (mends_mended h 1).exists_execute_of_ends hs
      obtain ⟨failed, w, hretries, hlength, hend⟩ := ih hmends.left (by omega)
      exact ⟨_, w, .again hs hretries, Nat.succ_le_succ hlength, hend⟩
    · exact ⟨[], s, .refl s, Nat.zero_le _, fun e t ht => hs ⟨e, t, ht⟩⟩

/-- A run that is taken up again goes on like the run on the mended feed. -/
theorem exists_execute_mended_alike (h : s.console.Reliable) (hw : Retries failed s w) :
    ∃ n, ∀ fuel, Report.Alike Twins (w.execute Observer.silent (fuel + 1) ())
      ((s.mended failed.length).execute Observer.silent (n + (fuel + 1)) ()) := by
  obtain ⟨-, hcase, n, m, hm, hn⟩ :=
    (mends_mended h failed.length).exists_execute_of_retries (k := 0) hw
  rcases hcase with ⟨rfl, rfl⟩ | hread
  · have hself : Twins w (w.mended 0) := by
      rw [mended, Feed.mend_zero]
      exact ⟨rfl, rfl, rfl, h, h⟩
    refine ⟨0, fun fuel => ?_⟩
    rw [Nat.zero_add]
    exact lockstep_twins.execute_alike hself (fuel + 1) ()
  · refine ⟨n, fun fuel => ?_⟩
    rw [hn]
    exact hm.execute_alike hread fuel

/-- **Failures of the reader cost the line that they break, and nothing else.** Let the writer never
fail. A run that is taken up again after each failure fails no more often than the reader does, and
only at inputs. However often it was taken up, it goes on like the run on the mended feed, where the
failures are deleted and, with each of them, the bytes that were delivered for the line that it
broke: for every number of instructions the two runs have the same status, and leave the same
machine, the same reader and the same bytes printed. So if the run that is taken up again ends at
last, the run on the mended feed ends with the same result. -/
theorem retries_on_mended_feed (h : s.console.Reliable) :
    (∃ failed w, Retries failed s w ∧ failed.length ≤ s.console.feed.failures ∧
      ∀ e t, ¬ Ends Observer.silent () w (.error (.io e)) () t) ∧
    (∀ failed w, Retries failed s w →
      (∀ x ∈ failed, x.map Moment.instruction = some .read) ∧
      ∃ n, ∀ fuel, Report.Alike Twins (w.execute Observer.silent (fuel + 1) ())
        ((s.mended failed.length).execute Observer.silent (n + (fuel + 1)) ())) ∧
    ∀ failed r t, Resumed failed s r t →
      ∃ u, Ends Observer.silent () (s.mended failed.length) r () u ∧
        u.machine = t.machine ∧ u.console.feed = t.console.feed ∧
        u.console.output = t.console.output := by
  refine ⟨exists_retries h, fun failed w hw => ⟨?_, exists_execute_mended_alike h hw⟩,
    fun failed r t ⟨w, hw, hends, _⟩ => ?_⟩
  · exact ((mends_mended h failed.length).exists_execute_of_retries (k := 0) hw).1
  obtain ⟨n, hn⟩ := exists_execute_mended_alike h hw
  obtain ⟨fuel, hfuel⟩ := hends.execute
  have halike := hn fuel
  rw [execute_add, hfuel] at halike
  obtain ⟨hstatus, -, htwins⟩ := halike
  generalize hq : (s.mended failed.length).execute Observer.silent (n + (fuel + 1)) () = q
    at hstatus htwins
  obtain ⟨status, notes, u⟩ := q
  obtain rfl : status = .stopped r := hstatus
  exact ⟨u, ends_of_execute hq, htwins.machine, htwins.console.feed, htwins.console.output⟩

/-- Asks for two lines; the reader fails twice, for the first time inside the second line. -/
def asksTwice : Session where
  machine := { program := #[.read, .read], tape := Tape.new 1 .error }
  console :=
    { feed := [.piece [65, 10, 66], .failure ⟨.brokenPipe, none⟩, .failure ⟨.brokenPipe, none⟩,
        .piece [67, 10, 68]] }

/-- The byte in front of the first failure is lost, and the two lines are those of the mended
feed. -/
theorem retries_on_mended_feed_asksTwice :
    asksTwice.console.Reliable ∧
    asksTwice.console.feed.mend 2 = [.piece [65, 10], .piece [67, 10, 68]] ∧
    ∃ failed t u, Resumed failed asksTwice (.ok ()) t ∧ failed.length = 2 ∧
      Ends Observer.silent () (asksTwice.mended 2) (.ok ()) () u ∧ u.machine = t.machine ∧
      t.console.feed = [.piece [68]] ∧ u.console.feed = [.piece [68]] := by
  have hreliable : asksTwice.console.Reliable := ⟨by simp [asksTwice], by simp [asksTwice]⟩
  let first := (asksTwice.execute Observer.silent 2 ()).session
  let second := (first.execute Observer.silent 2 ()).session
  let third := (second.execute Observer.silent 2 ()).session
  have hresumed : Resumed [first.moment?, second.moment?] asksTwice (.ok ()) third :=
    ⟨second, .again (ends_of_execute (n := 2) rfl)
      (.again (ends_of_execute (n := 2) rfl) (.refl _)), ends_of_execute (n := 2) rfl, by simp⟩
  obtain ⟨-, -, hmended⟩ := retries_on_mended_feed hreliable
  obtain ⟨u, hu, hmachine, hfeed, -⟩ := hmended _ _ _ hresumed
  exact ⟨hreliable, by decide, _, _, u, hresumed, rfl, hu, hmachine, rfl, hfeed⟩

end Session

end PhraseTape
