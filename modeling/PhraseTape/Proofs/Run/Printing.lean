import PhraseTape.Proofs.Run.Calls
import PhraseTape.Proofs.Run.Consoles

/-!
# What a run prints

The bytes that a writer accepts in a run are the encoded cells of the outputs of the run, one after
the other. Only the output at which the writer fails can leave a part of its bytes. A writer that
takes the bytes in small portions, or is interrupted, makes no difference to the run: it is the run
with a writer that accepts everything at once.

## Main definitions

* `WriteReply.Willing` : an answer of a writer that accepts something, or is interrupted.
* `Session.accepting` : a session whose writer accepts everything at once.
* `Session.Unhindered` : two sessions, of which the second prints the same with such a writer.

## Main results

* `Session.Unhindered.perform` : an instruction does not notice how its bytes are accepted.
* `Session.Unhindered.passes` : a run whose flushes succeed does not notice it either.
* `Session.execute_prints` : what a run prints.
-/

namespace PhraseTape

variable {σ : Type}

/-- The writer accepts some bytes, or is interrupted. -/
def WriteReply.Willing : WriteReply → Prop
  | .accept count => count ≠ 0
  | .fail e => e.isInterrupted = true

instance : DecidablePred WriteReply.Willing
  | .accept count => inferInstanceAs (Decidable (count ≠ 0))
  | .fail e => inferInstanceAs (Decidable (e.isInterrupted = true))

/-- A willing writer accepts all bytes, and stays willing. -/
theorem offer_of_willing {replies : List WriteReply} (h : ∀ r ∈ replies, r.Willing)
    (bytes : List UInt8) : (offer bytes replies).failure = none ∧
      ∀ r ∈ (offer bytes replies).replies, r.Willing := by
  induction replies generalizing bytes with
  | nil =>
    by_cases hb : bytes = []
    · simp [hb, offer_empty]
    · simp [offer_nil hb]
  | cons r replies ih =>
    obtain ⟨hr, hreplies⟩ := List.forall_mem_cons.1 h
    by_cases hb : bytes = []
    · rw [hb, offer_empty]
      exact ⟨rfl, h⟩
    cases r with
    | accept n =>
      cases n with
      | zero => exact absurd rfl hr
      | succ n =>
        rw [offer_accept_succ hb]
        exact ih hreplies _
    | fail e =>
      have he : e.isInterrupted = true := hr
      rw [offer_fail hb, if_pos he]
      exact ih hreplies _

/-! ### The console -/

namespace Console

/-- A willing writer is written all bytes, and stays willing. -/
theorem write_of_willing {c : Console} (h : ∀ r ∈ c.replies, r.Willing) (bytes : List UInt8) :
    ∃ d, c.write bytes = .ok () d ∧ d.feed = c.feed ∧ d.flushes = c.flushes ∧
      d.output = c.output ++ bytes ∧ ∀ r ∈ d.replies, r.Willing := by
  obtain ⟨hfailure, hwilling⟩ := offer_of_willing h bytes
  obtain ⟨rest, haccepted, hrest⟩ := offer_accepted bytes c.replies
  rw [hrest.1 hfailure, List.append_nil] at haccepted
  refine ⟨_, write_of_failure_none hfailure, rfl, rfl, ?_, hwilling⟩
  simp only [Console.output, Transcript.output_append, haccepted]

/-- The two consoles agree in their readers and in what was printed; the writer of the first is
willing, and the writer of the second accepts everything at once and is flushed without a
failure. -/
structure Unhindered (c d : Console) : Prop where
  feed : d.feed = c.feed
  output : d.output = c.output
  willing : ∀ r ∈ c.replies, r.Willing
  replies : d.replies = []
  flushes : d.flushes = []

variable {c d : Console}

theorem Unhindered.flushed (h : Unhindered c d) :
    d.nextFlush = none ∧ Unhindered c.flushed d.flushed := by
  have hd : d.nextFlush = none := by rw [nextFlush, h.flushes]; rfl
  have houtput : d.flushed.output = c.flushed.output := by
    rw [output_flushed, output_flushed, h.output]
  have hflushes : d.flushes.tail = [] := by rw [h.flushes, List.tail_nil]
  exact ⟨hd, h.feed, houtput, h.willing, h.replies, hflushes⟩

theorem Unhindered.flush (h : Unhindered c d) (hc : c.nextFlush = none) :
    Alike Unhindered c.flush d.flush :=
  alike_flush (h.flushed.1.trans hc.symm) h.flushed.2

theorem Unhindered.readLine (h : Unhindered c d) : Alike Unhindered c.readLine d.readLine := by
  refine alike_readLine h.feed fun rest => ⟨rfl, ?_, h.willing, h.replies, h.flushes⟩
  rw [output_asked, output_asked, h.output]

theorem Unhindered.write (h : Unhindered c d) {bytes : List UInt8} (hbytes : bytes ≠ []) :
    Alike Unhindered (c.write bytes) (d.write bytes) := by
  obtain ⟨c', hc', hfeed, -, houtput, hwilling⟩ := write_of_willing h.willing bytes
  have hd : offer bytes d.replies = ⟨[.wrote bytes], [], none⟩ := by
    rw [h.replies, offer_nil hbytes]
  have hd' : (offer bytes d.replies).failure = none := by rw [hd]
  rw [hc', write_of_failure_none hd']
  refine ⟨rfl, h.feed.trans hfeed.symm, ?_, hwilling, by rw [hd], h.flushes⟩
  rw [houtput, ← h.output]
  simp only [Console.output, Transcript.output_append, hd, Event.accepted, List.flatMap_cons,
    List.flatMap_nil, List.append_nil]

end Console

namespace Session

/-- The session whose writer accepts everything at once, and is flushed without a failure. -/
def accepting (s : Session) : Session :=
  { s with console := { s.console with replies := [], flushes := [] } }

/-- The two sessions differ at most in that the writer of the first takes the bytes in portions. -/
structure Unhindered (s t : Session) : Prop where
  machine : t.machine = s.machine
  console : Console.Unhindered s.console t.console

variable {s t u : Session} {i : Instruction} {f : Fault} {observe : Observer σ}

theorem unhindered_accepting (h : ∀ r ∈ s.console.replies, r.Willing) :
    Unhindered s s.accepting :=
  ⟨rfl, rfl, rfl, h, rfl, rfl⟩

/-! ### One instruction -/

theorem Unhindered.onConsoles (h : Unhindered s t) :
    OnConsoles s.machine.encoding s.machine.encoding Console.Unhindered s t :=
  ⟨rfl, h.machine, h.console⟩

/-- An instruction whose flush does not fail does not notice how its bytes are accepted. -/
theorem Unhindered.perform (h : Unhindered s t)
    (hflush : ∀ e, Event.flushed (some e) ∉ s.calls i) :
    Outcome.Alike (OnConsoles s.machine.encoding s.machine.encoding Console.Unhindered)
      (s.perform i) (t.perform i) := by
  refine h.onConsoles.perform (fun hi => ?_) (fun _ _ _ hcd => hcd.readLine) fun _ v =>
    h.console.write (s.machine.encoding.encode_ne_nil v)
  subst hi
  have hnone : s.console.nextFlush = none := by
    cases hc : s.console.nextFlush with
    | none => rfl
    | some e => exact absurd (by simp [calls, hc]) (hflush e)
  exact h.console.flush hnone

/-- A step whose flush does not fail does not notice how its bytes are accepted. -/
theorem Unhindered.step (h : Unhindered s t) (hi : s.machine.current? = some i)
    (hflush : ∀ e, Event.flushed (some e) ∉ s.calls i) :
    Outcome.Alike Unhindered s.step t.step :=
  (h.onConsoles.step hi (h.perform hflush)).mono fun _ _ hab => ⟨hab.machine_eq, hab.console⟩

/-! ### A run -/

/-- The instructions of a run that succeed do not notice how their bytes are accepted: a flush that
fails ends the run. -/
theorem Unhindered.passes {ms : List Moment} {a b : σ} (h : Unhindered s t)
    (hp : Passes observe ms a s b u) : ∃ v, Passes observe ms a t b v ∧ Unhindered u v := by
  induction hp generalizing t with
  | refl a s => exact ⟨t, .refl a t, h⟩
  | @step ms a b c s u w i hi ho hs _ ih =>
    obtain ⟨x, hx, -⟩ := perform_of_step_ok hi hs
    have halike := h.step hi (flushed_notMem_calls_of_ok hx)
    rw [hs] at halike
    obtain ⟨v, hv, huv⟩ := halike.of_ok
    obtain ⟨y, hy, hwy⟩ := ih huv
    rw [← h.machine] at hi ho ⊢
    exact ⟨y, .step hi ho hv hy, hwy⟩

/-- The end of a run does not notice how the bytes are accepted, unless a flush fails. -/
theorem Unhindered.rests {n : Nat} {a : σ} {r : Report σ} {events : List Event}
    (h : Unhindered s t) (hr : Rests observe a s n r)
    (hevents : r.session.console.transcript = s.console.transcript ++ events)
    (hflush : ∀ e, Event.flushed (some e) ∉ events) :
    ∃ q, Rests observe a t n q ∧ Report.Alike Unhindered r q := by
  cases hr with
  | running hi =>
    rw [← h.machine] at hi
    exact ⟨_, .running hi, rfl, rfl, h⟩
  | finish hi =>
    rw [finish_eq_flushed] at hevents
    have hlast : events = [.flushed s.console.nextFlush] :=
      Transcript.append_cancel (hevents.symm.trans (by simp [Console.flushed]))
    have hnone : s.console.nextFlush = none := by
      cases hc : s.console.nextFlush with
      | none => rfl
      | some e => exact absurd (by rw [hlast, hc]; exact List.mem_singleton_self _) (hflush e)
    obtain ⟨hnone', hflushed⟩ := h.console.flushed
    have hi' : t.machine.current? = none := by rw [h.machine, hi]
    refine ⟨_, .finish hi' n, ?_⟩
    rw [finish_eq_flushed, finish_eq_flushed, hnone, hnone']
    exact ⟨rfl, rfl, h.machine, hflushed⟩
  | abort hi ho =>
    rw [← h.machine] at hi ho
    exact ⟨_, .abort hi ho _, rfl, rfl, h⟩
  | fault hi ho hs =>
    obtain rfl :=
      Transcript.append_cancel (hevents.symm.trans (transcript_of_step_error hi hs))
    have halike := h.step hi hflush
    rw [hs] at halike
    obtain ⟨v, hv, huv⟩ := halike.of_error
    rw [← h.machine] at hi ho
    exact ⟨_, .fault hi ho hv _, rfl, rfl, huv⟩

/-- **What a run prints.** An instruction that is no output prints nothing. A run passes some
instructions and then rests; the bytes that its writer accepts are those of the outputs among these
instructions, in order. If the run was ended by a failure of the writer in an output, a proper
beginning of the bytes of this output follows, and otherwise nothing does. And if the writer never
takes zero bytes and never fails but by interruptions, and no flush of the run fails, the run with a
writer that accepts everything at once passes the same moments, has the same status and the same
notes, and leaves the same machine and the same reader, and has printed the same bytes. -/
theorem execute_prints (observe : Observer σ) (fuel : Nat) (a : σ) (s : Session) :
    (∀ (t : Session) (i : Instruction), t.machine.current? = some i → i ≠ .print →
      (left t.step).console.output = t.console.output) ∧
    let r := s.execute observe fuel a
    ∃ (ms : List Moment) (n : Nat) (b : σ) (t : Session) (events : List Event)
      (part : List UInt8), fuel = ms.length + n ∧
      Passes observe ms a s b t ∧ Rests observe b t n r ∧
      r.session.console.transcript = s.console.transcript ++ events ∧
      events.flatMap Event.accepted =
        ms.flatMap (Moment.printed s.machine.encoding) ++ part ∧
      (part = [] ∨ ∃ (e : IoError) (v : Cell) (rest : List UInt8),
        t.machine.current? = some .print ∧ t.machine.cell = .ok v ∧
        r.status = .stopped (.error (.io e)) ∧ t.step = .error (.io e) r.session ∧
        rest ≠ [] ∧ part ++ rest = s.machine.encoding.encode v) ∧
      ((∀ reply ∈ s.console.replies, reply.Willing) →
        (∀ e, Event.flushed (some e) ∉ events) →
        let free := s.accepting.execute observe fuel a
        (∃ u, Passes observe ms a s.accepting b u ∧ Rests observe b u n free) ∧
        free.status = r.status ∧ free.notes = r.notes ∧
        free.session.machine = r.session.machine ∧
        free.session.console.feed = r.session.console.feed ∧
        free.session.console.output = r.session.console.output) := by
  refine ⟨fun t i hi hne => ?_, ?_⟩
  · rw [Console.output, transcript_left_step hi, Transcript.output_append,
      accepted_calls_of_ne_print hne, List.append_nil]
    rfl
  · intro r
    obtain ⟨ms, n, b, t, hn, hpasses, hrests⟩ := exists_passes_rests observe fuel a s
    obtain ⟨passed, ht, hpassed⟩ := hpasses.exists_transcript
    obtain ⟨last, hr, hlast⟩ := hrests.exists_transcript
    refine ⟨ms, n, b, t, passed ++ last, last.flatMap Event.accepted, hn, hpasses, hrests, ?_, ?_,
      ?_, ?_⟩
    · rw [hr, ht, Transcript.append_append]
    · rw [List.flatMap_append, hpassed]
    · refine hlast.imp_right ?_
      rintro ⟨e, v, rest, hi, hv, hstatus, hstep, hrest, hsplit⟩
      exact ⟨e, v, rest, hi, hv, hstatus, hstep, hrest,
        hsplit.trans (by rw [hpasses.sameSetting.encoding])⟩
    · intro hwilling hflush free
      obtain ⟨u, hu, htu⟩ := (unhindered_accepting hwilling).passes hpasses
      obtain ⟨q, hq, halike⟩ := htu.rests hrests hr fun e he =>
        hflush e (List.mem_append_right _ he)
      obtain rfl : free = q := by
        rw [← hq.execute_eq, ← hu.leads.execute, ← hn]
      exact ⟨⟨u, hu, hq⟩, halike.status, halike.notes, halike.session.machine,
        halike.session.console.feed, halike.session.console.output⟩

/-- Prints a cell of two bytes to a writer that is interrupted between them. -/
def twoPortions : Session where
  machine := { program := #[.print], tape := (Tape.new 1 .error).put 0 233 }
  console := { replies := [.accept 1, .fail ⟨.interrupted, none⟩, .accept 1] }

/-- Both bytes are printed, as they are to a writer that accepts them at once. -/
theorem execute_prints_twoPortions :
    (∀ reply ∈ twoPortions.console.replies, reply.Willing) ∧
      (twoPortions.execute Observer.silent 1 ()).session.console.output = [195, 169] ∧
      (twoPortions.accepting.execute Observer.silent 1 ()).session.console.output =
        (twoPortions.execute Observer.silent 1 ()).session.console.output := by
  have hwilling : ∀ reply ∈ twoPortions.console.replies, reply.Willing := by decide
  have hcalls : (twoPortions.execute Observer.silent 1 ()).session.console.transcript =
      twoPortions.console.transcript ++
        [Event.wrote [195], .refused ⟨.interrupted, none⟩, .wrote [169], .flushed none] := by
    decide
  obtain ⟨-, ms, n, b, t, events, part, -, -, -, hevents, -, -, hfree⟩ :=
    execute_prints Observer.silent 1 () twoPortions
  obtain rfl := Transcript.append_cancel (hevents.symm.trans hcalls)
  obtain ⟨-, -, -, -, -, houtput⟩ := hfree hwilling (by simp)
  exact ⟨hwilling, by decide, houtput⟩

end Session

end PhraseTape
