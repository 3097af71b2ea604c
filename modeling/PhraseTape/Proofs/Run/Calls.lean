import PhraseTape.Proofs.Run.Moments

/-!
# The calls of a run

Each instruction makes calls to the reader and the writer of its session, and the transcript of a
run is the sequence of the calls of its instructions. An input flushes the writer and then asks for
a line, an output offers the bytes of a cell, and no other instruction makes a call. So the bytes
that a run has printed are those of the outputs among its instructions.

## Main definitions

* `Session.calls` : the calls that an instruction makes.
* `Moment.printed` : the bytes of an instruction that is an output.

## Main results

* `Session.transcript_left_step` : a step adds the calls of its instruction to the transcript.
* `Session.accepted_calls_of_ok`, `Session.accepted_calls_of_error` : the bytes that are accepted
  from an instruction that succeeds, and from one that fails.
* `Session.Passes.exists_transcript`, `Session.Rests.exists_transcript` : the calls of a run, and
  the bytes accepted by them.
* `Session.output_isPrefix_execute` : a run takes back nothing that was printed.
-/

namespace PhraseTape

variable {σ : Type}

/-- The bytes that an instruction prints if it is an output and there is a cell under the
pointer. -/
def Moment.printed (encoding : OutputEncoding) (m : Moment) : List UInt8 :=
  match m.instruction, m.cell with
  | .print, .ok v => encoding.encode v
  | _, _ => []

namespace Session

/-- The calls that the instruction `i` makes. -/
def calls (i : Instruction) (s : Session) : List Event :=
  match i with
  | .read =>
    match s.console.nextFlush with
    | none => [.flushed none, .lineRequested]
    | some e => [.flushed (some e)]
  | .print =>
    match s.machine.cell with
    | .ok v => (offer (s.machine.encoding.encode v) s.console.replies).calls
    | .error _ => []
  | _ => []

end Session

/-! ### One operation -/

theorem Transcript.append_append (t : Transcript) (d e : List Event) :
    t ++ d ++ e = t ++ (d ++ e) :=
  Array.toList_inj.1 (by simp)

theorem Transcript.append_cancel {t : Transcript} {d e : List Event} (h : t ++ d = t ++ e) :
    d = e := by
  have := congrArg Array.toList h
  simpa using this

theorem Transcript.flushes_append (t : Transcript) (events : List Event) :
    flushes (t ++ events) = flushes t + events.countP Event.isFlush := by
  simp [flushes, ← Array.countP_toList]

namespace Console

variable {c : Console}

theorem transcript_left_readLine (c : Console) :
    (left c.readLine).transcript = c.transcript.push .lineRequested := by
  obtain ⟨feed, h⟩ := c.left_readLine
  rw [h]

theorem transcript_left_write (c : Console) (bytes : List UInt8) :
    (left (c.write bytes)).transcript = c.transcript ++ (offer bytes c.replies).calls := by
  rw [left_write]

theorem write_of_failure_none {bytes : List UInt8} (h : (offer bytes c.replies).failure = none) :
    c.write bytes = .ok ()
      { c with
        replies := (offer bytes c.replies).replies
        transcript := c.transcript ++ (offer bytes c.replies).calls } := by
  simp only [write, h]

theorem failure_of_write_ok {bytes : List UInt8} {d : Console} (h : c.write bytes = .ok () d) :
    (offer bytes c.replies).failure = none := by
  rw [write] at h
  cases ho : (offer bytes c.replies).failure with
  | none => rfl
  | some e =>
    rw [ho] at h
    cases h

theorem failure_of_write_error {bytes : List UInt8} {d : Console} {e : IoError}
    (h : c.write bytes = .error e d) : (offer bytes c.replies).failure = some e := by
  rw [write] at h
  cases ho : (offer bytes c.replies).failure with
  | none =>
    rw [ho] at h
    cases h
  | some e' =>
    rw [ho] at h
    cases h
    rfl

end Console

namespace Session

variable {s t : Session} {i : Instruction} {f : Fault} {observe : Observer σ}

/-! ### One instruction -/

/-- The calls of an instruction are added to the transcript, whether it fails or not. -/
theorem transcript_left_perform (i : Instruction) (s : Session) :
    (left (s.perform i)).console.transcript = s.console.transcript ++ s.calls i := by
  obtain ⟨m, c⟩ := s
  cases i with
  | change sign text =>
    simp only [perform, addCell, calls]
    cases m.tape.resolve m.pointer <;> simp [left]
  | right | left => simp [perform, left, calls]
  | loopStart | loopEnd =>
    simp only [perform, jumpIf, calls]
    cases m.cell <;> simp [left]
  | read =>
    simp only [perform, readCell, calls]
    cases hflush : c.nextFlush with
    | some e => simp [Console.flush_of_nextFlush_some hflush, Console.flushed, hflush, left]
    | none =>
      simp only [Console.flush_of_nextFlush_none hflush]
      have hline : (Console.left c.flushed.readLine).transcript =
          c.transcript ++ [Event.flushed none, Event.lineRequested] := by
        rw [Console.transcript_left_readLine, Console.flushed, hflush]
        simp
      cases hread : c.flushed.readLine with
      | error e d' =>
        rw [hread] at hline
        exact hline
      | ok line d' =>
        rw [hread] at hline
        simp only
        cases m.tape.resolve m.pointer <;> exact hline
  | print =>
    simp only [perform, printCell, calls]
    cases m.cell with
    | error e => simp [left]
    | ok v =>
      have hwrite := c.transcript_left_write (m.encoding.encode v)
      cases hw : c.write (m.encoding.encode v) with
      | error e d =>
        rw [hw] at hwrite
        simp only [hw]
        exact hwrite
      | ok _ d =>
        rw [hw] at hwrite
        simp only [hw]
        exact hwrite

/-- No bytes are accepted from an instruction that is no output. -/
theorem accepted_calls_of_ne_print (hi : i ≠ .print) (s : Session) :
    (s.calls i).flatMap Event.accepted = [] := by
  cases i with
  | read =>
    simp only [calls]
    cases s.console.nextFlush <;> rfl
  | print => exact absurd rfl hi
  | _ => rfl

/-- An instruction that succeeds has made no flush that failed. -/
theorem flushed_notMem_calls_of_ok (h : s.perform i = .ok () t) (e : IoError) :
    .flushed (some e) ∉ s.calls i := by
  obtain ⟨m, c⟩ := s
  cases i with
  | read =>
    simp only [perform, readCell] at h
    simp only [calls]
    cases hflush : c.nextFlush with
    | some d =>
      rw [Console.flush_of_nextFlush_some hflush] at h
      cases h
    | none => simp
  | print =>
    simp only [calls]
    split
    next v hv =>
      intro hmem
      have := (offer_calls _ _ _ hmem).1
      cases this
    next => exact List.not_mem_nil
  | _ => exact List.not_mem_nil

/-- From an instruction that succeeds the bytes that it prints are accepted. -/
theorem accepted_calls_of_ok (h : s.perform i = .ok () t) :
    (s.calls i).flatMap Event.accepted =
      (s.machine.moment i).printed s.machine.encoding := by
  by_cases hi : i = .print
  · subst hi
    obtain ⟨m, c⟩ := s
    simp only [perform, printCell] at h
    cases hv : m.cell with
    | error e =>
      rw [hv] at h
      cases h
    | ok v =>
      rw [hv] at h
      simp only at h
      cases hw : c.write (m.encoding.encode v) with
      | error e d =>
        rw [hw] at h
        cases h
      | ok _ d =>
        obtain ⟨rest, hrest, hnone⟩ := offer_accepted (m.encoding.encode v) c.replies
        rw [hnone.1 (Console.failure_of_write_ok hw), List.append_nil] at hrest
        have hcell : (m.moment .print).cell = .ok v := hv
        simp only [calls, hv, hrest, Moment.printed, hcell]
        rfl
  · rw [accepted_calls_of_ne_print hi]
    cases i with
    | print => exact absurd rfl hi
    | _ => rfl

/-- From an instruction that fails no bytes are accepted, unless it is an output and the writer
fails: then they are a proper beginning of the bytes that it prints. -/
theorem accepted_calls_of_error (h : s.perform i = .error f t) :
    (s.calls i).flatMap Event.accepted = [] ∨ ∃ (e : IoError) (v : Cell) (rest : List UInt8),
      i = .print ∧ f = .io e ∧ s.machine.cell = .ok v ∧ rest ≠ [] ∧
        (s.calls i).flatMap Event.accepted ++ rest = s.machine.encoding.encode v := by
  by_cases hi : i = .print
  · subst hi
    obtain ⟨m, c⟩ := s
    simp only [perform, printCell] at h
    cases hv : m.cell with
    | error e => exact .inl (by simp only [calls, hv, List.flatMap_nil])
    | ok v =>
      rw [hv] at h
      simp only at h
      cases hw : c.write (m.encoding.encode v) with
      | ok _ d =>
        rw [hw] at h
        cases h
      | error e d =>
        rw [hw] at h
        cases h
        obtain ⟨rest, hrest, hnone⟩ := offer_accepted (m.encoding.encode v) c.replies
        refine .inr ⟨e, v, rest, rfl, rfl, rfl, fun hnil => ?_,
          by simpa only [calls, hv] using hrest⟩
        have hfailure := hnone.2 hnil
        rw [Console.failure_of_write_error hw] at hfailure
        cases hfailure
  · exact .inl (accepted_calls_of_ne_print hi s)

/-- An instruction that succeeds flushes the writer once if it is an input, and otherwise not at
all. -/
theorem countP_isFlush_calls_of_ok (h : s.perform i = .ok () t) :
    (s.calls i).countP Event.isFlush = if i = .read then 1 else 0 := by
  cases i with
  | read =>
    obtain ⟨m, c⟩ := s
    cases hflush : c.nextFlush with
    | none =>
      simp only [calls, hflush]
      rfl
    | some e => simp [perform, readCell, Console.flush_of_nextFlush_some hflush] at h
  | print =>
    simp only [calls]
    split
    next v hv =>
      have hnone := fun call hcall => (offer_calls (s.machine.encoding.encode v)
        s.console.replies call hcall).1
      simpa [List.countP_eq_zero] using hnone
    next => rfl
  | _ => rfl

/-! ### One step -/

/-- A step adds the calls of its instruction to the transcript. -/
theorem transcript_left_step (hi : s.machine.current? = some i) :
    (left s.step).console.transcript = s.console.transcript ++ s.calls i := by
  rw [← transcript_left_perform i s, step_of_current? hi]
  cases s.perform i <;> rfl

theorem transcript_of_step_ok (hi : s.machine.current? = some i) (h : s.step = .ok () t) :
    t.console.transcript = s.console.transcript ++ s.calls i := by
  have hcalls := transcript_left_step hi
  rwa [h] at hcalls

theorem transcript_of_step_error (hi : s.machine.current? = some i) (h : s.step = .error f t) :
    t.console.transcript = s.console.transcript ++ s.calls i := by
  have hcalls := transcript_left_step hi
  rwa [h] at hcalls

/-- A step that succeeds prints the bytes of its instruction. -/
theorem output_of_step_ok (hi : s.machine.current? = some i) (h : s.step = .ok () t) :
    t.console.output =
      s.console.output ++ (s.machine.moment i).printed s.machine.encoding := by
  obtain ⟨u, hp, -⟩ := perform_of_step_ok hi h
  rw [Console.output, transcript_of_step_ok hi h, Transcript.output_append,
    accepted_calls_of_ok hp, Console.output]

/-! ### A run -/

/-- The part of a run that succeeds adds to the transcript the calls of its instructions, and the
bytes accepted by them are those of its outputs. -/
theorem Passes.exists_transcript {ms : List Moment} {a b : σ} (h : Passes observe ms a s b t) :
    ∃ events : List Event, t.console.transcript = s.console.transcript ++ events ∧
      events.flatMap Event.accepted = ms.flatMap (Moment.printed s.machine.encoding) := by
  induction h with
  | refl a s => exact ⟨[], by simp, rfl⟩
  | @step ms a b c s t u i hi ho hs _ ih =>
    obtain ⟨events, htranscript, haccepted⟩ := ih
    obtain ⟨v, hp, -⟩ := perform_of_step_ok hi hs
    refine ⟨s.calls i ++ events, ?_, ?_⟩
    · rw [htranscript, transcript_of_step_ok hi hs, Transcript.append_append]
    · rw [List.flatMap_append, List.flatMap_cons, accepted_calls_of_ok hp, haccepted,
        (SameSetting.of_step hs).encoding]

/-- The part of a run that succeeds prints the bytes of its outputs. -/
theorem Passes.output_eq {ms : List Moment} {a b : σ} (h : Passes observe ms a s b t) :
    t.console.output =
      s.console.output ++ ms.flatMap (Moment.printed s.machine.encoding) := by
  obtain ⟨events, htranscript, haccepted⟩ := h.exists_transcript
  rw [Console.output, htranscript, Transcript.output_append, haccepted, Console.output]

/-- The part of a run that succeeds flushes the writer once for each of its inputs. -/
theorem Passes.flushes_transcript {ms : List Moment} {a b : σ} (h : Passes observe ms a s b t) :
    Transcript.flushes t.console.transcript =
      Transcript.flushes s.console.transcript + ms.countP (·.instruction == .read) := by
  induction h with
  | refl a s => rfl
  | @step ms a b c s t u i hi ho hs _ ih =>
    obtain ⟨v, hp, -⟩ := perform_of_step_ok hi hs
    have hstep : Transcript.flushes t.console.transcript =
        Transcript.flushes s.console.transcript + if i = .read then 1 else 0 := by
      rw [transcript_of_step_ok hi hs, Transcript.flushes_append, countP_isFlush_calls_of_ok hp]
    have hmoment : (s.machine.moment i).instruction = i := rfl
    rw [ih, hstep, List.countP_cons, hmoment]
    simp only [beq_iff_eq]
    omega

/-- The end of a run adds to the transcript a flush, or the calls of an instruction that fails, or
nothing. -/
theorem Rests.exists_transcript {n : Nat} {a : σ} {r : Report σ} (h : Rests observe a s n r) :
    ∃ events : List Event, r.session.console.transcript = s.console.transcript ++ events ∧
      (events.flatMap Event.accepted = [] ∨ ∃ (e : IoError) (v : Cell) (rest : List UInt8),
        s.machine.current? = some .print ∧ s.machine.cell = .ok v ∧
        r.status = .stopped (.error (.io e)) ∧ s.step = .error (.io e) r.session ∧ rest ≠ [] ∧
          events.flatMap Event.accepted ++ rest = s.machine.encoding.encode v) := by
  cases h with
  | running hi => exact ⟨[], by simp, .inl rfl⟩
  | finish hi =>
    refine ⟨[.flushed s.console.nextFlush], ?_, .inl rfl⟩
    rw [finish_eq_flushed, Console.flushed]
    simp
  | abort hi ho => exact ⟨[], by simp, .inl rfl⟩
  | @fault b t i f hi ho hs =>
    refine ⟨s.calls i, transcript_of_step_error hi hs, ?_⟩
    refine (accepted_calls_of_error (perform_of_step_error hi hs)).imp_right ?_
    rintro ⟨e, v, rest, rfl, rfl, hv, hrest, hsplit⟩
    exact ⟨e, v, rest, hi, hv, rfl, hs, hrest, hsplit⟩

/-- A run takes back nothing that was printed. -/
theorem output_isPrefix_execute (observe : Observer σ) (fuel : Nat) (a : σ) (s : Session) :
    s.console.output <+: (s.execute observe fuel a).session.console.output := by
  obtain ⟨ms, n, b, t, -, hpasses, hrests⟩ := exists_passes_rests observe fuel a s
  obtain ⟨events, ht, -⟩ := hpasses.exists_transcript
  obtain ⟨events', hr, -⟩ := hrests.exists_transcript
  rw [Console.output, Console.output, hr, ht, Transcript.append_append, Transcript.output_append]
  exact List.prefix_append ..

end Session

end PhraseTape
