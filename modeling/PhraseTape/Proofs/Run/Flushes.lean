import PhraseTape.Proofs.Run.Calls
import PhraseTape.Proofs.Run.Counter
import PhraseTape.Proofs.Run.Failures

/-!
# When the writer is flushed

An input flushes the writer before it asks for a line, and does not ask if the flush fails. No other
instruction flushes, and a run flushes once more when it comes to the end of its program, and only
then. So a run never waits for a line while bytes that were accepted are still to be flushed: a
prompt is seen before it is answered.

The calls of a run are looked at instruction by instruction. The calls of an instruction are those
by which it makes the transcript longer.

## Main definitions

* `Dispatch`, `Session.dispatches` : the instructions that a run carries out, with their calls.
* `Dispatch.Disciplined` : when an instruction flushes.
* `Report.Closes` : when a run flushes at its end.
* `Transcript.unflushed` : the bytes that are still to be flushed.

## Main results

* `Session.disciplined_dispatched` : one instruction.
* `Prompted.append` : behind a flush it may be asked for a line.
* `Session.Passes.exists_dispatches`, `Session.Rests.exists_closing` : the two parts of a run.
* `Session.execute_flushes` : the flushes of a run.
-/

namespace PhraseTape

variable {σ : Type}

/-- An instruction that is carried out. -/
structure Dispatch where
  /-- The moment before it. -/
  moment : Moment
  /-- The calls that it makes, in order. -/
  calls : List Event
  /-- Its fault, if it fails. -/
  fault : Option Fault

/-- The fault of an action, if it failed. -/
def Outcome.fault? : Outcome → Option Fault
  | .ok _ _ => none
  | .error f _ => some f

namespace Session

/-- The step of a session with the instruction `i` at its counter. -/
def dispatched (i : Instruction) (s : Session) : Dispatch where
  moment := s.machine.moment i
  calls := (left s.step).console.transcript.toList.drop s.console.transcript.size
  fault := Outcome.fault? s.step

/-- The instructions that a run carries out, in order. -/
def dispatches (observe : Observer σ) (fuel : Nat) (a : σ) (s : Session) : List Dispatch :=
  match s.machine.current?, fuel with
  | none, _ => []
  | some _, 0 => []
  | some i, fuel + 1 =>
    match observe (s.machine.moment i) a with
    | (.abort, _) => []
    | (.proceed, b) =>
      s.dispatched i ::
        match s.step with
        | .ok () t => dispatches observe fuel b t
        | .error _ _ => []

end Session

/-- An input flushes and then asks for a line, or its flush fails, and it fails with it and does not
ask. No other instruction flushes or asks for a line. -/
def Dispatch.Disciplined (d : Dispatch) : Prop :=
  if d.moment.instruction = .read then
    d.calls = [.flushed none, .lineRequested] ∨
      ∃ e, d.calls = [.flushed (some e)] ∧ d.fault = some (.io e)
  else
    ∀ call ∈ d.calls, call.isFlush = false ∧ call ≠ .lineRequested

/-- The calls that a run makes when it has carried out the instructions `ds`. At the end of its
program it makes one flush, which decides the result of the run. Before that it makes no call: it
has used up the number of its instructions, or it is stopped by its observer or by its last
instruction. -/
inductive Report.Closes (r : Report σ) : List Dispatch → List Event → Prop
  | finished {ds : List Dispatch} {failure : Option IoError}
      (hm : r.session.machine.isFinished = true) (hs : r.status = .stopped (Fault.ofFlush failure))
      (hds : ∀ d ∈ ds, d.fault = none) : Closes r ds [.flushed failure]
  | running {ds : List Dispatch} (hm : r.session.machine.isFinished = false)
      (hs : r.status = .running) (hds : ∀ d ∈ ds, d.fault = none) : Closes r ds []
  | aborted {ds : List Dispatch} (hm : r.session.machine.isFinished = false)
      (hs : r.status = .stopped (.error .aborted)) (hds : ∀ d ∈ ds, d.fault = none) :
      Closes r ds []
  | fault {ds : List Dispatch} {d : Dispatch} {f : Fault}
      (hm : r.session.machine.isFinished = false) (hs : r.status = .stopped (.error f))
      (hds : ∀ d ∈ ds, d.fault = none) (hd : d.fault = some f) : Closes r (ds ++ [d]) []

/-- The bytes that were accepted since the last flush that succeeded. -/
def Transcript.unflushed (t : Transcript) : List UInt8 :=
  t.foldl (fun pending call => if call = .flushed none then [] else pending ++ call.accepted) []

/-- Whenever a line is asked for, the call before is a flush that succeeds. -/
def Prompted (events : List Event) : Prop :=
  ∀ before behind, events = before ++ .lineRequested :: behind → [.flushed none] <:+ before

/-! ### Flushes before lines -/

/-- Behind a flush that succeeds nothing is left to be flushed. -/
theorem Transcript.unflushed_of_flushed (t : Transcript) {before : List Event}
    (h : [.flushed none] <:+ before) : unflushed (t ++ before) = [] := by
  obtain ⟨earlier, rfl⟩ := h
  rw [← append_append, unflushed, ← Array.foldl_toList]
  simp

theorem prompted_of_notMem {events : List Event} (h : .lineRequested ∉ events) :
    Prompted events := by
  rintro before behind rfl
  simp at h

theorem Prompted.append {d e : List Event} (hd : Prompted d) (he : Prompted e) :
    Prompted (d ++ e) := by
  intro before behind h
  rcases List.append_eq_append_iff.1 h with ⟨rest, rfl, hrest⟩ | ⟨rest, hrest, hsplit⟩
  · exact (he rest behind hrest).trans (List.suffix_append ..)
  · cases rest with
    | nil =>
      -- The second part would ask for a line at once.
      have := he [] behind hsplit.symm
      simp at this
    | cons call rest =>
      obtain ⟨rfl, -⟩ := List.cons.inj hsplit
      exact hd before rest hrest

namespace Dispatch

variable {d : Dispatch} {ds : List Dispatch}

theorem Disciplined.prompted (h : d.Disciplined) : Prompted d.calls := by
  rw [Disciplined] at h
  split at h
  next =>
    rcases h with hcalls | ⟨e, hcalls, -⟩
    · rw [hcalls]
      intro before behind hsplit
      match before, hsplit with
      | [_], hsplit =>
        obtain ⟨rfl, -⟩ := List.cons.inj hsplit
        exact List.suffix_refl _
      | _ :: _ :: _, hsplit => simp at hsplit
    · exact prompted_of_notMem (by simp [hcalls])
  next => exact prompted_of_notMem fun hmem => (h _ hmem).2 rfl

theorem Disciplined.countP_isFlush (h : d.Disciplined) :
    d.calls.countP Event.isFlush = if d.moment.instruction = .read then 1 else 0 := by
  rw [Disciplined] at h
  split at h
  next hi =>
    rw [if_pos hi]
    rcases h with hcalls | ⟨e, hcalls, -⟩ <;> rw [hcalls] <;> rfl
  next hi =>
    rw [if_neg hi, List.countP_eq_zero]
    exact fun call hcall => by simp [(h call hcall).1]

theorem prompted_flatMap (h : ∀ d ∈ ds, d.Disciplined) : Prompted (ds.flatMap calls) := by
  induction ds with
  | nil => exact prompted_of_notMem List.not_mem_nil
  | cons d ds ih =>
    obtain ⟨hd, hds⟩ := List.forall_mem_cons.1 h
    exact hd.prompted.append (ih hds)

/-- Disciplined instructions flush as often as there are inputs among them. -/
theorem countP_isFlush_flatMap (h : ∀ d ∈ ds, d.Disciplined) :
    (ds.flatMap calls).countP Event.isFlush = ds.countP (·.moment.instruction == .read) := by
  induction ds with
  | nil => rfl
  | cons d ds ih =>
    obtain ⟨hd, hds⟩ := List.forall_mem_cons.1 h
    rw [List.flatMap_cons, List.countP_append, hd.countP_isFlush, ih hds, List.countP_cons]
    simp only [beq_iff_eq]
    omega

end Dispatch

/-- Instructions that succeed can be put in front. -/
theorem Report.Closes.append {r : Report σ} {ds es : List Dispatch} {closing : List Event}
    (h : r.Closes es closing) (hds : ∀ d ∈ ds, d.fault = none) : r.Closes (ds ++ es) closing := by
  cases h with
  | finished hm hs hes => exact .finished hm hs (List.forall_mem_append.2 ⟨hds, hes⟩)
  | running hm hs hes => exact .running hm hs (List.forall_mem_append.2 ⟨hds, hes⟩)
  | aborted hm hs hes => exact .aborted hm hs (List.forall_mem_append.2 ⟨hds, hes⟩)
  | fault hm hs hes hd =>
    rw [← List.append_assoc]
    exact .fault hm hs (List.forall_mem_append.2 ⟨hds, hes⟩) hd

theorem Report.Closes.prompted {r : Report σ} {ds : List Dispatch} {closing : List Event}
    (h : r.Closes ds closing) : Prompted closing := by
  cases h <;> exact prompted_of_notMem (by simp)

theorem Report.Closes.countP_isFlush {r : Report σ} {ds : List Dispatch} {closing : List Event}
    (h : r.Closes ds closing) :
    closing.countP Event.isFlush = if r.session.machine.isFinished then 1 else 0 := by
  cases h with
  | finished hm => rw [hm]; rfl
  | running hm | aborted hm | fault hm => rw [hm]; rfl

namespace Session

variable {s t : Session} {i : Instruction} {f : Fault} {observe : Observer σ} {a b : σ}

/-! ### One instruction -/

theorem calls_dispatched (hi : s.machine.current? = some i) :
    (s.dispatched i).calls = s.calls i := by
  rw [dispatched, transcript_left_step hi, Array.toList_appendList, ← Array.length_toList,
    List.drop_left]

/-- **When an instruction flushes.** -/
theorem disciplined_dispatched (hi : s.machine.current? = some i) :
    (s.dispatched i).Disciplined := by
  rw [Dispatch.Disciplined, calls_dispatched hi]
  have hmoment : (s.dispatched i).moment.instruction = i := rfl
  rw [hmoment]
  cases i with
  | read =>
    rw [if_pos rfl]
    cases hflush : s.console.nextFlush with
    | none => exact .inl (by simp only [calls, hflush])
    | some e =>
      refine .inr ⟨e, by simp only [calls, hflush], ?_⟩
      rw [dispatched, step_of_current? hi, perform_read_of_nextFlush hflush]
      rfl
  | print =>
    rw [if_neg (by decide)]
    simp only [calls]
    cases s.machine.cell with
    | error e => exact List.forall_mem_nil _
    | ok v => exact offer_calls _ _
  | change | right | left | loopStart | loopEnd =>
    rw [if_neg (by simp)]
    exact List.forall_mem_nil _

/-! ### The instructions of a run -/

theorem dispatches_of_finished (hi : s.machine.current? = none) (fuel : Nat) :
    s.dispatches observe fuel a = [] := by
  unfold dispatches
  rw [hi]

theorem dispatches_zero (hi : s.machine.current? = some i) : s.dispatches observe 0 a = [] := by
  unfold dispatches
  rw [hi]

theorem dispatches_of_abort (hi : s.machine.current? = some i)
    (ho : observe (s.machine.moment i) a = (.abort, b)) (fuel : Nat) :
    s.dispatches observe (fuel + 1) a = [] := by
  unfold dispatches
  simp only [hi, ho]

theorem dispatches_of_fault (hi : s.machine.current? = some i)
    (ho : observe (s.machine.moment i) a = (.proceed, b)) (hs : s.step = .error f t) (fuel : Nat) :
    s.dispatches observe (fuel + 1) a = [s.dispatched i] := by
  unfold dispatches
  simp only [hi, ho, hs]

theorem dispatches_of_step (hi : s.machine.current? = some i)
    (ho : observe (s.machine.moment i) a = (.proceed, b)) (hs : s.step = .ok () t) (fuel : Nat) :
    s.dispatches observe (fuel + 1) a = s.dispatched i :: t.dispatches observe fuel b := by
  conv => lhs; unfold dispatches
  simp only [hi, ho, hs]

/-- The instructions that a run passes are disciplined and have no fault, and their calls are added
to the transcript. -/
theorem Passes.exists_dispatches {ms : List Moment} (h : Passes observe ms a s b t) (n : Nat) :
    ∃ ds : List Dispatch,
      s.dispatches observe (ms.length + n) a = ds ++ t.dispatches observe n b ∧
      ds.map Dispatch.moment = ms ∧ (∀ d ∈ ds, d.Disciplined) ∧ (∀ d ∈ ds, d.fault = none) ∧
      t.console.transcript = s.console.transcript ++ ds.flatMap Dispatch.calls := by
  induction h with
  | refl a s =>
    exact ⟨[], by simp, rfl, List.forall_mem_nil _, List.forall_mem_nil _, by simp⟩
  | @step ms a b c s t u i hi ho hs _ ih =>
    obtain ⟨ds, hds, hms, hdisciplined, hfault, htranscript⟩ := ih
    have hnone : (s.dispatched i).fault = none := by rw [dispatched, hs]; rfl
    refine ⟨s.dispatched i :: ds, ?_, by rw [List.map_cons, hms]; rfl,
      List.forall_mem_cons.2 ⟨disciplined_dispatched hi, hdisciplined⟩,
      List.forall_mem_cons.2 ⟨hnone, hfault⟩, ?_⟩
    · rw [List.length_cons, Nat.succ_add, dispatches_of_step hi ho hs, hds, List.cons_append]
    · rw [htranscript, transcript_of_step_ok hi hs, Transcript.append_append, List.flatMap_cons,
        calls_dispatched hi]

/-- What a run that rests still does: it makes no call, or it flushes at the end of its program, or
it carries out an instruction that fails. -/
theorem Rests.exists_closing {n : Nat} {r : Report σ} (h : Rests observe a s n r) :
    ∃ closing : List Event,
      r.session.console.transcript = s.console.transcript ++
        ((s.dispatches observe n a).flatMap Dispatch.calls ++ closing) ∧
      (∀ d ∈ s.dispatches observe n a, d.Disciplined) ∧
      r.Closes (s.dispatches observe n a) closing := by
  have hmachine := h.machine_eq
  cases h with
  | running hi =>
    rw [dispatches_zero hi]
    refine ⟨[], by simp, List.forall_mem_nil _, ?_⟩
    exact .running (Machine.isFinished_of_current? hi) rfl (List.forall_mem_nil _)
  | finish hi n =>
    rw [dispatches_of_finished hi, finish_eq_flushed]
    refine ⟨[.flushed s.console.nextFlush], by simp [Console.flushed], List.forall_mem_nil _, ?_⟩
    exact .finished ((Machine.current?_eq_none_iff _).1 hi) rfl (List.forall_mem_nil _)
  | abort hi ho n =>
    rw [dispatches_of_abort hi ho]
    refine ⟨[], by simp, List.forall_mem_nil _, ?_⟩
    exact .aborted (Machine.isFinished_of_current? hi) rfl (List.forall_mem_nil _)
  | @fault b t i f hi ho hs n =>
    rw [dispatches_of_fault hi ho hs]
    refine ⟨[], ?_, List.forall_mem_singleton.2 (disciplined_dispatched hi), ?_⟩
    · rw [List.append_nil, List.flatMap_singleton, calls_dispatched hi]
      exact transcript_of_step_error hi hs
    · have hfinished : t.machine.isFinished = false := by
        rw [hmachine, Machine.isFinished_of_current? hi]
      have hfault : (s.dispatched i).fault = some f := by
        rw [dispatched, hs]
        rfl
      rw [← List.nil_append [s.dispatched i]]
      exact .fault hfinished rfl (List.forall_mem_nil _) hfault

/-- A run that rests asks its observer about the instruction that fails, or about one that is
refused, or not at all. -/
theorem Rests.exists_refused {n : Nat} {r : Report σ} (h : Rests observe a s n r) :
    ∃ refused : List Moment, (if n = 0 then [] else s.moment?.toList) =
        (s.dispatches observe n a).map Dispatch.moment ++ refused ∧
      (refused = [] ∨ refused.length = 1 ∧ r.status = .stopped (.error .aborted)) := by
  cases h with
  | running hi => exact ⟨[], by simp [dispatches_zero hi], .inl rfl⟩
  | finish hi n => exact ⟨[], by simp [dispatches_of_finished hi, moment?, hi], .inl rfl⟩
  | @abort b i hi ho n =>
    exact ⟨[s.machine.moment i], by simp [dispatches_of_abort hi ho, moment?, hi], .inr ⟨rfl, rfl⟩⟩
  | fault hi ho hs n =>
    exact ⟨[], by simp [dispatches_of_fault hi ho hs, moment?, hi, dispatched], .inl rfl⟩

/-- **When a run flushes the writer.** The instructions that a run carries out are those that its
observer is asked about, without the one that it refuses. What the run adds to the transcript is the
calls of these instructions and then a flush, if it has come to the end of its program, or else
nothing, also if it is stopped by its observer or by an instruction. An input flushes once, before
it asks for a line and with no call in between, and it does not ask if the flush fails; no other
instruction flushes. So whenever a line is asked for, every byte that was accepted by then has been
flushed, and the run flushes as often as there are inputs among its instructions, and once more at
the end of its program. -/
theorem execute_flushes (observe : Observer σ) (fuel : Nat) (a : σ) (s : Session) :
    let r := s.execute observe fuel a
    let ds := s.dispatches observe fuel a
    (∃ refused : List Moment,
      (s.questions observe fuel a).toList = ds.map Dispatch.moment ++ refused ∧
      (refused = [] ∨ refused.length = 1 ∧ r.status = .stopped (.error .aborted))) ∧
    (∀ d ∈ ds, d.Disciplined) ∧
    (∃ closing : List Event,
      r.session.console.transcript =
        s.console.transcript ++ (ds.flatMap Dispatch.calls ++ closing) ∧
      r.Closes ds closing ∧
      ∀ before behind,
        ds.flatMap Dispatch.calls ++ closing = before ++ .lineRequested :: behind →
          [.flushed none] <:+ before ∧
          Transcript.unflushed (s.console.transcript ++ before) = []) ∧
    Transcript.flushes r.session.console.transcript =
      Transcript.flushes s.console.transcript + ds.countP (·.moment.instruction == .read) +
        if r.session.machine.isFinished then 1 else 0 := by
  intro r ds
  obtain ⟨ms, n, b, t, rfl, hpasses, hrests, hasked⟩ := exists_questions_eq observe fuel a s
  obtain ⟨passed, hds, hms, hpassed, hfault, htranscript⟩ := hpasses.exists_dispatches n
  obtain ⟨closing, hclosing, hrested, hcloses⟩ := hrests.exists_closing
  obtain ⟨refused, hrefused, hcount⟩ := hrests.exists_refused
  have hds : ds = passed ++ t.dispatches observe n b := hds
  have hall : ∀ d ∈ ds, d.Disciplined := by
    rw [hds]
    exact List.forall_mem_append.2 ⟨hpassed, hrested⟩
  have hcloses : r.Closes ds closing := by
    rw [hds]
    exact hcloses.append hfault
  have hcalls : r.session.console.transcript =
      s.console.transcript ++ (ds.flatMap Dispatch.calls ++ closing) := by
    rw [hclosing, htranscript, hds, Transcript.append_append, List.flatMap_append,
      List.append_assoc]
  refine ⟨⟨refused, ?_, hcount⟩, hall, ⟨closing, hcalls, hcloses, fun before behind h => ?_⟩, ?_⟩
  · rw [hasked, hrefused, hds, List.map_append, hms, List.append_assoc]
  · have hprompted := (Dispatch.prompted_flatMap hall).append hcloses.prompted
    have hflushed := hprompted before behind h
    exact ⟨hflushed, Transcript.unflushed_of_flushed _ hflushed⟩
  · rw [hcalls, Transcript.flushes_append, List.countP_append,
      Dispatch.countP_isFlush_flatMap hall, hcloses.countP_isFlush, Nat.add_assoc]

/-- Prints a prompt without a line break and asks for a line. -/
def promptsOnce : Session :=
  ofSettings #[.print, .read] ⟨1, .error, .utf8⟩ {}

/-- The prompt is flushed when the line is asked for, and there is a second flush at the end. -/
theorem execute_flushes_promptsOnce :
    (promptsOnce.dispatches Observer.silent 2 ()).flatMap Dispatch.calls =
        [.wrote [0], .flushed none, .lineRequested] ∧
      Transcript.unflushed #[.wrote [0], .flushed none] = [] ∧
      Transcript.flushes
        (promptsOnce.execute Observer.silent 2 ()).session.console.transcript = 2 := by
  obtain ⟨-, -, ⟨closing, -, -, hprompted⟩, hflushes⟩ :=
    execute_flushes Observer.silent 2 () promptsOnce
  have hcalls : (promptsOnce.dispatches Observer.silent 2 ()).flatMap Dispatch.calls =
      [.wrote [0], .flushed none, .lineRequested] := by
    decide
  have hsplit := hprompted [.wrote [0], .flushed none] closing (by rw [hcalls]; rfl)
  exact ⟨hcalls, hsplit.2, hflushes.trans (by decide)⟩

end Session

end PhraseTape
