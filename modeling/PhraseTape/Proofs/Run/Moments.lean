import PhraseTape.Proofs.Run.Course

/-!
# The instructions of a run

A run is a list of instructions that succeed, and an end at which no other one succeeds. The
instructions are listed by their moments, that is as an observer sees them before they are carried
out.

## Main definitions

* `Fault.ofFlush`, `Console.flushed` : the result of the flush at the end of a run, and the console
  after a flush.
* `Session.Rests` : what becomes of a run that carries out no further instruction.
* `Session.traced` : a run whose notes are the moments of its instructions.

## Main results

* `Session.exists_passes_rests` : every run passes some moments and then rests.
* `Session.Rests.of_aborted`, `Session.Rests.of_ok`, `Session.Rests.of_address` : where a run rests
  that was stopped by its observer, that ended without a fault, or because of the pointer.
-/

namespace PhraseTape

variable {σ : Type}

/-- The result of a run whose last flush has the given failure, if it has one. -/
def Fault.ofFlush : Option IoError → Except Fault Unit
  | none => .ok ()
  | some e => .error (.io e)

namespace Console

/-- The console after one flush, whether it failed or not. -/
def flushed (c : Console) : Console :=
  { c with flushes := c.flushes.tail, transcript := c.transcript.push (.flushed c.nextFlush) }

@[simp] theorem output_flushed (c : Console) : c.flushed.output = c.output := by
  simp only [output, flushed, Transcript.output_push, Event.accepted, List.append_nil]

theorem flush_of_nextFlush_none {c : Console} (h : c.nextFlush = none) :
    c.flush = .ok () c.flushed := by
  simp only [flush, flushed, h]

theorem flush_of_nextFlush_some {c : Console} {e : IoError} (h : c.nextFlush = some e) :
    c.flush = .error e c.flushed := by
  simp only [flush, flushed, h]

end Console

namespace Session

/-- The run from `s` with the notes `a`, to which some number of instructions is still allowed,
carries out none of them and leaves a report: the number is zero, or the program is at its end, or
the observer stops the run, or the instruction fails. -/
inductive Rests (observe : Observer σ) (a : σ) (s : Session) : Nat → Report σ → Prop
  | running {i : Instruction} (hi : s.machine.current? = some i) :
      Rests observe a s 0 ⟨.running, a, s⟩
  | finish (hi : s.machine.current? = none) (n : Nat) : Rests observe a s n (s.finish a)
  | abort {b : σ} {i : Instruction} (hi : s.machine.current? = some i)
      (ho : observe (s.machine.moment i) a = (.abort, b)) (n : Nat) :
      Rests observe a s (n + 1) ⟨.stopped (.error .aborted), b, s⟩
  | fault {b : σ} {t : Session} {i : Instruction} {f : Fault} (hi : s.machine.current? = some i)
      (ho : observe (s.machine.moment i) a = (.proceed, b)) (hs : s.step = .error f t) (n : Nat) :
      Rests observe a s (n + 1) ⟨.stopped (.error f), b, t⟩

/-- A run that is not stopped by its observer. The notes are the moments of its instructions. -/
def traced (fuel : Nat) (s : Session) : Report (Array Moment) :=
  s.execute (Observer.noting id) fuel #[]

variable {observe : Observer σ} {s t : Session} {a b : σ} {i : Instruction}

/-- No part of a run changes the program, the encoding, or the size and the policy of the tape. -/
theorem Passes.sameSetting {ms : List Moment} (h : Passes observe ms a s b t) : SameSetting s t :=
  h.invariant (fun _ hstep hs => hs.trans (.of_step hstep)) (.of_machine_eq rfl)

/-- Every run passes some moments and then rests. -/
theorem exists_passes_rests (observe : Observer σ) (fuel : Nat) (a : σ) (s : Session) :
    ∃ (ms : List Moment) (n : Nat) (b : σ) (t : Session), fuel = ms.length + n ∧
      Passes observe ms a s b t ∧ Rests observe b t n (s.execute observe fuel a) := by
  induction fuel generalizing a s with
  | zero =>
    refine ⟨[], 0, a, s, rfl, .refl a s, ?_⟩
    cases hi : s.machine.current? with
    | none =>
      rw [execute_of_finished hi]
      exact .finish hi 0
    | some i =>
      rw [execute_zero hi]
      exact .running hi
  | succ fuel ih =>
    cases hi : s.machine.current? with
    | none =>
      rw [execute_of_finished hi]
      exact ⟨[], fuel + 1, a, s, by simp, .refl a s, .finish hi _⟩
    | some i =>
      rcases ho : observe (s.machine.moment i) a with ⟨_ | _, b⟩
      · cases hs : s.step with
        | ok _ t =>
          obtain ⟨ms, n, c, u, hn, hpasses, hrests⟩ := ih b t
          rw [execute_of_step hi ho hs]
          exact ⟨s.machine.moment i :: ms, n, c, u, by rw [hn, List.length_cons]; omega,
            .step hi ho hs hpasses, hrests⟩
        | error f t =>
          rw [execute_of_fault hi ho hs]
          exact ⟨[], fuel + 1, a, s, by simp, .refl a s, .fault hi ho hs fuel⟩
      · rw [execute_of_abort hi ho]
        exact ⟨[], fuel + 1, a, s, by simp, .refl a s, .abort hi ho fuel⟩

/-- A run that rests is computed as its report. -/
theorem Rests.execute_eq {n : Nat} {r : Report σ} (h : Rests observe a s n r) :
    s.execute observe n a = r := by
  cases h with
  | running hi => exact execute_zero hi observe a
  | finish hi n => exact execute_of_finished hi observe n a
  | abort hi ho n => exact execute_of_abort hi ho n
  | fault hi ho hs n => exact execute_of_fault hi ho hs n

/-! ### Where a run rests -/

/-- No instruction stops a run in the name of its observer. -/
theorem perform_ne_aborted (i : Instruction) (s t : Session) :
    s.perform i ≠ .error .aborted t := by
  obtain ⟨m, c⟩ := s
  cases i with
  | change sign text =>
    simp only [perform, addCell]
    split <;> simp
  | right => simp [perform]
  | left => simp [perform]
  | loopStart | loopEnd =>
    simp only [perform, jumpIf]
    split <;> simp
  | read =>
    simp only [perform, readCell]
    split
    · simp
    · split
      · simp
      · split <;> simp
  | print =>
    simp only [perform, printCell]
    split
    · simp
    · split <;> simp

/-- The end of a run flushes the writer once, and changes nothing else. -/
theorem finish_eq_flushed (a : σ) (s : Session) : s.finish a =
    ⟨.stopped (Fault.ofFlush s.console.nextFlush), a, { s with console := s.console.flushed }⟩ := by
  obtain ⟨m, c⟩ := s
  cases h : c.nextFlush with
  | none => simp only [finish, Console.flush_of_nextFlush_none h, Fault.ofFlush]
  | some e => simp only [finish, Console.flush_of_nextFlush_some h, Fault.ofFlush]

/-- A run that used up its instructions rests in front of another one. -/
theorem Rests.of_running {n : Nat} {r : Report σ} (h : Rests observe a s n r)
    (hr : r.status = .running) : n = 0 ∧ ∃ i, s.machine.current? = some i := by
  cases h with
  | running hi => exact ⟨rfl, _, hi⟩
  | finish hi =>
    rw [finish_eq_flushed] at hr
    cases hr
  | abort hi ho => cases hr
  | fault hi ho hs => cases hr

/-- A run that was stopped by its observer rests in front of an instruction that was refused, and
the session is as it was. -/
theorem Rests.of_aborted {n : Nat} (h : Rests observe a s n ⟨.stopped (.error .aborted), b, t⟩) :
    t = s ∧ ∃ i, s.machine.current? = some i ∧ observe (s.machine.moment i) a = (.abort, b) := by
  generalize hr : Report.mk (.stopped (.error .aborted)) b t = r at h
  cases h with
  | running hi => cases hr
  | finish hi =>
    rw [finish_eq_flushed] at hr
    cases hc : s.console.nextFlush <;> rw [hc] at hr <;> cases hr
  | abort hi ho =>
    cases hr
    exact ⟨rfl, _, hi, ho⟩
  | fault hi ho hs =>
    cases hr
    exact absurd (perform_of_step_error hi hs) (perform_ne_aborted _ s t)

/-- A run that ended without a fault rests at the end of its program, which is flushed. -/
theorem Rests.of_ok {n : Nat} (h : Rests observe a s n ⟨.stopped (.ok ()), b, t⟩) :
    s.machine.current? = none ∧ t.machine = s.machine := by
  generalize hr : Report.mk (.stopped (.ok ())) b t = r at h
  cases h with
  | running hi => cases hr
  | finish hi =>
    rw [finish_eq_flushed] at hr
    obtain ⟨-, -, rfl⟩ := Report.mk.inj hr
    exact ⟨hi, rfl⟩
  | abort hi ho => cases hr
  | fault hi ho hs => cases hr

/-- A run that ended without a fault has passed some moments, came to the end of its program, and
was flushed there. -/
theorem exists_passes_of_ends_ok (h : Ends observe a s (.ok ()) b t) :
    ∃ (ms : List Moment) (u : Session), Passes observe ms a s b u ∧
      u.machine.current? = none ∧ t = { u with console := u.console.flushed } := by
  obtain ⟨n, hn⟩ := h.execute
  obtain ⟨ms, k, c, u, -, hpasses, hrests⟩ := exists_passes_rests observe n a s
  rw [hn] at hrests
  have hi := hrests.of_ok.1
  have hfinish := hrests.execute_eq
  rw [execute_of_finished hi, finish_eq_flushed] at hfinish
  obtain ⟨-, rfl, rfl⟩ := Report.mk.inj hfinish
  exact ⟨ms, u, hpasses, hi, rfl⟩

/-- A run that ended because of the pointer rests at the instruction that failed. -/
theorem Rests.of_address {n : Nat} {r : Report σ} {e : AddressError} (h : Rests observe a s n r)
    (hr : r.status = .stopped (.error (.address e))) :
    0 < n ∧ ∃ i, s.machine.current? = some i ∧ s.step = .error (.address e) r.session := by
  cases h with
  | running hi => cases hr
  | finish hi =>
    rw [finish_eq_flushed] at hr
    cases hc : s.console.nextFlush <;> rw [hc] at hr <;> cases hr
  | abort hi ho => cases hr
  | fault hi ho hs n =>
    cases hr
    exact ⟨Nat.succ_pos n, _, hi, hs⟩

end Session

end PhraseTape
