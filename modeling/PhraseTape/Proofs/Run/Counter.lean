import PhraseTape.Proofs.Run.Questions
import PhraseTape.Proofs.Run.Store

/-!
# Where the counter is

An instruction leaves the counter inside the program, whether it jumps or not and whether its jump
finds a partner or not, and going on takes the counter at most to the end of the program. So a run
that starts inside the program asks its observer about instructions of the program only, comes to
its end exactly behind the last instruction, and is broken off at an instruction, which is the last
one that its observer was asked about.

A session can also be driven by hand, by operations in any order. These can take the counter past
the end of the program, where nothing happens any more, and they change nothing of the program, of
the encoding, and of the size and the policy of the tape.

## Main definitions

* `Report.Completed`, `Report.BrokenOff` : the two ways in which a run ends.
* `Operation`, `Session.after` : the operations on a session, and the session that they leave.

## Main results

* `Session.counter_left_dispatch_lt` : no instruction takes the counter out of the program.
* `Session.Passes.counter_le` : the counter in the course of a run.
* `Session.Rests.counter_lt_of_brokenOff` : where a run is broken off.
* `Session.sameSetting_after` : what no operation changes.
* `Session.execute_within_program` : the counter and the questions of a run, and the counter of a
  session that is driven by hand.
-/

namespace PhraseTape

variable {σ : Type}

/-- The run has come to the end of its program, where the writer is flushed; the flush may have
failed. -/
def Report.Completed (r : Report σ) : Prop :=
  ∃ (t : Session) (b : σ), t.machine.isFinished = true ∧ r = t.finish b

/-- The run was stopped by its observer or by an instruction that failed. -/
def Report.BrokenOff (r : Report σ) : Prop :=
  r.status = .stopped (.error .aborted) ∨
    ∃ (t : Session) (f : Fault), t.dispatch = .error f r.session ∧ r.status = .stopped (.error f)

theorem Report.Completed.isFinished {r : Report σ} (h : r.Completed) :
    r.session.machine.isFinished = true := by
  obtain ⟨t, b, ht, rfl⟩ := h
  rw [Session.finish_eq_flushed]
  exact ht

/-- The operations on a session. Those that use a console are given one. -/
inductive Operation where
  | dispatch (console : Console)
  | advance
  | execute {σ : Type} (console : Console) (observe : Observer σ) (fuel : Nat) (notes : σ)

namespace Session

/-- The session with another console. -/
def withConsole (c : Console) (s : Session) : Session :=
  { s with console := c }

/-- The session that an operation leaves, whether it fails or not. -/
def operate (s : Session) : Operation → Session
  | .dispatch c => left (s.withConsole c).dispatch
  | .advance => s.advance
  | .execute c observe fuel notes => ((s.withConsole c).execute observe fuel notes).session

/-- The session that is left by some operations, one after the other. -/
def after (operations : List Operation) (s : Session) : Session :=
  operations.foldl operate s

variable {observe : Observer σ} {s t : Session} {a b : σ} {i : Instruction}

/-! ### One instruction -/

/-- No instruction takes the counter out of the program, whether it fails or not. -/
theorem counter_left_dispatch_lt (h : s.machine.counter < s.machine.program.size) :
    (left s.dispatch).machine.counter < s.machine.program.size := by
  have hi : s.machine.current? = some s.machine.program[s.machine.counter] :=
    Array.getElem?_eq_getElem h
  have hperform := Store.perform_within s.machine.program[s.machine.counter] s.store
    s.machine.program s.machine.counter
  rw [Store.within_store] at hperform
  rw [dispatch_of_current? hi, hperform]
  cases s.store.carryOut s.machine.program[s.machine.counter] with
  | ok _ u => exact Store.land_lt hi s.store
  | error f u => exact h

/-- A step takes the counter at most to the end of the program. -/
theorem counter_of_step_le (hi : s.machine.current? = some i) (hs : s.step = .ok () t) :
    t.machine.counter ≤ s.machine.program.size := by
  have hlt := counter_left_dispatch_lt (Machine.counter_lt_of_current? hi)
  obtain ⟨u, hu, rfl⟩ := perform_of_step_ok hi hs
  rw [dispatch_of_current? hi, hu] at hlt
  exact hlt

/-! ### A run -/

/-- In the course of a run the counter is in the program, or at its end. -/
theorem Passes.counter_le {ms : List Moment} (h : Passes observe ms a s b t)
    (hs : s.machine.counter ≤ s.machine.program.size) :
    t.machine.counter ≤ s.machine.program.size := by
  rw [← h.sameSetting.program]
  refine h.invariant (P := fun u => u.machine.counter ≤ u.machine.program.size) ?_ hs
  intro u v i hi hstep _
  rw [(SameSetting.of_step hstep).program]
  exact counter_of_step_le hi hstep

/-- A run leaves the machine as it was where the run came to rest. -/
theorem Rests.machine_eq {n : Nat} {r : Report σ} (h : Rests observe a s n r) :
    r.session.machine = s.machine := by
  cases h with
  | running | abort => rfl
  | finish => rw [finish_eq_flushed]
  | fault hi ho hs =>
    exact machine_of_dispatch_error ((dispatch_of_current? hi).trans (perform_of_step_error hi hs))

/-- A run that is over has come to the end of its program or is broken off. -/
theorem Rests.completed_or_brokenOff {n : Nat} {r : Report σ} (h : Rests observe a s n r)
    (hr : r.status ≠ .running) : r.Completed ∨ r.BrokenOff := by
  cases h with
  | running => exact absurd rfl hr
  | finish hi => exact .inl ⟨s, a, (Machine.current?_eq_none_iff _).1 hi, rfl⟩
  | abort => exact .inr (.inl rfl)
  | @fault b t i f hi ho hs =>
    exact .inr (.inr ⟨s, f, (dispatch_of_current? hi).trans (perform_of_step_error hi hs), rfl⟩)

/-- A run that ended without a fault has come to the end of its program. -/
theorem Rests.completed_of_ok {n : Nat} {r : Report σ} (h : Rests observe a s n r)
    (hr : r.status = .stopped (.ok ())) : r.Completed := by
  refine (h.completed_or_brokenOff (by rw [hr]; nofun)).resolve_right ?_
  rintro (h | ⟨-, f, -, h⟩) <;> cases hr.symm.trans h

/-- A run is broken off at an instruction about which its observer was asked. -/
theorem Rests.counter_lt_of_brokenOff {n : Nat} {r : Report σ} (h : Rests observe a s n r)
    (hr : r.BrokenOff) :
    n ≠ 0 ∧ ∃ i, s.machine.current? = some i ∧
      r.session.machine.counter < s.machine.program.size := by
  rw [h.machine_eq]
  cases h with
  | running => rcases hr with hr | ⟨_, _, -, hr⟩ <;> cases hr
  | finish hi =>
    rw [finish_eq_flushed] at hr
    rcases hr with hr | ⟨u, f, hu, -⟩
    · cases hflush : s.console.nextFlush <;> rw [hflush] at hr <;> cases hr
    · -- An instruction that fails leaves its machine, which is not at the end of the program.
      have hmachine := machine_of_dispatch_error hu
      have hfinished : u.machine.isFinished = true := by
        rw [← hmachine]
        exact (Machine.current?_eq_none_iff _).1 hi
      rw [dispatch_of_finished hfinished] at hu
      cases hu
  | abort hi | fault hi =>
    exact ⟨Nat.succ_ne_zero _, _, hi, Machine.counter_lt_of_current? hi⟩

/-! ### Operations -/

theorem sameSetting_operate (s : Session) (o : Operation) : SameSetting s (s.operate o) := by
  have hwith (c : Console) : SameSetting s (s.withConsole c) := .of_machine_eq rfl
  cases o with
  | dispatch c => exact (hwith c).trans (sameSetting_dispatch _)
  | advance => exact ⟨rfl, rfl, rfl, rfl⟩
  | execute c observe fuel notes => exact (hwith c).trans (sameSetting_execute observe fuel notes _)

/-- No operations change the program, the encoding, or the size and the policy of the tape. -/
theorem sameSetting_after (operations : List Operation) (s : Session) :
    SameSetting s (s.after operations) := by
  induction operations generalizing s with
  | nil => exact .of_machine_eq rfl
  | cons o operations ih => exact (sameSetting_operate s o).trans (ih (s.operate o))

/-- **The counter of a run and of a session driven by hand.** Let a session run from a counter that
is in its program or at its end. Every question of the run is about an instruction of the program,
with the tape and the pointer as the instructions before it have left them, and noting the questions
does not change the run. The counter stays in the program or at its end, for every number of
instructions. A run that is over has come to the end of its program or is broken off. If it has come
to the end, as it has if there is no fault, the counter is at the end of the program; if it is
broken off, the counter is in the program, where it was at the last question.

In the course of any operations on a session, its program, its encoding, and the size and the policy
of its tape stay the same. There is an instruction at the counter exactly when the counter is in the
program, and it is the instruction of that index. From there no instruction takes the counter out of
the program, and past the end nothing happens. -/
theorem execute_within_program (s : Session) :
    let p := s.machine.program
    (s.machine.counter ≤ p.size → ∀ (observe : Observer σ) (fuel : Nat) (a : σ),
      let r := s.execute observe fuel a
      let asked := s.questions observe fuel a
      s.execute observe.recording fuel (#[], a) = ⟨r.status, (asked, r.notes), r.session⟩ ∧
      (∀ (k : Nat) (m : Moment), asked[k]? = some m →
        m.counter < p.size ∧ p[m.counter]? = some m.instruction ∧
        (s.execute observe k a).session.moment? = some m) ∧
      r.session.machine.counter ≤ p.size ∧
      (r.status ≠ .running → r.Completed ∨ r.BrokenOff) ∧
      (r.status = .stopped (.ok ()) → r.Completed) ∧
      (r.Completed → r.session.machine.counter = p.size) ∧
      (r.BrokenOff → r.session.machine.counter < p.size ∧
        ∃ m, asked.back? = some m ∧ m.counter = r.session.machine.counter)) ∧
    ∀ operations : List Operation,
      let t := s.after operations
      SameSetting s t ∧
      (∀ i, t.machine.current? = some i ↔
        ∃ h : t.machine.counter < p.size, p[t.machine.counter] = i) ∧
      ∀ c : Console,
        (t.machine.counter < p.size →
          (left (t.withConsole c).dispatch).machine.counter < p.size) ∧
        (p.size ≤ t.machine.counter → (t.withConsole c).dispatch = .ok () (t.withConsole c)) := by
  intro p
  refine ⟨fun hs observe fuel a => ?_, fun operations => ?_⟩
  · intro r asked
    obtain ⟨ms, n, b, t, rfl, hpasses, hrests, hasked⟩ := exists_questions_eq observe fuel a s
    have hprogram : t.machine.program = p := hpasses.sameSetting.program
    have hle : r.session.machine.counter ≤ p.size := by
      rw [hrests.machine_eq]
      exact hpasses.counter_le hs
    refine ⟨execute_recording observe _ a s, fun k m hm => ?_, hle,
      hrests.completed_or_brokenOff, hrests.completed_of_ok, fun hr => ?_, fun hr => ?_⟩
    · have hmoment := moment?_execute_of_questions hm
      obtain ⟨i, hi, rfl⟩ := moment?_eq_some_iff.1 hmoment
      have hp : (s.execute observe k a).session.machine.program = p :=
        (sameSetting_execute observe k a s).program
      have hcounter := Machine.counter_lt_of_current? hi
      rw [Machine.current?] at hi
      rw [hp] at hi hcounter
      exact ⟨hcounter, hi, hmoment⟩
    · have hfinished := (Machine.isFinished_iff _).1 hr.isFinished
      rw [(sameSetting_execute observe _ a s).program] at hfinished
      exact Nat.le_antisymm hle hfinished
    · obtain ⟨hn, i, hi, hlt⟩ := hrests.counter_lt_of_brokenOff hr
      rw [hprogram] at hlt
      refine ⟨hlt, t.machine.moment i, ?_, by rw [hrests.machine_eq]; rfl⟩
      rw [← Array.getLast?_toList, hasked, if_neg hn, moment?_eq_some_iff.2 ⟨i, hi, rfl⟩]
      simp
  · intro t
    have hsame : SameSetting s t := sameSetting_after operations s
    have hprogram : t.machine.program = p := hsame.program
    refine ⟨hsame, fun i => ?_, fun c => ⟨fun hlt => ?_, fun hle => ?_⟩⟩
    · rw [Machine.current?, hprogram, Array.getElem?_eq_some_iff]
    · rw [← hprogram] at hlt ⊢
      exact counter_left_dispatch_lt (s := t.withConsole c) hlt
    · rw [← hprogram] at hle
      exact dispatch_of_finished ((Machine.isFinished_iff _).2 hle)

/-- Moves to the left of the tape and skips a loop that has no end. -/
def skipOutside : Session where
  machine := { program := #[.left, .loopStart], tape := Tape.new 1 .error }
  console := {}

/-- The run is broken off at the loop start, which is the second instruction that its observer is
asked about. -/
theorem execute_within_program_skipOutside :
    skipOutside.machine.counter ≤ skipOutside.machine.program.size ∧
      (skipOutside.execute Observer.silent 5 ()).BrokenOff ∧
      (skipOutside.questions Observer.silent 5 ()).toList.map Moment.counter = [0, 1] ∧
      (skipOutside.execute Observer.silent 5 ()).session.machine.counter < 2 ∧
      ∃ m, (skipOutside.questions Observer.silent 5 ()).back? = some m ∧
        m.counter = (skipOutside.execute Observer.silent 5 ()).session.machine.counter := by
  have hle : skipOutside.machine.counter ≤ skipOutside.machine.program.size := by decide
  have hbroken : (skipOutside.execute Observer.silent 5 ()).BrokenOff :=
    .inr ⟨left skipOutside.step, .address .beforeStart, rfl, rfl⟩
  obtain ⟨-, -, -, -, -, -, hlast⟩ :=
    (execute_within_program skipOutside).1 hle Observer.silent 5 ()
  obtain ⟨hlt, hm⟩ := hlast hbroken
  exact ⟨hle, hbroken, by decide, hlt, hm⟩

end Session

end PhraseTape
