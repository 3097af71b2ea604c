import PhraseTape.Proofs.Program.Jumps
import PhraseTape.Proofs.Run.Moments

/-!
# Landing on the targets of jumps

After a jump a run goes on behind the target. A run can also be told to land: it goes on to the next
instruction unless the instruction has jumped, and then the target itself is carried out. In a
program whose loop instructions all have a partner the target of a jump is the partner, which is of
the other kind. It finds the cell as the jump has found it, and so it changes nothing and does not
jump. Therefore a run that lands is the run that does not, with one instruction more behind each
jump.

Without a partner this fails: a loop start at the end of a program without a loop end leads to
itself, and a run that lands there never ends.

## Main definitions

* `Moment.jumps` : whether the instruction of a moment jumps.
* `Session.stepOnto`, `Session.executeOnto`, `Session.tracedOnto` : runs that land.
* `Moment.withoutArrivals` : the moments of a run without those behind the jumps.
* `Session.Keeps` : a run that lands and keeps to a run that does not.

## Main results

* `Session.step_of_jumps` : after a jump the target is carried out to no effect.
* `Session.exists_keeps` : a run of a given length, and the run that lands.
* `Session.executeOnto_refines` : the two runs, compared.
* `Session.status_executeOnto_of_target_eq` : a jump to itself is carried out for ever.
-/

namespace PhraseTape

variable {σ : Type}

namespace Moment

/-- Whether the instruction jumps. -/
def jumps (m : Moment) : Bool :=
  match m.instruction, m.cell with
  | .loopStart, .ok v => v.isZero
  | .loopEnd, .ok v => !v.isZero
  | _, _ => false

/-- The moments without each one that follows a jump. The flag says whether the first of them
follows one. -/
def withoutArrivals : Bool → List Moment → List Moment
  | _, [] => []
  | true, m :: ms => withoutArrivals m.jumps ms
  | false, m :: ms => m :: withoutArrivals m.jumps ms

/-- Only a loop start on a zero cell and a loop end on another one jump. -/
theorem jumps_iff (m : Moment) : m.jumps = true ↔
    (m.instruction = .loopStart ∧ ∃ v, m.cell = .ok v ∧ v.isZero = true) ∨
      (m.instruction = .loopEnd ∧ ∃ v, m.cell = .ok v ∧ v.isZero = false) := by
  unfold jumps
  cases m.instruction <;> cases m.cell <;> simp

/-- On the same cell the two loop instructions make opposite choices. -/
theorem jumps_eq_false {m : Moment} {v : Cell} (hcell : m.cell = .ok v)
    (h : m.instruction = .loopStart ∧ v.isZero = false ∨
      m.instruction = .loopEnd ∧ v.isZero = true) : m.jumps = false := by
  unfold jumps
  rcases h with ⟨hi, hv⟩ | ⟨hi, hv⟩
  · simp only [hi, hcell, hv]
  · simp only [hi, hcell, hv, Bool.not_true]

end Moment

namespace Session

/-- Whether the instruction at the counter jumps. -/
def redirects (s : Session) : Bool :=
  s.machine.current?.any fun i => (s.machine.moment i).jumps

/-- The session with its counter at `n`. -/
def jumpTo (n : Nat) (s : Session) : Session :=
  { s with machine := s.machine.jump n }

/-- Carries out the instruction at the counter, and goes on to the next one unless it has jumped. -/
def stepOnto (s : Session) : Outcome :=
  match s.dispatch with
  | .ok () t => .ok () (if s.redirects then t else t.advance)
  | .error f t => .error f t

/-- A run of at most `fuel` instructions that lands on the targets of its jumps. -/
def executeOnto (observe : Observer σ) (fuel : Nat) (notes : σ) (s : Session) : Report σ :=
  match s.machine.current?, fuel with
  | none, _ => s.finish notes
  | some _, 0 => ⟨.running, notes, s⟩
  | some i, fuel + 1 =>
    match observe (s.machine.moment i) notes with
    | (.abort, notes) => ⟨.stopped (.error .aborted), notes, s⟩
    | (.proceed, notes) =>
      match s.stepOnto with
      | .ok () s => executeOnto observe fuel notes s
      | .error e s => ⟨.stopped (.error e), notes, s⟩

/-- A run that lands and is not stopped by its observer. The notes are the moments of its
instructions. -/
def tracedOnto (fuel : Nat) (s : Session) : Report (Array Moment) :=
  s.executeOnto (Observer.noting id) fuel #[]

variable {observe : Observer σ} {s t : Session} {a b : σ} {i : Instruction} {f : Fault}

/-! ### One instruction at a time -/

theorem executeOnto_of_finished (hi : s.machine.current? = none) (observe : Observer σ)
    (fuel : Nat) (a : σ) : s.executeOnto observe fuel a = s.finish a := by
  unfold executeOnto
  rw [hi]

theorem executeOnto_zero (hi : s.machine.current? = some i) (observe : Observer σ) (a : σ) :
    s.executeOnto observe 0 a = ⟨.running, a, s⟩ := by
  unfold executeOnto
  rw [hi]

theorem executeOnto_of_step (hi : s.machine.current? = some i)
    (ho : observe (s.machine.moment i) a = (.proceed, b)) (hs : s.stepOnto = .ok () t) (n : Nat) :
    s.executeOnto observe (n + 1) a = t.executeOnto observe n b := by
  conv => lhs; unfold executeOnto
  simp only [hi, ho, hs]

theorem executeOnto_of_fault (hi : s.machine.current? = some i)
    (ho : observe (s.machine.moment i) a = (.proceed, b)) (hs : s.stepOnto = .error f t)
    (n : Nat) : s.executeOnto observe (n + 1) a = ⟨.stopped (.error f), b, t⟩ := by
  conv => lhs; unfold executeOnto
  simp only [hi, ho, hs]

theorem executeOnto_of_abort (hi : s.machine.current? = some i)
    (ho : observe (s.machine.moment i) a = (.abort, b)) (n : Nat) :
    s.executeOnto observe (n + 1) a = ⟨.stopped (.error .aborted), b, s⟩ := by
  conv => lhs; unfold executeOnto
  simp only [hi, ho]

/-- A run that lands and has stopped stays as it is, whatever instructions are still allowed. -/
theorem executeOnto_add {r : Except Fault Unit} {m : Nat}
    (h : s.executeOnto observe m a = ⟨.stopped r, b, t⟩) (n : Nat) :
    s.executeOnto observe (m + n) a = ⟨.stopped r, b, t⟩ := by
  induction m generalizing a s with
  | zero =>
    cases hi : s.machine.current? with
    | none => rw [← h, executeOnto_of_finished hi, executeOnto_of_finished hi]
    | some i =>
      rw [executeOnto_zero hi] at h
      cases h
  | succ m ih =>
    rw [Nat.succ_add]
    cases hi : s.machine.current? with
    | none => rw [← h, executeOnto_of_finished hi, executeOnto_of_finished hi]
    | some i =>
      rcases ho : observe (s.machine.moment i) a with ⟨_ | _, c⟩
      · cases hs : s.stepOnto with
        | ok _ u =>
          rw [executeOnto_of_step hi ho hs] at h ⊢
          exact ih h
        | error f u =>
          rw [executeOnto_of_fault hi ho hs] at h ⊢
          exact h
      · rw [executeOnto_of_abort hi ho] at h ⊢
        exact h

/-! ### What a jump does -/

/-- An instruction that does not jump is carried out in the same way. -/
theorem stepOnto_of_not_jumps (hi : s.machine.current? = some i)
    (hj : (s.machine.moment i).jumps = false) : s.stepOnto = s.step := by
  have hr : s.redirects = false := by rw [redirects, hi, Option.any_some, hj]
  rw [stepOnto, step, hr]
  rfl

/-- A loop instruction that jumps changes the counter only. -/
theorem jumpIf_of_eq {zero : Bool} {target : Machine → Nat} {v : Cell}
    (hcell : s.machine.cell = .ok v) (hv : v.isZero = zero) :
    s.jumpIf zero target = .ok () (s.jumpTo (target s.machine)) := by
  obtain ⟨m, c⟩ := s
  simp only [jumpIf, hcell, if_pos hv, jumpTo]

/-- A loop instruction that does not jump changes nothing. -/
theorem jumpIf_of_ne {zero : Bool} {target : Machine → Nat} {v : Cell}
    (hcell : s.machine.cell = .ok v) (hv : v.isZero ≠ zero) : s.jumpIf zero target = .ok () s := by
  obtain ⟨m, c⟩ := s
  simp only [jumpIf, hcell, if_neg hv]

theorem perform_of_jumps (hj : (s.machine.moment i).jumps = true) :
    s.perform i = .ok () (s.jumpTo (s.machine.program.target i s.machine.counter)) := by
  rcases (Moment.jumps_iff _).1 hj with ⟨rfl, v, hcell, hv⟩ | ⟨rfl, v, hcell, hv⟩
  · exact jumpIf_of_eq hcell hv
  · exact jumpIf_of_eq hcell hv

/-- The target of a jump does not jump and changes nothing: it is of the other kind, and the cell
is the one that the jump has tested. -/
theorem perform_target_of_jumps (hstarts : s.machine.program.StartsAnswered)
    (hends : s.machine.program.EndsAnswered) (hi : s.machine.current? = some i)
    (hj : (s.machine.moment i).jumps = true) :
    let t := s.jumpTo (s.machine.program.target i s.machine.counter)
    ∃ j, t.machine.current? = some j ∧ (t.machine.moment j).jumps = false ∧
      t.perform j = .ok () t := by
  intro t
  rcases (Moment.jumps_iff _).1 hj with ⟨rfl, v, hcell, hv⟩ | ⟨rfl, v, hcell, hv⟩
  · obtain ⟨k, hk, hend⟩ := hstarts _ hi
    refine ⟨.loopEnd, (Program.getElem?_loopEndFrom hk hend).1, ?_, ?_⟩
    · exact Moment.jumps_eq_false hcell (.inr ⟨rfl, hv⟩)
    · exact jumpIf_of_ne (s := t) hcell (by simp [hv])
  · obtain ⟨k, hk, hstart⟩ := hends _ hi
    refine ⟨.loopStart, (Program.getElem?_loopStartTo hk hstart).1, ?_, ?_⟩
    · exact Moment.jumps_eq_false hcell (.inl ⟨rfl, hv⟩)
    · exact jumpIf_of_ne (s := t) hcell (by simp [hv])

/-- **After a jump the target is carried out to no effect.** In a program whose loop instructions
have their partners, a jump that lands comes to an instruction that does not jump and changes
nothing, and what is behind it is where a run goes on that does not land. -/
theorem step_of_jumps (hstarts : s.machine.program.StartsAnswered)
    (hends : s.machine.program.EndsAnswered) (hi : s.machine.current? = some i)
    (hj : (s.machine.moment i).jumps = true) :
    ∃ t j, s.stepOnto = .ok () t ∧ t.machine.current? = some j ∧
      (t.machine.moment j).jumps = false ∧ t.step = .ok () t.advance ∧
      s.step = .ok () t.advance := by
  have hr : s.redirects = true := by rw [redirects, hi, Option.any_some, hj]
  obtain ⟨j, hcurrent, hstay, hperform⟩ := perform_target_of_jumps hstarts hends hi hj
  refine ⟨_, j, ?_, hcurrent, hstay, ?_, ?_⟩
  · rw [stepOnto, dispatch_of_current? hi, perform_of_jumps hj, hr]
    rfl
  · rw [step_of_current? hcurrent, hperform]
  · rw [step_of_current? hi, perform_of_jumps hj]

/-! ### Two runs -/

/-- The run of `n` instructions and the run of `m` instructions that lands come from `s` to `t` with
the same status. The second has the moments `ms`, and the first those of them that are not behind a
jump. -/
structure Keeps (n m : Nat) (ms : List Moment) (s : Session) (status : Status) (t : Session) :
    Prop where
  /-- The run that lands is not shorter, as each of its jumps takes one instruction more. -/
  le : n ≤ m
  le_double : m ≤ 2 * n
  execute (trace : Array Moment) : s.execute (Observer.noting id) n trace =
    ⟨status, trace ++ Moment.withoutArrivals false ms, t⟩
  executeOnto (trace : Array Moment) : s.executeOnto (Observer.noting id) m trace =
    ⟨status, trace ++ ms, t⟩

variable {n m : Nat} {ms : List Moment} {status : Status} {u : Session}

theorem keeps_of_finished (hi : s.machine.current? = none) (n : Nat) :
    Keeps n n [] s (.stopped (Fault.ofFlush s.console.nextFlush))
      { s with console := s.console.flushed } where
  le := Nat.le_refl n
  le_double := by omega
  execute trace := by
    rw [execute_of_finished hi, finish_eq_flushed, Moment.withoutArrivals, Array.appendList_nil]
  executeOnto trace := by
    rw [executeOnto_of_finished hi, finish_eq_flushed, Array.appendList_nil]

theorem keeps_zero (hi : s.machine.current? = some i) : Keeps 0 0 [] s .running s where
  le := Nat.le_refl 0
  le_double := Nat.le_refl 0
  execute trace := by rw [execute_zero hi, Moment.withoutArrivals, Array.appendList_nil]
  executeOnto trace := by rw [executeOnto_zero hi, Array.appendList_nil]

theorem keeps_of_fault (hi : s.machine.current? = some i)
    (hj : (s.machine.moment i).jumps = false) (hs : s.step = .error f t) (n : Nat) :
    Keeps (n + 1) (n + 1) [s.machine.moment i] s (.stopped (.error f)) t where
  le := Nat.le_refl _
  le_double := by omega
  execute trace := by
    rw [execute_of_fault hi rfl hs]
    simp [Moment.withoutArrivals]
  executeOnto trace := by
    rw [executeOnto_of_fault hi rfl ((stepOnto_of_not_jumps hi hj).trans hs)]
    simp

/-- An instruction that does not jump is one of both runs. -/
theorem Keeps.step (hi : s.machine.current? = some i) (hj : (s.machine.moment i).jumps = false)
    (hs : s.step = .ok () t) (h : Keeps n m ms t status u) :
    Keeps (n + 1) (m + 1) (s.machine.moment i :: ms) s status u where
  le := Nat.succ_le_succ h.le
  le_double := by have := h.le_double; omega
  execute trace := by
    rw [execute_of_step hi rfl hs, h.execute]
    simp [Moment.withoutArrivals, hj]
  executeOnto trace := by
    rw [executeOnto_of_step hi rfl ((stepOnto_of_not_jumps hi hj).trans hs), h.executeOnto]
    simp

/-- A jump is one instruction of a run, and two instructions of the run that lands. -/
theorem Keeps.jump {j : Instruction} (hi : s.machine.current? = some i)
    (hj : (s.machine.moment i).jumps = true) (hs : s.step = .ok () t.advance)
    (honto : s.stepOnto = .ok () t) (hcurrent : t.machine.current? = some j)
    (hstay : (t.machine.moment j).jumps = false) (hback : t.step = .ok () t.advance)
    (h : Keeps n m ms t.advance status u) :
    Keeps (n + 1) (m + 2) (s.machine.moment i :: t.machine.moment j :: ms) s status u where
  le := by have := h.le; omega
  le_double := by have := h.le_double; omega
  execute trace := by
    rw [execute_of_step hi rfl hs, h.execute]
    simp [Moment.withoutArrivals, hj, hstay]
  executeOnto trace := by
    rw [executeOnto_of_step hi rfl honto, executeOnto_of_step hcurrent rfl
      ((stepOnto_of_not_jumps hcurrent hstay).trans hback), h.executeOnto]
    simp

/-- Every run has a run that lands and keeps to it. -/
theorem exists_keeps (n : Nat) (s : Session) (hstarts : s.machine.program.StartsAnswered)
    (hends : s.machine.program.EndsAnswered) : ∃ m ms status t, Keeps n m ms s status t := by
  induction n generalizing s with
  | zero =>
    cases hi : s.machine.current? with
    | none => exact ⟨0, [], _, _, keeps_of_finished hi 0⟩
    | some i => exact ⟨0, [], .running, s, keeps_zero hi⟩
  | succ n ih =>
    cases hi : s.machine.current? with
    | none => exact ⟨n + 1, [], _, _, keeps_of_finished hi (n + 1)⟩
    | some i =>
      cases hj : (s.machine.moment i).jumps with
      | true =>
        obtain ⟨t, j, honto, hcurrent, hstay, hback, hs⟩ := step_of_jumps hstarts hends hi hj
        have hprogram : t.advance.machine.program = s.machine.program :=
          (SameSetting.of_step hs).program
        obtain ⟨m, ms, status, u, h⟩ := ih t.advance (hprogram ▸ hstarts) (hprogram ▸ hends)
        exact ⟨m + 2, _, status, u, h.jump hi hj hs honto hcurrent hstay hback⟩
      | false =>
        cases hs : s.step with
        | ok _ t =>
          have hprogram : t.machine.program = s.machine.program := (SameSetting.of_step hs).program
          obtain ⟨m, ms, status, u, h⟩ := ih t (hprogram ▸ hstarts) (hprogram ▸ hends)
          exact ⟨m + 1, _, status, u, h.step hi hj hs⟩
        | error f t => exact ⟨n + 1, _, _, t, keeps_of_fault hi hj hs n⟩

/-- **Landing on the targets of jumps.** In a program in which there is a loop end at or after
every loop start and a loop start at or before every loop end, whatever belongs to what, a run and
the run that lands on the targets of its jumps are the same from every session on. After any number
of instructions the second comes, by at most twice as many, to the same session with the same
status. One of them is at its end exactly when the other is, with the same result and the same
session. The moments of the first are always those of the second without the single one behind each
jump. -/
theorem executeOnto_refines (s : Session) (hstarts : s.machine.program.StartsAnswered)
    (hends : s.machine.program.EndsAnswered) :
    (∀ n, ∃ m, n ≤ m ∧ m ≤ 2 * n ∧ (s.tracedOnto m).status = (s.traced n).status ∧
      (s.tracedOnto m).session = (s.traced n).session ∧
      (s.traced n).notes.toList =
        Moment.withoutArrivals false (s.tracedOnto m).notes.toList) ∧
    ∀ (r : Except Fault Unit) (trace : List Moment) (t : Session),
      (∃ n, s.traced n = ⟨.stopped r, trace.toArray, t⟩) ↔
        ∃ m ms, s.tracedOnto m = ⟨.stopped r, ms.toArray, t⟩ ∧
          trace = Moment.withoutArrivals false ms := by
  refine ⟨fun n => ?_, fun r trace t => ⟨?_, ?_⟩⟩
  · obtain ⟨m, ms, status, t, h⟩ := exists_keeps n s hstarts hends
    refine ⟨m, h.le, h.le_double, ?_⟩
    rw [traced, tracedOnto, h.execute, h.executeOnto]
    simp
  · rintro ⟨n, hn⟩
    obtain ⟨m, ms, status, u, h⟩ := exists_keeps n s hstarts hends
    rw [traced, h.execute] at hn
    obtain ⟨rfl, hms, rfl⟩ := Report.mk.inj hn
    refine ⟨m, ms, by rw [tracedOnto, h.executeOnto]; simp, by simpa using hms.symm⟩
  · rintro ⟨m, ms, hm, rfl⟩
    obtain ⟨k, ms', status, u, h⟩ := exists_keeps m s hstarts hends
    -- The run that lands has stopped within `m` instructions, so it is the one that keeps to `m`.
    have hk : s.tracedOnto k = ⟨.stopped r, ms.toArray, t⟩ := by
      obtain ⟨d, rfl⟩ := Nat.exists_eq_add_of_le h.le
      exact executeOnto_add hm d
    rw [tracedOnto, h.executeOnto] at hk
    obtain ⟨rfl, hms, rfl⟩ := Report.mk.inj hk
    obtain rfl : ms' = ms := by simpa using hms
    exact ⟨m, by rw [traced, h.execute]; simp⟩

/-- Counts a cell down in a loop inside a loop. The inner loop start is the partner of both loop
ends. -/
def loopInLoop : Session where
  machine := {
    program := #[.change .plus "이구우우욱", .loopStart, .loopStart, .change .minus "이구구국",
      .loopEnd, .loopEnd]
    tape := Tape.new 1 .error }
  console := {}

/-- The inner loop start is jumped to once, and then only the run that lands carries it out. -/
theorem executeOnto_refines_loopInLoop :
    loopInLoop.machine.program.StartsAnswered ∧ loopInLoop.machine.program.EndsAnswered ∧
      (loopInLoop.tracedOnto 9).notes.toList.map Moment.counter = [0, 1, 2, 3, 4, 2, 3, 4, 5] ∧
      ∃ n trace, loopInLoop.traced n =
          ⟨.stopped (.ok ()), trace.toArray, (loopInLoop.tracedOnto 9).session⟩ ∧
        trace = Moment.withoutArrivals false (loopInLoop.tracedOnto 9).notes.toList ∧
        trace.map Moment.counter = [0, 1, 2, 3, 4, 3, 4, 5] := by
  have hstarts : loopInLoop.machine.program.StartsAnswered := by decide
  have hends : loopInLoop.machine.program.EndsAnswered := by decide
  obtain ⟨n, hn⟩ := ((executeOnto_refines loopInLoop hstarts hends).2 (.ok ()) _
    (loopInLoop.tracedOnto 9).session).2 ⟨9, (loopInLoop.tracedOnto 9).notes.toList, rfl, rfl⟩
  exact ⟨hstarts, hends, by decide, n, _, hn, rfl, by decide⟩

/-! ### Jumps without a partner -/

/-- A jump that leads to itself is carried out for ever by a run that lands. -/
theorem status_executeOnto_of_target_eq (hi : s.machine.current? = some i)
    (hj : (s.machine.moment i).jumps = true)
    (htarget : s.machine.program.target i s.machine.counter = s.machine.counter) (n : Nat)
    (trace : Array Moment) : (s.executeOnto (Observer.noting id) n trace).status = .running := by
  have hr : s.redirects = true := by rw [redirects, hi, Option.any_some, hj]
  have hs : s.stepOnto = .ok () s := by
    rw [stepOnto, dispatch_of_current? hi, perform_of_jumps hj, hr, htarget]
    rfl
  induction n generalizing trace with
  | zero => rw [executeOnto_zero hi]
  | succ n ih => rw [executeOnto_of_step hi rfl hs, ih]

end Session

end PhraseTape
