import PhraseTape.Proofs.Run.Moments

/-!
# Runs in parts

A run can be taken in parts. A part is a run that its observer stops after some number of
instructions, or a single instruction carried out by hand; the last part is a run that nobody stops.
Nothing is lost or done twice where two parts meet: stopping a run carries out nothing and flushes
nothing, and the flush at the end belongs to the part that comes to the end of the program.

## Main definitions

* `Session.tracedUpTo` : a run that is stopped after some number of instructions.
* `Part`, `Session.runInParts` : the parts of a run, one after the other.

## Main results

* `Session.execute_upTo_also` : a run of a limited number of instructions.
* `Session.exists_runInParts_eq_traced` : a run in parts is the run as a whole.
* `Session.execute_in_parts` : the same, and what stopping and finishing a run leave.
-/

namespace PhraseTape

variable {σ τ : Type}

/-- What a run left, with the notes of its observer changed. -/
def Report.mapNotes (f : σ → τ) (r : Report σ) : Report τ :=
  ⟨r.status, f r.notes, r.session⟩

/-- What a run left that is stopped by its observer if it was not at its end. -/
def Report.interrupted (r : Report σ) : Report σ :=
  match r.status with
  | .running => { r with status := .stopped (.error .aborted) }
  | .stopped _ => r

/-- A part of a run. -/
inductive Part where
  /-- The run is stopped by its observer before the instruction that follows the first `count`
  ones. -/
  | limited (count : Nat)
  /-- One instruction is carried out, and then the counter goes on. -/
  | single
  deriving DecidableEq, Repr

namespace Session

/-- A run that is stopped by its observer before the instruction that follows the first `count`
ones. The notes are the moments of the instructions let through. -/
def tracedUpTo (count : Nat) (s : Session) : Report (Array Moment) :=
  (s.execute ((Observer.upTo count none).also (Observer.noting id)) (count + 1) (0, #[])).mapNotes
    Prod.snd

/-- A run in parts, and at last without a stop. It is at its end as soon as an instruction fails, or
a part comes to the end of the program instead of being stopped; there is no single instruction at
the end of the program. The notes are those of all parts. -/
def runInParts : List Part → Nat → Session → Report (Array Moment)
  | [], fuel, s => s.traced fuel
  | .limited count :: parts, fuel, s =>
    match s.tracedUpTo count with
    | ⟨.stopped (.error .aborted), trace, t⟩ => (runInParts parts fuel t).mapNotes (trace ++ ·)
    | report => report
  | .single :: parts, fuel, s =>
    match s.machine.current?, s.dispatch with
    | none, _ => runInParts parts fuel s
    | some i, .ok () t =>
      (runInParts parts fuel t.advance).mapNotes (#[s.machine.moment i] ++ ·)
    | some i, .error f t => ⟨.stopped (.error f), #[s.machine.moment i], t⟩

/-! ### Limited runs -/

/-- A run limited to `n` more instructions is the run of `n` instructions, stopped if it is not at
its end. -/
theorem execute_upTo_also (observe : Observer σ) (n c : Nat) (a : σ) (s : Session) :
    (s.execute ((Observer.upTo (c + n) none).also observe) (n + 1) (c, a)).mapNotes Prod.snd =
      (s.execute observe n a).interrupted := by
  induction n generalizing c a s with
  | zero =>
    cases hi : s.machine.current? with
    | none =>
      rw [execute_of_finished hi, execute_of_finished hi, finish_eq_flushed, finish_eq_flushed]
      rfl
    | some i =>
      have ho : (Observer.upTo (c + 0) none).also observe (s.machine.moment i) (c, a) =
          (.abort, (c, a)) := by
        simp [Observer.also, Observer.upTo]
      rw [execute_of_abort hi ho, execute_zero hi]
      rfl
  | succ n ih =>
    cases hi : s.machine.current? with
    | none =>
      rw [execute_of_finished hi, execute_of_finished hi, finish_eq_flushed, finish_eq_flushed]
      rfl
    | some i =>
      have ho : (Observer.upTo (c + (n + 1)) none).also observe (s.machine.moment i) (c, a) =
          ((observe (s.machine.moment i) a).1, (c + 1, (observe (s.machine.moment i) a).2)) := by
        simp [Observer.also, Observer.upTo]
      rcases hb : observe (s.machine.moment i) a with ⟨_ | _, b⟩
      · rw [hb] at ho
        cases hs : s.step with
        | ok _ t =>
          have := ih (c + 1) b t
          rw [execute_of_step hi ho hs, execute_of_step hi hb hs, ← this, Nat.add_assoc c 1 n,
            Nat.add_comm 1 n]
        | error f t =>
          rw [execute_of_fault hi ho hs, execute_of_fault hi hb hs]
          rfl
      · rw [hb] at ho
        rw [execute_of_abort hi ho, execute_of_abort hi hb]
        rfl

theorem tracedUpTo_eq (count : Nat) (s : Session) :
    s.tracedUpTo count = (s.traced count).interrupted := by
  have h := execute_upTo_also (Observer.noting id) count 0 #[] s
  rwa [Nat.zero_add] at h

/-! ### Notes -/

/-- Two observers that answer alike give the same run, if one of them keeps a part of the notes of
the other one. -/
theorem execute_mapNotes {observe : Observer σ} {observe' : Observer τ} {f : σ → τ}
    (h : ∀ m a, observe' m (f a) = ((observe m a).1, f (observe m a).2)) (fuel : Nat) (a : σ)
    (s : Session) : s.execute observe' fuel (f a) = (s.execute observe fuel a).mapNotes f := by
  induction fuel generalizing a s with
  | zero =>
    cases hi : s.machine.current? with
    | none =>
      rw [execute_of_finished hi, execute_of_finished hi, finish_eq_flushed, finish_eq_flushed]
      rfl
    | some i =>
      rw [execute_zero hi, execute_zero hi]
      rfl
  | succ fuel ih =>
    cases hi : s.machine.current? with
    | none =>
      rw [execute_of_finished hi, execute_of_finished hi, finish_eq_flushed, finish_eq_flushed]
      rfl
    | some i =>
      have ho' := h (s.machine.moment i) a
      rcases ho : observe (s.machine.moment i) a with ⟨_ | _, b⟩ <;> rw [ho] at ho'
      · cases hs : s.step with
        | ok _ t => rw [execute_of_step hi ho' hs, execute_of_step hi ho hs, ih]
        | error f t =>
          rw [execute_of_fault hi ho' hs, execute_of_fault hi ho hs]
          rfl
      · rw [execute_of_abort hi ho', execute_of_abort hi ho]
        rfl

/-- Notes that were there before stay in front. -/
theorem execute_noting_append (note : Moment → τ) (fuel : Nat) (notes : Array τ) (s : Session) :
    s.execute (Observer.noting note) fuel notes =
      (s.execute (Observer.noting note) fuel #[]).mapNotes (notes ++ ·) := by
  induction fuel generalizing notes s with
  | zero =>
    cases hi : s.machine.current? with
    | none =>
      rw [execute_of_finished hi, execute_of_finished hi, finish_eq_flushed, finish_eq_flushed]
      simp [Report.mapNotes]
    | some i =>
      rw [execute_zero hi, execute_zero hi]
      simp [Report.mapNotes]
  | succ fuel ih =>
    cases hi : s.machine.current? with
    | none =>
      rw [execute_of_finished hi, execute_of_finished hi, finish_eq_flushed, finish_eq_flushed]
      simp [Report.mapNotes]
    | some i =>
      have ho : ∀ notes, Observer.noting note (s.machine.moment i) notes =
          (.proceed, notes.push (note (s.machine.moment i))) := fun _ => rfl
      cases hs : s.step with
      | ok _ t =>
        rw [execute_of_step hi (ho _) hs, execute_of_step hi (ho _) hs, ih, ih (#[].push _)]
        simp [Report.mapNotes]
      | error f t =>
        rw [execute_of_fault hi (ho _) hs, execute_of_fault hi (ho _) hs]
        simp [Report.mapNotes]

/-- A run that only takes notes is not stopped by its observer. -/
theorem execute_noting_ne_aborted {note : Moment → τ} {fuel : Nat} {notes notes' : Array τ}
    {s t : Session} : s.execute (Observer.noting note) fuel notes ≠
      ⟨.stopped (.error .aborted), notes', t⟩ := by
  intro h
  obtain ⟨ms, n, b, u, -, -, hrests⟩ := exists_passes_rests (Observer.noting note) fuel notes s
  rw [h] at hrests
  obtain ⟨-, i, -, ho⟩ := hrests.of_aborted
  cases ho

/-! ### Parts -/

theorem traced_add (m n : Nat) (s : Session) : s.traced (m + n) =
    match s.traced m with
    | ⟨.running, trace, t⟩ => (t.traced n).mapNotes (trace ++ ·)
    | report => report := by
  rw [traced, execute_add]
  rcases h : s.traced m with ⟨_ | r, trace, t⟩ <;> rw [traced] at h <;> rw [h]
  exact execute_noting_append ..

/-- **A run in parts is the run as a whole**, for some number of instructions that are carried out
before the last part. -/
theorem exists_runInParts_eq_traced (parts : List Part) (s : Session) :
    ∃ n, ∀ fuel, s.runInParts parts fuel = s.traced (n + fuel) := by
  induction parts generalizing s with
  | nil => exact ⟨0, fun fuel => by rw [runInParts, Nat.zero_add]⟩
  | cons part parts ih =>
    cases part with
    | limited count =>
      have hlimited := tracedUpTo_eq count s
      rcases h : s.traced count with ⟨_ | r, trace, t⟩
      · rw [h] at hlimited
        obtain ⟨n, hn⟩ := ih t
        refine ⟨count + n, fun fuel => ?_⟩
        rw [Nat.add_assoc, traced_add, h]
        show _ = (t.traced (n + fuel)).mapNotes (trace ++ ·)
        rw [← hn, runInParts, hlimited]
        rfl
      · refine ⟨count, fun fuel => ?_⟩
        rw [traced_add, h, runInParts, hlimited, h]
        match r, h with
        | .ok (), _ => rfl
        | .error (.address e), _ => rfl
        | .error (.io e), _ => rfl
        | .error .aborted, h => exact absurd h execute_noting_ne_aborted
    | single =>
      cases hi : s.machine.current? with
      | none =>
        obtain ⟨n, hn⟩ := ih s
        exact ⟨n, fun fuel => by simp only [runInParts, hi, hn]⟩
      | some i =>
        have ho : Observer.noting id (s.machine.moment i) #[] =
            (.proceed, #[s.machine.moment i]) := rfl
        cases hd : s.dispatch with
        | ok _ t =>
          have hs : s.step = .ok () t.advance := by simp only [step, hd]
          obtain ⟨n, hn⟩ := ih t.advance
          refine ⟨n + 1, fun fuel => ?_⟩
          rw [Nat.add_right_comm, traced, execute_of_step hi ho hs, execute_noting_append]
          simp only [runInParts, hi, hd, hn]
          rfl
        | error f t =>
          have hs : s.step = .error f t := by simp only [step, hd]
          refine ⟨1, fun fuel => ?_⟩
          rw [Nat.add_comm, traced, execute_of_fault hi ho hs]
          simp only [runInParts, hi, hd]

/-- **Runs in parts.** A run that is taken in parts, with its notes put together, is the run as a
whole, for every number of instructions allowed to the last part. A run that is stopped by its
observer has come by instructions that succeed to one that the observer refuses, and leaves the
session that was there. A run that has ended without a fault is only flushed once more when it is
started again. -/
theorem execute_in_parts (parts : List Part) (s : Session) :
    (∃ n, ∀ fuel, s.runInParts parts fuel = s.traced (n + fuel)) ∧
    (∀ (observe : Observer σ) (fuel : Nat) (a b : σ) (t : Session),
      s.execute observe fuel a = ⟨.stopped (.error .aborted), b, t⟩ →
      ∃ ms c i, Passes observe ms a s c t ∧ t.machine.current? = some i ∧
        observe (t.machine.moment i) c = (.abort, b)) ∧
    (∀ (observe : Observer σ) (fuel : Nat) (a b : σ) (t : Session),
      s.execute observe fuel a = ⟨.stopped (.ok ()), b, t⟩ →
      ∀ (observe' : Observer τ) (fuel' : Nat) (c : τ), t.execute observe' fuel' c =
        ⟨.stopped (Fault.ofFlush t.console.nextFlush), c,
          { t with console := t.console.flushed }⟩) := by
  refine ⟨exists_runInParts_eq_traced parts s, fun observe fuel a b t h => ?_,
    fun observe fuel a b t h observe' fuel' c => ?_⟩
  · obtain ⟨ms, n, c, u, -, hpasses, hrests⟩ := exists_passes_rests observe fuel a s
    rw [h] at hrests
    obtain ⟨rfl, i, hi, ho⟩ := hrests.of_aborted
    exact ⟨ms, c, i, hpasses, hi, ho⟩
  · obtain ⟨ms, n, d, u, -, -, hrests⟩ := exists_passes_rests observe fuel a s
    rw [h] at hrests
    obtain ⟨hi, hmachine⟩ := hrests.of_ok
    rw [← hmachine] at hi
    rw [execute_of_finished hi, finish_eq_flushed]

/-- Moves the pointer to the right and back. -/
def thereAndBack : Session where
  machine := { program := #[.right, .left], tape := Tape.new 1 .error }
  console := {}

/-- The first instruction is carried out in a limited run, the second by hand, and the run ends with
one flush; started again, it flushes once more. -/
theorem execute_in_parts_thereAndBack :
    (∃ n, ∀ fuel, thereAndBack.runInParts [.limited 1, .single] fuel =
      thereAndBack.traced (n + fuel)) ∧
    (∃ ms c i, Passes (Observer.upTo 1 none) ms 0 thereAndBack c (left thereAndBack.step) ∧
      (left thereAndBack.step).machine.current? = some i ∧
      Observer.upTo 1 none ((left thereAndBack.step).machine.moment i) c = (.abort, 1)) ∧
    ((thereAndBack.execute Observer.silent 2 ()).session.execute
      Observer.silent 0 ()).session.console.transcript = #[.flushed none, .flushed none] := by
  have habort := (execute_in_parts (σ := Nat) (τ := Unit) [.limited 1, .single] thereAndBack).2.1
    (Observer.upTo 1 none) 2 0 1 (left thereAndBack.step) rfl
  obtain ⟨hparts, -, hok⟩ :=
    execute_in_parts (σ := Unit) (τ := Unit) [.limited 1, .single] thereAndBack
  have hagain := hok Observer.silent 2 () () (thereAndBack.execute Observer.silent 2 ()).session rfl
    Observer.silent 0 ()
  exact ⟨hparts, habort, by rw [hagain]; rfl⟩

end Session

end PhraseTape
