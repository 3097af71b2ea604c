import PhraseTape.Run.Observer
import PhraseTape.Run.Session

/-!
# Runs

A run carries out one instruction after another until the counter is past the last one, and then
flushes the writer. Before each instruction the observer is asked; a run that it stops has carried
out nothing more and has flushed nothing. A run is computed for a number of instructions given in
advance, and says whether it came to its end within that number.

## Main definitions

* `Status`, `Report` : how far a run came, and what it left.
* `Session.execute` : a run of at most a given number of instructions.
* `Session.runLimited`, `Session.trial` : runs that are stopped after a number of instructions.

## Main results

* `Session.execute_of_finished`, `Session.execute_zero`, `Session.execute_succ` : a run, one
  instruction at a time.
* `Session.execute_add` : a run can be taken in parts.
* `Session.sameSetting_execute` : what no run changes.
-/

namespace PhraseTape

/-- How far a run came. -/
inductive Status where
  /-- The number of instructions was used up, and more of them are to come. -/
  | running
  /-- The run is at its end, with a fault if it did not reach the end of the program. -/
  | stopped (result : Except Fault Unit)

/-- What a run leaves: its status, the notes of its observer, and the session. -/
structure Report (σ : Type) where
  status : Status
  notes : σ
  session : Session

/-- The result of a run; a run that was not computed to its end counts as stopped there. -/
def Status.result : Status → Except Fault Unit
  | .running => .error .aborted
  | .stopped result => result

namespace Session

variable {σ : Type}

/-- The end of a run: everything written is flushed. -/
def finish (notes : σ) : Session → Report σ
  | ⟨m, c⟩ =>
    match c.flush with
    | .ok () c => ⟨.stopped (.ok ()), notes, ⟨m, c⟩⟩
    | .error e c => ⟨.stopped (.error (.io e)), notes, ⟨m, c⟩⟩

/-- A run of at most `fuel` instructions, watched by the observer `observe` with the notes
`notes`. -/
def execute (observe : Observer σ) (fuel : Nat) (notes : σ) (s : Session) : Report σ :=
  match s.machine.current?, fuel with
  | none, _ => s.finish notes
  | some _, 0 => ⟨.running, notes, s⟩
  | some i, fuel + 1 =>
    match observe (s.machine.moment i) notes with
    | (.abort, notes) => ⟨.stopped (.error .aborted), notes, s⟩
    | (.proceed, notes) =>
      match s.step with
      | .ok () s => execute observe fuel notes s
      | .error e s => ⟨.stopped (.error e), notes, s⟩

/-- The end of a run is an end, and leaves the machine as it was. -/
theorem finish_eq (notes : σ) (s : Session) :
    ∃ result console, s.finish notes = ⟨.stopped result, notes, ⟨s.machine, console⟩⟩ := by
  obtain ⟨m, c⟩ := s
  unfold finish
  simp only
  cases c.flush with
  | ok _ c => exact ⟨_, _, rfl⟩
  | error e c => exact ⟨_, _, rfl⟩

/-! ### One instruction at a time -/

/-- A finished session only flushes. -/
theorem execute_of_finished {s : Session} (h : s.machine.current? = none) (observe : Observer σ)
    (fuel : Nat) (notes : σ) : s.execute observe fuel notes = s.finish notes := by
  unfold execute
  rw [h]

theorem execute_zero {s : Session} {i : Instruction} (h : s.machine.current? = some i)
    (observe : Observer σ) (notes : σ) :
    s.execute observe 0 notes = ⟨.running, notes, s⟩ := by
  unfold execute
  rw [h]

theorem execute_succ {s : Session} {i : Instruction} (h : s.machine.current? = some i)
    (observe : Observer σ) (fuel : Nat) (notes : σ) : s.execute observe (fuel + 1) notes =
      match observe (s.machine.moment i) notes with
      | (.abort, notes) => ⟨.stopped (.error .aborted), notes, s⟩
      | (.proceed, notes) =>
        match s.step with
        | .ok () s => s.execute observe fuel notes
        | .error e s => ⟨.stopped (.error e), notes, s⟩ := by
  conv => lhs; unfold execute
  rw [h]

/-- A run that stopped stays as it is, whatever instructions are still allowed; one that did not
goes on from where it came to. -/
theorem execute_add (observe : Observer σ) (m n : Nat) (notes : σ) (s : Session) :
    s.execute observe (m + n) notes =
      match s.execute observe m notes with
      | ⟨.running, notes, s⟩ => s.execute observe n notes
      | report => report := by
  induction m generalizing notes s with
  | zero =>
    rw [Nat.zero_add]
    cases h : s.machine.current? with
    | none =>
      obtain ⟨result, console, hf⟩ := s.finish_eq notes
      rw [execute_of_finished h, execute_of_finished h, hf]
    | some i => rw [execute_zero h]
  | succ m ih =>
    rw [Nat.succ_add]
    cases h : s.machine.current? with
    | none =>
      obtain ⟨result, console, hf⟩ := s.finish_eq notes
      rw [execute_of_finished h, execute_of_finished h, hf]
    | some i =>
      rw [execute_succ h, execute_succ h]
      rcases observe (s.machine.moment i) notes with ⟨_ | _, notes⟩
      · simp only
        cases s.step with
        | ok _ t => exact ih notes t
        | error e t => rfl
      · rfl

/-- No run changes the program, the encoding, or the size and the policy of the tape. -/
theorem sameSetting_execute (observe : Observer σ) (fuel : Nat) (notes : σ) (s : Session) :
    SameSetting s (s.execute observe fuel notes).session := by
  induction fuel generalizing notes s with
  | zero =>
    cases h : s.machine.current? with
    | none =>
      obtain ⟨result, console, hf⟩ := s.finish_eq notes
      rw [execute_of_finished h, hf]
      exact .of_machine_eq rfl
    | some i =>
      rw [execute_zero h]
      exact .of_machine_eq rfl
  | succ fuel ih =>
    cases h : s.machine.current? with
    | none =>
      obtain ⟨result, console, hf⟩ := s.finish_eq notes
      rw [execute_of_finished h, hf]
      exact .of_machine_eq rfl
    | some i =>
      rw [execute_succ h]
      rcases observe (s.machine.moment i) notes with ⟨_ | _, notes⟩
      · have hs := s.sameSetting_step
        cases hq : s.step with
        | ok _ t =>
          rw [hq] at hs
          exact hs.trans (ih notes t)
        | error e t =>
          rw [hq] at hs
          exact hs
      · exact .of_machine_eq rfl

/-- Whether a run goes on, and goes on with an instruction that asks for a line. -/
def awaitsLine (observe : Observer σ) (notes : σ) (s : Session) : Bool :=
  match s.machine.current? with
  | some .read => (observe (s.machine.moment .read) notes).1 == .proceed
  | _ => false

/-! ### Limited runs -/

/-- A run that is stopped before the instruction that follows the first `limit` ones, or before
the instruction of index `stop`. The notes are the number of instructions let through. -/
def runLimited (limit : Nat) (stop : Option Nat) (s : Session) : Report Nat :=
  s.execute (Observer.upTo limit stop) (limit + 1) 0

/-- The number of instructions allowed to a program that is only tried out. -/
def trialLimit : Nat :=
  500000

/-- A run that is stopped before the instruction that would exceed `trialLimit`. -/
def trial (s : Session) : Report Nat :=
  s.execute (Observer.exceeding (some trialLimit)) (trialLimit + 1) 0

end Session

end PhraseTape
