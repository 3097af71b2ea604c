import PhraseTape.CommandLine.Launch
import PhraseTape.Proofs.Run.Access
import PhraseTape.Proofs.Run.Calls

/-!
# Tapes with more cells

Let a tape on which addresses are checked get more cells at its end, all of them zero. A run cannot
tell the two tapes apart before an instruction uses a cell behind the end of the smaller one. There
the run on the smaller tape fails, and the run on the larger one goes on.

## Main definitions

* `Tape.widen`, `Session.widen`, `Moment.widen` : a tape with more cells, and what is on it.

## Main results

* `Session.step_widen` : one step on both tapes.
* `Session.Passes.widen`, `Session.Rests.widen` : a part of a run and its end on both tapes.
* `Session.execute_widen` : the runs on the two tapes, compared.
-/

namespace PhraseTape

variable {σ : Type}

/-- The tape followed by `k` cells that are zero. -/
def Tape.widen (k : Nat) (t : Tape) : Tape where
  cells := t.cells ++ Array.replicate k 0
  policy := t.policy
  size_pos := by rw [Array.size_append]; exact Nat.add_pos_left t.size_pos _

/-- What an observer sees if the tape is followed by `k` cells that are zero. -/
def Moment.widen (k : Nat) (m : Moment) : Moment :=
  { m with tape := m.tape.widen k }

/-- The session whose tape is followed by `k` cells that are zero. -/
def Session.widen (k : Nat) (s : Session) : Session :=
  s.mapTape (Tape.widen k)

/-- The command line traces and limits a run alike on both tapes. -/
theorem CommandLine.observer_widen (o : Options) (k : Nat) (m : Moment) (a : Notes) :
    observer o (m.widen k) a = observer o m a := by
  unfold observer
  split <;> rfl

/-! ### The tapes -/

namespace Tape

variable {t : Tape} {a : Address}

@[simp] theorem size_widen (k : Nat) (t : Tape) : (t.widen k).size = t.size + k := by
  simp [size, widen]

/-- As cells outside a tape are zero, the larger tape has the cells of the smaller one. -/
@[simp] theorem cell_widen (k : Nat) (t : Tape) (i : Nat) : (t.widen k).cell i = t.cell i := by
  simp only [cell, widen, Array.getD_eq_getD_getElem?, Array.getElem?_append,
    Array.getElem?_replicate]
  split
  · rfl
  next h =>
    rw [Array.getElem?_eq_none (by omega)]
    split <;> rfl

theorem put_widen (k : Nat) {i : Nat} (hi : i < t.size) (v : Cell) :
    (t.widen k).put i v = (t.put i v).widen k := by
  refine ext_cell (by simp) rfl fun j => ?_
  have hi' : i < t.size + k := by omega
  simp only [cell_put, cell_widen, size_widen, hi, hi']

/-- An address that is not behind the end of the smaller tape names the same cell of both, or is in
front of both. -/
theorem resolve_widen (ht : t.policy = .error) (ha : t.resolve a ≠ .error .pastEnd) (k : Nat) :
    (t.widen k).resolve a = t.resolve a := by
  have ht' : (t.widen k).policy = .error := ht
  by_cases hneg : a.toInt < 0
  · rw [resolve_error_of_neg ht hneg, resolve_error_of_neg ht' hneg]
  · by_cases hlt : a.toInt < t.size
    · rw [resolve_error_of_inside ht (by omega) hlt,
        resolve_error_of_inside ht' (by omega) (by rw [size_widen]; omega)]
    · exact absurd (resolve_error_of_size_le ht (by omega)) ha

theorem sameAt_widen (ht : t.policy = .error) (ha : t.resolve a ≠ .error .pastEnd) (k : Nat) :
    SameAt (widen k) t a where
  resolve := resolve_widen ht ha k
  cell _ := cell_widen k t _
  put v hr := put_widen k (resolve_lt hr) v

end Tape

namespace Session

variable {observe observe' : Observer σ} {s t : Session} {a b : σ} {i : Instruction} {k : Nat}

/-! ### One step on both tapes -/

/-- **A step on both tapes** is the same unless it fails on the smaller one because the pointer is
behind the end. -/
theorem step_widen (hs : s.machine.tape.policy = .error) (hi : s.machine.current? = some i)
    (hne : ∀ t, s.step ≠ .error (.address .pastEnd) t) (k : Nat) :
    (s.widen k).step = s.step.mapSession (widen k) := by
  refine step_mapTape hi fun ha => Tape.sameAt_widen hs (fun hr => ?_) k
  obtain ⟨c, hc⟩ := step_error_of_resolve hi ha hr
  exact hne _ hc

/-- A step that fails because of the pointer prints nothing. -/
theorem output_of_step_error {e : AddressError} (hi : s.machine.current? = some i)
    (h : s.step = .error (.address e) t) : t.console.output = s.console.output := by
  rw [Console.output, transcript_of_step_error hi h, Transcript.output_append]
  rcases accepted_calls_of_error (perform_of_step_error hi h) with hnil | ⟨d, v, rest, -, hf, -⟩
  · rw [hnil, List.append_nil]
    rfl
  · cases hf

/-! ### Runs on both tapes -/

/-- As long as the instructions of a run succeed, it is the same on the larger tape. -/
theorem Passes.widen {ms : List Moment} (h : Passes observe ms a s b t)
    (hobserve : ∀ m a, observe' (m.widen k) a = observe m a)
    (hs : s.machine.tape.policy = .error) :
    Passes observe' (ms.map (Moment.widen k)) a (s.widen k) b (t.widen k) := by
  induction h with
  | refl a s => exact .refl a _
  | @step ms a b c s t u i hi ho hstep _ ih =>
    have hstep' : (s.widen k).step = .ok () (t.widen k) := by
      rw [step_widen hs hi (by rw [hstep]; nofun), hstep]
      rfl
    have ho' : observe' ((s.machine.moment i).widen k) a = (.proceed, b) := by rw [hobserve, ho]
    have ht : t.machine.tape.policy = .error := (SameSetting.of_step hstep).policy.trans hs
    exact .step (s := s.widen k) hi ho' hstep' (ih ht)

/-- A run that ends, but not because the pointer is behind the end, ends in the same way on the
larger tape. -/
theorem Rests.widen {n : Nat} {r : Report σ} (h : Rests observe a s n r)
    (hobserve : ∀ m a, observe' (m.widen k) a = observe m a)
    (hs : s.machine.tape.policy = .error)
    (hne : r.status ≠ .stopped (.error (.address .pastEnd))) :
    Rests observe' a (s.widen k) n (r.mapSession (Session.widen k)) := by
  cases h with
  | running hi => exact .running (s := s.widen k) hi
  | finish hi n =>
    have hfinish : (s.finish a).mapSession (Session.widen k) = (s.widen k).finish a := by
      rw [finish_eq_flushed, finish_eq_flushed]
      rfl
    rw [hfinish]
    exact .finish (s := s.widen k) hi n
  | @abort b i hi ho n =>
    have ho' : observe' ((s.machine.moment i).widen k) a = (.abort, b) := by rw [hobserve, ho]
    exact .abort (s := s.widen k) hi ho' n
  | @fault b t i f hi ho hstep n =>
    have hstep' : (s.widen k).step = .error f (t.widen k) := by
      rw [step_widen hs hi ?_, hstep]
      · rfl
      · intro u hu
        cases hstep.symm.trans hu
        exact hne rfl
    have ho' : observe' ((s.machine.moment i).widen k) a = (.proceed, b) := by rw [hobserve, ho]
    exact .fault (s := s.widen k) hi ho' hstep' n

/-- **Tapes with more cells.** Let a session run on a tape on which addresses are checked, and on
the same tape followed by `k` cells that are zero, under the eyes of observers that answer alike, as
any observer does that looks at the counter, the instruction and the pointer only. Whatever
instructions succeed on the smaller tape succeed on the larger one, with the same moments up to the
tape, and every session on the way is the same up to the `k` cells, which are still zero. Unless the
smaller tape becomes too small, the two runs have the same status, the same notes and the same
session up to these cells for every number of instructions. If it becomes too small, the run on it
fails in an instruction that prints nothing, behind the ones that were the same, and whatever was
printed is printed by the other run too, however it goes on. -/
theorem execute_widen (hobserve : ∀ m a, observe' (m.widen k) a = observe m a) (s : Session)
    (hs : s.machine.tape.policy = .error) (fuel : Nat) (a : σ) :
    let small := s.execute observe fuel a
    (∀ ms b t, Passes observe ms a s b t →
      Passes observe' (ms.map (Moment.widen k)) a (s.widen k) b (t.widen k)) ∧
    (small.status ≠ .stopped (.error (.address .pastEnd)) →
      (s.widen k).execute observe' fuel a = small.mapSession (widen k)) ∧
    (small.status = .stopped (.error (.address .pastEnd)) →
      ∃ ms b t, ms.length < fuel ∧ Passes observe ms a s b t ∧
        t.step = .error (.address .pastEnd) small.session ∧
        small.session.machine = t.machine ∧
        small.session.console.output = t.console.output ∧
        ∀ n, ms.length ≤ n → small.session.console.output <+:
          ((s.widen k).execute observe' n a).session.console.output) := by
  intro small
  have hwiden : ∀ ms b t, Passes observe ms a s b t →
      Passes observe' (ms.map (Moment.widen k)) a (s.widen k) b (t.widen k) :=
    fun ms b t h => h.widen hobserve hs
  obtain ⟨ms, n, b, t, rfl, hpasses, hrests⟩ := exists_passes_rests observe fuel a s
  have hleads : Leads observe' ms.length a (s.widen k) b (t.widen k) := by
    have h := (hwiden ms b t hpasses).leads
    rwa [List.length_map] at h
  refine ⟨hwiden, fun hne => ?_, fun hstatus => ?_⟩
  · have ht : t.machine.tape.policy = .error := hpasses.sameSetting.policy.trans hs
    rw [hleads.execute]
    exact (hrests.widen hobserve ht hne).execute_eq
  · obtain ⟨hpos, i, hi, hstep⟩ := hrests.of_address hstatus
    have houtput := output_of_step_error hi hstep
    refine ⟨ms, b, t, by omega, hpasses, hstep, ?_, houtput, fun n' hle => ?_⟩
    · exact machine_of_dispatch_error
        ((dispatch_of_current? hi).trans (perform_of_step_error hi hstep))
    · obtain ⟨d, rfl⟩ := Nat.exists_eq_add_of_le hle
      rw [hleads.execute, houtput]
      exact output_isPrefix_execute observe' d b (t.widen k)

/-- Leaves a tape of a single cell and comes back, and leaves it again and prints. -/
def overTheEnd : Session where
  machine :=
    { program := #[.print, .right, .left, .right, .print], tape := (Tape.new 1 .error).put 0 65 }
  console := {}

/-- Outside the tape the pointer alone is no fault: up to the last instruction the trace is the same
on a second cell. -/
theorem execute_widen_overTheEnd :
    let observe := CommandLine.observer { file := "", maxSteps := some 9, trace := true }
    overTheEnd.machine.tape.policy = .error ∧
      (overTheEnd.widen 1).execute observe 4 (#[], 0) =
        (overTheEnd.execute observe 4 (#[], 0)).mapSession (widen 1) ∧
      ((overTheEnd.widen 1).execute observe 4 (#[], 0)).notes =
        (overTheEnd.execute observe 4 (#[], 0)).notes ∧
      (overTheEnd.execute observe 5 (#[], 0)).status = .stopped (.error (.address .pastEnd)) ∧
      ∀ n, 4 ≤ n → [65] <+: ((overTheEnd.widen 1).execute observe n
        (#[], 0)).session.console.output := by
  intro observe
  have hobserve : ∀ m a, observe (m.widen 1) a = observe m a := CommandLine.observer_widen _ 1
  have hfour := (execute_widen hobserve overTheEnd rfl 4 (#[], 0)).2.1 nofun
  obtain ⟨ms, b, t, hlt, -, -, -, -, hprefix⟩ :=
    (execute_widen hobserve overTheEnd rfl 5 (#[], 0)).2.2 rfl
  exact ⟨rfl, hfour, by rw [hfour]; rfl, rfl, fun n hn => hprefix n (by omega)⟩

end Session

end PhraseTape
