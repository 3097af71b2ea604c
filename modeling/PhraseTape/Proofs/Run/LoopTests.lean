import PhraseTape.Proofs.Run.Counter

/-!
# What loop instructions leave behind

Behind a loop start the cell under the pointer is not zero, and behind a loop end it is zero. A run
comes behind a loop instruction in several ways: the instruction has not jumped, or one of the other
kind has jumped to it, which may belong to another loop. Each of these tests the cell with the same
outcome, and none of them changes the cell.

Two jumps without a partner are exceptions. A jump forward to the end of the program can come behind
a loop start, but there the run is at its end. A jump back to the start of the program can come
behind a loop end, if this is the first instruction.

## Main definitions

* `Session.Tested` : what the instruction in front of the counter says about the cell.

## Main results

* `Store.cellIs_of_land` : the cell where an instruction lands on a loop instruction.
* `Session.tested_of_step`, `Session.Passes.tested` : the cell in the course of a run.
* `Session.execute_loop_tests` : the cell at the questions of a run and at its end.
-/

namespace PhraseTape

variable {σ : Type}

namespace Program

variable {p : Program} {n : Nat}

/-- A jump forward leads to a loop end, or to the last index. -/
theorem loopEndFrom_eq_or (p : Program) (n : Nat) :
    p.loopEndFrom n = p.size - 1 ∨ p[p.loopEndFrom n]? = some .loopEnd := by
  by_cases h : ∃ j, n ≤ j ∧ p[j]? = some .loopEnd
  · obtain ⟨j, hnj, hj⟩ := h
    exact .inr (getElem?_loopEndFrom hnj hj).1
  · exact .inl (loopEndFrom_eq_of_forall_ne fun j hnj hj => h ⟨j, hnj, hj⟩)

end Program

namespace Store

variable {p : Program} {n : Nat} {i : Instruction} {s t : Store} {v : Cell}

theorem cellIs_of_ok (h : s.cell = .ok v) (zero : Bool) : s.cellIs zero = (v.isZero == zero) := by
  rw [cellIs, h]

theorem cell_eq_of_cellIs_true (h : s.cellIs true = true) : s.cell = .ok 0 := by
  rw [cellIs] at h
  split at h
  next v hv => rw [hv, (Cell.isZero_iff v).1 (by simpa using h)]
  next => cases h

theorem exists_cell_of_cellIs_false (h : s.cellIs false = true) :
    ∃ v, s.cell = .ok v ∧ v ≠ 0 := by
  rw [cellIs] at h
  split at h
  next v hv =>
    refine ⟨v, hv, ?_⟩
    rintro rfl
    cases h
  next => cases h

/-- A loop instruction lands on the target of its jump if it finds the cell that it looks for. -/
theorem land_of_cell (h : s.cell = .ok v) (p : Program) (n : Nat) :
    s.land p .loopStart n = (if v.isZero then p.loopEndFrom n else n) ∧
      s.land p .loopEnd n = if v.isZero then n else p.loopStartTo n := by
  simp only [land, jumps, cellIs_of_ok h, Program.target]
  cases v.isZero <;> exact ⟨rfl, rfl⟩

/-- **Landing on a loop instruction.** Where an instruction lands on a loop start, the cell is not
zero, unless the run is at its end behind it; where it lands on a loop end, the cell is zero, unless
this is the first instruction. -/
theorem cellIs_of_land (hi : p[n]? = some i) (hc : s.carryOut i = .ok () t) :
    (p[s.land p i n]? = some .loopStart → s.land p i n + 1 < p.size → t.cellIs false = true) ∧
      (p[s.land p i n]? = some .loopEnd → s.land p i n ≠ 0 → t.cellIs true = true) := by
  by_cases hloop : i = .loopStart ∨ i = .loopEnd
  · cases hcell : s.cell with
    | error e =>
      rw [carryOut_loop_of_error hcell hloop] at hc
      cases hc
    | ok v =>
      rw [carryOut_loop_of_ok hcell hloop] at hc
      cases hc
      obtain ⟨hstart, hend⟩ := land_of_cell hcell p n
      rw [cellIs_of_ok hcell, cellIs_of_ok hcell]
      -- A jump that finds its partner comes to an instruction of the other kind.
      rcases hloop with rfl | rfl
      · rw [hstart]
        cases hv : v.isZero with
        | true =>
          refine ⟨fun h hlt => ?_, fun _ _ => rfl⟩
          rcases p.loopEndFrom_eq_or n with hlast | hpartner
          · rw [if_pos rfl, hlast] at hlt
            omega
          · cases hpartner.symm.trans h
        | false => exact ⟨fun _ _ => rfl, fun h => (by cases hi.symm.trans h)⟩
      · rw [hend]
        cases hv : v.isZero with
        | true => exact ⟨fun h => (by cases hi.symm.trans h), fun _ _ => rfl⟩
        | false =>
          refine ⟨fun _ _ => rfl, fun h hne => ?_⟩
          rcases p.loopStartBelow_eq_zero_or (min n (p.size - 1)) with hzero | hpartner
          · exact absurd hzero hne
          · cases hpartner.symm.trans h
  · obtain ⟨hs, he⟩ := not_or.1 hloop
    rw [land, jumps_of_not_loop hs he, if_neg Bool.false_ne_true, hi]
    exact ⟨fun h => absurd (Option.some.inj h) hs, fun h => absurd (Option.some.inj h) he⟩

end Store

namespace Session

/-- If the instruction in front of the counter is a loop start that is not the last instruction, the
cell under the pointer is not zero; if it is a loop end that is not the first instruction, the cell
is zero. -/
structure Tested (s : Session) : Prop where
  loopStart {k : Nat} (hk : s.machine.counter = k + 1) (hlt : k + 1 < s.machine.program.size)
    (hi : s.machine.program[k]? = some .loopStart) : ∃ v, s.machine.cell = .ok v ∧ v ≠ 0
  loopEnd {k : Nat} (hk : s.machine.counter = k + 1) (hpos : 1 ≤ k)
    (hi : s.machine.program[k]? = some .loopEnd) : s.machine.cell = .ok 0

variable {observe : Observer σ} {s t : Session} {a b : σ} {i : Instruction}

/-- At the start of a program there is no instruction in front of the counter. -/
theorem tested_of_counter_eq_zero (h : s.machine.counter = 0) : s.Tested where
  loopStart hk := by omega
  loopEnd hk := by omega

/-- Behind every instruction the cell is as a loop instruction there has tested it. -/
theorem tested_of_step (hi : s.machine.current? = some i) (hs : s.step = .ok () t) : t.Tested := by
  obtain ⟨u, hu, rfl⟩ := Store.carryOut_of_step_ok (s := s.store) hi hs
  obtain ⟨hstart, hend⟩ := Store.cellIs_of_land hi hu
  constructor
  · intro k hk hlt hkstart
    obtain rfl : s.store.land s.machine.program i s.machine.counter = k := Nat.succ.inj hk
    exact Store.exists_cell_of_cellIs_false (hstart hkstart hlt)
  · intro k hk hpos hkend
    obtain rfl : s.store.land s.machine.program i s.machine.counter = k := Nat.succ.inj hk
    exact Store.cell_eq_of_cellIs_true (hend hkend (by omega))

/-- In the course of a run the cell is as a loop instruction in front of the counter has tested
it. -/
theorem Passes.tested {ms : List Moment} (h : Passes observe ms a s b t) (hs : s.Tested) :
    t.Tested :=
  h.invariant (fun hi hstep _ => tested_of_step hi hstep) hs

/-- Comes to its second instruction by a jump back that finds no loop start, and to the end of the
program by the next instruction. -/
def backToFront : Session where
  machine := { program := #[.loopEnd, .print], tape := (Tape.new 1 .error).put 0 65 }
  console := {}

/-- **What loop instructions leave behind.** Let a session run from the start of its program. When
its observer is asked about the instruction behind a loop start, the cell under the pointer is there
and is not zero; when it is asked about the instruction behind a loop end that is not the first
instruction, the cell is there and is zero. If the run ends without a fault, and the program has two
instructions or more, of which the last is a loop end, the cell is zero at the end. Behind a loop
end that is the first instruction the cell need not be zero. -/
theorem execute_loop_tests (observe : Observer σ) (fuel : Nat) (a : σ) (s : Session)
    (hs : s.machine.counter = 0) :
    let p := s.machine.program
    let r := s.execute observe fuel a
    (∀ m ∈ s.questions observe fuel a, ∀ k : Nat, m.counter = k + 1 →
      (p[k]? = some .loopStart → ∃ v, m.cell = .ok v ∧ v ≠ 0) ∧
      (p[k]? = some .loopEnd → 1 ≤ k → m.cell = .ok 0)) ∧
    (r.status = .stopped (.ok ()) → 2 ≤ p.size → p.back? = some .loopEnd →
      r.session.machine.cell = .ok 0) ∧
    ∃ (u : Session) (m : Moment), u.machine.counter = 0 ∧ u.machine.program[0]? = some .loopEnd ∧
      m ∈ u.questions Observer.silent 2 () ∧ m.counter = 1 ∧ ∃ v, m.cell = .ok v ∧ v ≠ 0 := by
  intro p r
  have htested := tested_of_counter_eq_zero hs
  refine ⟨fun m hm k hk => ?_, fun hr hsize hlast => ?_, ?_⟩
  · obtain ⟨j, hj⟩ := Array.getElem?_of_mem hm
    obtain ⟨ms, b, t, -, hpasses, ht⟩ := exists_passes_of_questions hj
    obtain ⟨i, hi, rfl⟩ := moment?_eq_some_iff.1 ht
    have hprogram : t.machine.program = p := hpasses.sameSetting.program
    have hlt : k + 1 < t.machine.program.size := hk ▸ Machine.counter_lt_of_current? hi
    have h := hpasses.tested htested
    rw [← hprogram]
    exact ⟨h.loopStart hk hlt, fun hend hpos => h.loopEnd hk hpos hend⟩
  · obtain ⟨ms, n, b, t, rfl, hpasses, hrests⟩ := exists_passes_rests observe fuel a s
    have hprogram : t.machine.program = p := hpasses.sameSetting.program
    have hle : t.machine.counter ≤ p.size := hpasses.counter_le (by omega)
    have hfinished := (hrests.completed_of_ok hr).isFinished
    rw [hrests.machine_eq] at hfinished ⊢
    rw [Machine.isFinished_iff, hprogram] at hfinished
    have hcounter : t.machine.counter = p.size - 1 + 1 := by omega
    rw [Array.back?_eq_getElem?, ← hprogram] at hlast
    rw [← hprogram] at hcounter hsize
    exact (hpasses.tested htested).loopEnd hcounter (by omega) hlast
  · have hasked : (backToFront.questions Observer.silent 2 ())[1]? =
        some { backToFront.machine.moment .print with counter := 1 } := rfl
    exact ⟨backToFront, _, rfl, rfl, Array.mem_of_getElem? hasked, rfl, 65, rfl, by decide⟩

/-- Counts a cell down from two in a loop. -/
def countDownFromTwo : Session where
  machine := {
    program := #[.loopStart, .change .minus "이구구국", .loopEnd]
    tape := (Tape.new 1 .error).put 0 2 }
  console := {}

/-- The loop is entered with two and with one, and it is left with zero. -/
theorem execute_loop_tests_countDownFromTwo :
    countDownFromTwo.machine.counter = 0 ∧
      (countDownFromTwo.questions Observer.silent 9 ()).toList.map Moment.counter =
        [0, 1, 2, 1, 2] ∧
      (∀ m ∈ countDownFromTwo.questions Observer.silent 9 (), m.counter = 1 →
        ∃ v, m.cell = .ok v ∧ v ≠ 0) ∧
      (countDownFromTwo.execute Observer.silent 9 ()).status = .stopped (.ok ()) ∧
      (countDownFromTwo.execute Observer.silent 9 ()).session.machine.cell = .ok 0 := by
  obtain ⟨hasked, hend, -⟩ := execute_loop_tests Observer.silent 9 () countDownFromTwo rfl
  have hok : (countDownFromTwo.execute Observer.silent 9 ()).status = .stopped (.ok ()) := rfl
  exact ⟨rfl, by decide, fun m hm hone => (hasked m hm 0 hone).1 rfl, hok,
    hend hok (by decide) rfl⟩

end Session

end PhraseTape
