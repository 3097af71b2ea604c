import Mathlib.Data.List.Chain
import PhraseTape.Proofs.Run.Limits
import PhraseTape.Proofs.Run.LoopTests

/-!
# How long a run takes

The counter goes up from one instruction to the next, unless a loop end jumps back, and no jump
leads back to the first instruction. So between two jumps back there are fewer instructions than the
program has, and a run can only be long if it jumps back often. A program without loop ends stops
after as many instructions as it has, and a run that never stops jumps back again and again.

## Main definitions

* `Moment.jumpsBack` : the instruction is a loop end that jumps.
* `Moment.GoesOnTo` : how the counters of two instructions in a row compare.

## Main results

* `Moment.length_le_of_isChain` : the length of a row of instructions, by its jumps back.
* `Session.goesOnTo_of_step`, `Session.Passes.isChain` : the counters in the course of a run.
* `Session.exists_execute_eq_stopped` : a program without loop ends stops.
* `Session.length_questions_le` : only jumps back make a run long.
-/

namespace PhraseTape

variable {σ : Type}

namespace Moment

/-- Whether the instruction is a loop end that finds a cell other than zero, and so jumps back. -/
def jumpsBack (m : Moment) : Bool :=
  match m.instruction, m.cell with
  | .loopEnd, .ok v => !v.isZero
  | _, _ => false

/-- How the counter goes on from the moment `m` to the next one: after a jump back it is not at the
first instruction, and otherwise it has gone up. -/
def GoesOnTo (m next : Moment) : Prop :=
  if m.jumpsBack then 0 < next.counter else m.counter < next.counter

variable {m : Moment} {l : List Moment} {n : Nat}

theorem goesOnTo_of_jumpsBack (h : m.jumpsBack = true) (next : Moment) :
    m.GoesOnTo next ↔ 0 < next.counter := by
  rw [GoesOnTo, if_pos h]

theorem goesOnTo_of_not_jumpsBack (h : m.jumpsBack = false) (next : Moment) :
    m.GoesOnTo next ↔ m.counter < next.counter := by
  rw [GoesOnTo, h, if_neg Bool.false_ne_true]

/-- A loop end jumps back exactly if there is a cell under the pointer that is not zero. -/
theorem jumpsBack_iff : m.jumpsBack = true ↔
    m.instruction = .loopEnd ∧ ∃ v, m.cell = .ok v ∧ v ≠ 0 := by
  rw [jumpsBack]
  split
  next v hi hv => simp [hi, hv, ← Cell.isZero_iff]
  next h =>
    refine iff_of_false Bool.false_ne_true ?_
    rintro ⟨hi, v, hv, -⟩
    exact h v hi hv

/-! ### Counters in a row -/

/-- In a row without jumps back the counters go up; the last moment may jump. -/
theorem pairwise_counter_of_isChain (h : (l ++ [m]).IsChain GoesOnTo)
    (hl : ∀ m ∈ l, m.jumpsBack = false) :
    ((l ++ [m]).map counter).Pairwise (· < ·) := by
  rw [← List.isChain_iff_pairwise, List.isChain_map]
  induction l with
  | nil => exact .singleton m
  | cons first l ih =>
    obtain ⟨hgoes, hchain⟩ := List.isChain_cons.1 h
    have hup := goesOnTo_of_not_jumpsBack (hl first (List.mem_cons_self ..))
    exact List.isChain_cons.2 ⟨fun next hnext => (hup next).1 (hgoes next hnext),
      ih hchain fun x hx => hl x (List.mem_cons_of_mem _ hx)⟩

/-- **The length of a row of moments, by its jumps back.** Each part up to a jump back is at most as
long as the program, and each part behind one is shorter, because it does not begin with the first
instruction. -/
theorem length_add_counter_le (h : (m :: l).IsChain GoesOnTo)
    (hlt : ∀ x ∈ m :: l, x.counter < n) :
    (m :: l).length + m.counter ≤ n + (m :: l).countP jumpsBack * (n - 1) := by
  induction l generalizing m with
  | nil =>
    have := hlt m (List.mem_cons_self ..)
    rw [List.length_singleton]
    omega
  | cons next l ih =>
    obtain ⟨hgoes, hchain⟩ := List.isChain_cons_cons.1 h
    have hnext := ih hchain fun x hx => hlt x (List.mem_cons_of_mem _ hx)
    have hm := hlt m (List.mem_cons_self ..)
    rw [List.length_cons]
    cases hback : m.jumpsBack with
    | true =>
      have hpos := (goesOnTo_of_jumpsBack hback next).1 hgoes
      rw [List.countP_cons_of_pos hback, Nat.add_mul, Nat.one_mul]
      omega
    | false =>
      have hup := (goesOnTo_of_not_jumpsBack hback next).1 hgoes
      rw [List.countP_cons_of_neg (Bool.eq_false_iff.1 hback)]
      omega

theorem length_le_of_isChain (h : l.IsChain GoesOnTo) (hlt : ∀ x ∈ l, x.counter < n) :
    l.length ≤ n + l.countP jumpsBack * (n - 1) := by
  cases l with
  | nil => exact Nat.zero_le _
  | cons m l => exact Nat.le_of_add_right_le (length_add_counter_le h hlt)

end Moment

/-- Where an instruction lands, unless it is a loop end that jumps, the counter has not gone
back. -/
theorem Store.le_land {p : Program} {i : Instruction} {n : Nat} {s : Store} (hi : p[n]? = some i)
    (h : i = .loopEnd → s.jumps i = false) : n ≤ s.land p i n := by
  rw [land]
  split
  next hjumps =>
    cases i with
    | loopStart => exact p.le_loopEndFrom n (Program.lt_size_of_getElem? hi)
    | loopEnd => cases hjumps.symm.trans (h rfl)
    | _ => cases hjumps
  next => exact Nat.le_refl n

namespace Session

variable {observe : Observer σ} {s t : Session} {a b : σ} {i : Instruction} {ms : List Moment}

/-! ### The counters of a run -/

/-- How the counter goes on from an instruction that is carried out. -/
theorem goesOnTo_of_step (hi : s.machine.current? = some i) (hs : s.step = .ok () t)
    (j : Instruction) : (s.machine.moment i).GoesOnTo (t.machine.moment j) := by
  obtain ⟨u, -, rfl⟩ := Store.carryOut_of_step_ok (s := s.store) hi hs
  cases hback : (s.machine.moment i).jumpsBack with
  | true => exact (Moment.goesOnTo_of_jumpsBack hback _).2 (Nat.succ_pos _)
  | false =>
    refine (Moment.goesOnTo_of_not_jumpsBack hback _).2 (Nat.lt_succ_of_le (Store.le_land hi ?_))
    rintro rfl
    refine Bool.eq_false_iff.2 fun hjumps => Bool.eq_false_iff.1 hback ?_
    exact Moment.jumpsBack_iff.2 ⟨rfl, Store.exists_cell_of_cellIs_false hjumps⟩

/-- The first moment of a run is that of the session which it starts from. -/
theorem Passes.head?_eq (h : Passes observe ms a s b t) :
    (ms ++ t.moment?.toList).head? = s.moment? := by
  cases h with
  | refl => exact Option.head?_toList
  | step hi => exact (moment?_eq_some_iff.2 ⟨_, hi, rfl⟩).symm

/-- **The counters in the course of a run**, the instruction included to which it comes. -/
theorem Passes.isChain (h : Passes observe ms a s b t) :
    (ms ++ t.moment?.toList).IsChain Moment.GoesOnTo := by
  induction h with
  | refl a s => cases s.moment? <;> simp
  | @step ms a b c s t u i hi ho hs hrest ih =>
    refine List.isChain_cons.2 ⟨fun next hnext => ?_, ih⟩
    obtain ⟨j, -, rfl⟩ := moment?_eq_some_iff.1 ((Passes.head?_eq hrest).symm.trans hnext)
    exact goesOnTo_of_step hi hs j

/-- Every moment of a run is that of an instruction of the program. -/
theorem Passes.getElem?_of_mem (h : Passes observe ms a s b t) {m : Moment}
    (hm : m ∈ ms ++ t.moment?.toList) : s.machine.program[m.counter]? = some m.instruction := by
  induction h with
  | refl a s =>
    rw [List.nil_append, Option.mem_toList, moment?_eq_some_iff] at hm
    obtain ⟨i, hi, rfl⟩ := hm
    exact hi
  | step hi ho hs _ ih =>
    rcases List.mem_cons.1 hm with rfl | hm
    · exact hi
    · rw [← (SameSetting.of_step hs).program]
      exact ih hm

/-- Without loop ends no moment of a run is a jump back. -/
theorem Passes.countP_jumpsBack (h : Passes observe ms a s b t)
    (hloop : ∀ i ∈ s.machine.program, i ≠ .loopEnd) {part : List Moment}
    (hpart : part <:+: ms ++ t.moment?.toList) : part.countP Moment.jumpsBack = 0 := by
  refine List.countP_eq_zero.2 fun m hm hback => ?_
  have hprogram := h.getElem?_of_mem (hpart.subset hm)
  exact hloop _ (Array.mem_of_getElem? hprogram) (Moment.jumpsBack_iff.1 hback).1

/-- The questions of a run are moments that it passes, and perhaps the one to which it comes
then. -/
theorem exists_passes_prefix (observe : Observer σ) (fuel : Nat) (a : σ) (s : Session) :
    ∃ ms b t, Passes observe ms a s b t ∧
      (s.questions observe fuel a).toList <+: ms ++ t.moment?.toList := by
  obtain ⟨ms, n, b, t, -, hpasses, -, hquestions⟩ := exists_questions_eq observe fuel a s
  refine ⟨ms, b, t, hpasses, ?_⟩
  rw [hquestions, List.prefix_append_right_inj]
  split
  · exact List.nil_prefix
  · exact List.prefix_refl _

/-- A part of a run is as long as its jumps back allow. -/
theorem Passes.length_le (h : Passes observe ms a s b t) {part : List Moment}
    (hpart : part <:+: ms ++ t.moment?.toList) :
    part.length ≤ s.machine.program.size +
      part.countP Moment.jumpsBack * (s.machine.program.size - 1) := by
  have hchain := List.IsChain.infix h.isChain hpart
  exact Moment.length_le_of_isChain hchain fun _ hm =>
    Program.lt_size_of_getElem? (h.getElem?_of_mem (hpart.subset hm))

/-! ### Runs that stop, and runs that do not -/

/-- A run that used up its instructions has asked its observer once about each of them. -/
theorem length_questions_of_running {fuel : Nat}
    (h : (s.execute observe fuel a).status = .running) :
    (s.questions observe fuel a).toList.length = fuel := by
  obtain ⟨ms, n, b, t, rfl, -, hrests, hquestions⟩ := exists_questions_eq observe fuel a s
  obtain ⟨rfl, -⟩ := hrests.of_running h
  rw [hquestions, if_pos rfl, List.append_nil, Nat.add_zero]

/-- **A program without loop ends stops**, after at most as many instructions as it has. -/
theorem exists_execute_eq_stopped (h : ∀ i ∈ s.machine.program, i ≠ .loopEnd)
    (observe : Observer σ) (a : σ) :
    ∃ r b t, ∀ fuel ≥ s.machine.program.size, s.execute observe fuel a = ⟨.stopped r, b, t⟩ := by
  rcases hend : s.execute observe s.machine.program.size a with ⟨_ | r, b, t⟩
  · obtain ⟨ms, i, hms, hpasses, hi⟩ := exists_passes_of_running hend
    -- There would be one instruction more than the program has.
    have hlength := hpasses.length_le (List.infix_refl _)
    rw [hpasses.countP_jumpsBack h (List.infix_refl _), Nat.zero_mul,
      moment?_eq_some_iff.2 ⟨i, hi, rfl⟩, Option.toList_some, List.length_append,
      List.length_singleton] at hlength
    omega
  · refine ⟨r, b, t, fun fuel hfuel => ?_⟩
    obtain ⟨k, rfl⟩ := Nat.exists_eq_add_of_le hfuel
    rw [execute_add, hend]

/-- **Only jumps back make a run long.** Let a session run, from any counter, and take any part of
what its observer is asked about; as long as the run goes on, this is every instruction that it has
carried out. The length of the part is at most the length of the program, and one less than this
more for each jump back in the part. From one jump back to the next the counter strictly goes up. So
a program without loop ends stops, after at most as many instructions as it has, whatever the
console does, and a run that never stops jumps back more often than any number. -/
theorem length_questions_le (observe : Observer σ) (a : σ) (s : Session) :
    let p := s.machine.program
    let asked (fuel : Nat) := (s.questions observe fuel a).toList
    (∀ fuel, (s.execute observe fuel a).status = .running → (asked fuel).length = fuel) ∧
    (∀ fuel part, part <:+: asked fuel →
      part.length ≤ p.size + part.countP Moment.jumpsBack * (p.size - 1)) ∧
    (∀ fuel part m, part ++ [m] <:+: asked fuel → (∀ x ∈ part, x.jumpsBack = false) →
      ((part ++ [m]).map Moment.counter).Pairwise (· < ·)) ∧
    ((∀ i ∈ p, i ≠ .loopEnd) →
      (∀ fuel, (asked fuel).length ≤ p.size) ∧
      ∃ r b t, ∀ fuel ≥ p.size, s.execute observe fuel a = ⟨.stopped r, b, t⟩) ∧
    ((∀ fuel, (s.execute observe fuel a).status = .running) →
      ∀ k, ∃ fuel, k < (asked fuel).countP Moment.jumpsBack) := by
  intro p asked
  have hle (fuel : Nat) (part : List Moment) (hpart : part <:+: asked fuel) :
      part.length ≤ p.size + part.countP Moment.jumpsBack * (p.size - 1) := by
    obtain ⟨ms, b, t, hpasses, hprefix⟩ := exists_passes_prefix observe fuel a s
    exact hpasses.length_le (hpart.trans hprefix.isInfix)
  refine ⟨fun fuel => length_questions_of_running, hle, fun fuel part m hpart hback => ?_,
    fun hloop => ⟨fun fuel => ?_, exists_execute_eq_stopped hloop observe a⟩, fun hrunning k => ?_⟩
  · obtain ⟨ms, b, t, hpasses, hprefix⟩ := exists_passes_prefix observe fuel a s
    have hchain := List.IsChain.infix hpasses.isChain (hpart.trans hprefix.isInfix)
    exact Moment.pairwise_counter_of_isChain hchain hback
  · obtain ⟨ms, b, t, hpasses, hprefix⟩ := exists_passes_prefix observe fuel a s
    have hlength := hle fuel _ (List.infix_refl _)
    rwa [hpasses.countP_jumpsBack hloop hprefix.isInfix, Nat.zero_mul, Nat.add_zero] at hlength
  · -- So many instructions cannot be carried out with `k` jumps back.
    refine ⟨p.size + k * (p.size - 1) + 1, Nat.lt_of_mul_lt_mul_right (a := p.size - 1) ?_⟩
    have hlength := hle _ _ (List.infix_refl (asked (p.size + k * (p.size - 1) + 1)))
    rw [length_questions_of_running (hrunning _)] at hlength
    omega

/-- Goes round an empty loop, because the cell is not zero. -/
def goesRound : Session where
  machine := { program := #[.loopStart, .loopEnd], tape := (Tape.new 1 .error).put 0 1 }
  console := {}

/-- Behind the loop start the run comes back to where it is. -/
theorem status_goesRound (fuel : Nat) :
    (goesRound.execute Observer.silent fuel ()).status = .running := by
  have hround : goesRound.advance.step = .ok () goesRound.advance := rfl
  have hbehind : ∀ n, (goesRound.advance.execute Observer.silent n ()).status = .running := by
    intro n
    induction n with
    | zero => rfl
    | succ n ih => rwa [execute_of_step (i := .loopEnd) rfl rfl hround]
  cases fuel with
  | zero => rfl
  | succ n => exact hbehind n

/-- A run round an empty loop jumps back more often than any number, and a program of two outputs
stops after two instructions. -/
theorem length_questions_le_goesRound :
    (∀ k, ∃ fuel, k < (goesRound.questions Observer.silent fuel ()).toList.countP
      Moment.jumpsBack) ∧
    (goesRound.questions Observer.silent 4 ()).toList.map Moment.counter = [0, 1, 1, 1] ∧
    ∃ r b t, ∀ fuel ≥ 2, printsTwice.execute Observer.silent fuel () = ⟨.stopped r, b, t⟩ := by
  obtain ⟨-, -, -, -, hforever⟩ := length_questions_le Observer.silent () goesRound
  obtain ⟨-, -, -, hstops, -⟩ := length_questions_le Observer.silent () printsTwice
  exact ⟨hforever status_goesRound, rfl, (hstops (by decide)).2⟩

end Session

end PhraseTape
