import PhraseTape.Proofs.Run.Course
import PhraseTape.Proofs.Run.Store

/-!
# Two programs, one behind the other

Let every loop start of the program `p` be answered in `p`, and every loop end of the program `q`
in `q`. A run of `p ++ q` is then a run of `p`, and if this comes to the end of `p`, a run of `q`
on the store that is left there, with all indices moved by the size of `p`. Nothing else happens
where the two meet: in particular the writer is not flushed.

## Main definitions

* `Session.followedBy`, `Session.behind` : a session with more instructions behind its program,
  and with more of them in front.
* `Observer.behind` : an observer of a program with more instructions in front.

## Main results

* `Store.execute_append_left`, `Store.execute_append_right` : the two parts of a run.
* `Store.execute_append` : the whole run.
-/

namespace PhraseTape

variable {σ : Type}

/-- The session with the instructions of `q` behind its program. -/
def Session.followedBy (q : Program) (s : Session) : Session :=
  { s with machine := { s.machine with program := s.machine.program ++ q } }

/-- The session with the instructions of `p` in front of its program, at the same instruction. -/
def Session.behind (p : Program) (s : Session) : Session :=
  { s with machine :=
    { s.machine with
      program := p ++ s.machine.program
      counter := p.size + s.machine.counter } }

/-- What `observe` answers about a program that has the instructions of `p` in front. -/
def Observer.behind (p : Program) (observe : Observer σ) : Observer σ :=
  fun m a => observe { m with counter := p.size + m.counter } a

namespace Store

variable {p q : Program} {c : Nat} {i : Instruction}

/-! ### A step in one of the two parts -/

theorem current?_append_left (hc : c < p.size) (q : Program) (s : Store) :
    (s.within (p ++ q) c).machine.current? = (s.within p c).machine.current? :=
  Program.getElem?_append_of_lt hc

theorem current?_append_right (p q : Program) (c : Nat) (s : Store) :
    (s.within (p ++ q) (p.size + c)).machine.current? = (s.within q c).machine.current? :=
  Program.getElem?_append_add p q c

/-- A step in the first part leads to where it leads in the first program. -/
theorem step_append_left (hp : p.StartsAnswered) (hi : p[c]? = some i) (q : Program)
    (s : Store) : (s.within (p ++ q) c).step =
      match s.carryOut i with
      | .ok () t => .ok () (t.within (p ++ q) (s.land p i c + 1))
      | .error f t => .error f (t.within (p ++ q) c) := by
  have hi' : (p ++ q)[c]? = some i := by
    rwa [Program.getElem?_append_of_lt (Program.lt_size_of_getElem? hi)]
  have hland : s.land (p ++ q) i c = s.land p i c := by
    rw [land, land, Program.target_append_left hp hi]
  have hstep := step_within hi' s
  rw [hland] at hstep
  exact hstep

/-- A step in the second part leads to where it leads in the second program, moved by the size of
the first one. -/
theorem step_append_right (hq : q.EndsAnswered) (hi : q[c]? = some i) (p : Program)
    (s : Store) : (s.within (p ++ q) (p.size + c)).step =
      match s.carryOut i with
      | .ok () t => .ok () (t.within (p ++ q) (p.size + (s.land q i c + 1)))
      | .error f t => .error f (t.within (p ++ q) (p.size + c)) := by
  have hi' : (p ++ q)[p.size + c]? = some i := by rwa [Program.getElem?_append_add]
  have hland : s.land (p ++ q) i (p.size + c) = p.size + s.land q i c := by
    rw [land, land, Program.target_append_right hq hi]
    split <;> rfl
  have hstep := step_within hi' s
  rw [hland] at hstep
  exact hstep

/-! ### A run in one of the two parts -/

/-- **The first part of a run.** As long as the run of the first program alone is not at its end,
the run of both programs goes like it. When it is at its end, the run of both has come to the same
place by the same steps. -/
theorem execute_append_left (hp : p.StartsAnswered) (hc : c ≤ p.size) (q : Program)
    (observe : Observer σ) (fuel : Nat) (notes : σ) (s : Store) :
    (((s.within p c).execute observe fuel notes).session.machine.counter < p.size ∧
      (s.within (p ++ q) c).execute observe fuel notes =
        ((s.within p c).execute observe fuel notes).mapSession (Session.followedBy q)) ∨
    ∃ (m n : Nat) (b : σ) (t : Store), fuel = m + n ∧
      Session.Leads observe m notes (s.within p c) b (t.within p p.size) ∧
      Session.Leads observe m notes (s.within (p ++ q) c) b (t.within (p ++ q) p.size) := by
  -- A step keeps the counter at most the size of `p`, since a jump lands inside `p`.
  induction fuel generalizing c notes s with
  | zero =>
    rcases Nat.eq_or_lt_of_le hc with rfl | hlt
    · exact .inr ⟨0, 0, notes, s, rfl, .refl .., .refl ..⟩
    · have hi : (s.within p c).machine.current? = some p[c] := Array.getElem?_eq_getElem hlt
      have hi' := (current?_append_left hlt q s).trans hi
      refine .inl ?_
      rw [Session.execute_zero hi, Session.execute_zero hi']
      exact ⟨hlt, rfl⟩
  | succ fuel ih =>
    rcases Nat.eq_or_lt_of_le hc with rfl | hlt
    · exact .inr ⟨0, fuel + 1, notes, s, (Nat.zero_add _).symm, .refl .., .refl ..⟩
    · have hpc : p[c]? = some p[c] := Array.getElem?_eq_getElem hlt
      have hi : (s.within p c).machine.current? = some p[c] := hpc
      have hi' := (current?_append_left hlt q s).trans hi
      have hstep := step_within hpc s
      have hstep' := step_append_left hp hpc q s
      rcases ho : observe ((s.within p c).machine.moment p[c]) notes with ⟨_ | _, b⟩
      · have ho' : observe ((s.within (p ++ q) c).machine.moment p[c]) notes = (.proceed, b) := ho
        cases hs : s.carryOut p[c] with
        | ok _ t =>
          rw [hs] at hstep hstep'
          rw [Session.execute_of_step hi ho hstep, Session.execute_of_step hi' ho' hstep']
          refine (ih (land_lt hpc s) b t).imp_right ?_
          rintro ⟨m, n, d, u, rfl, hleads, hleads'⟩
          exact ⟨m + 1, n, d, u, by omega, .step hi ho hstep hleads, .step hi' ho' hstep' hleads'⟩
        | error f t =>
          rw [hs] at hstep hstep'
          refine .inl ?_
          rw [Session.execute_of_fault hi ho hstep, Session.execute_of_fault hi' ho' hstep']
          exact ⟨hlt, rfl⟩
      · have ho' : observe ((s.within (p ++ q) c).machine.moment p[c]) notes = (.abort, b) := ho
        refine .inl ?_
        rw [Session.execute_of_abort hi ho, Session.execute_of_abort hi' ho']
        exact ⟨hlt, rfl⟩

/-- **The second part of a run** goes like the run of the second program, moved by the size of the
first one. -/
theorem execute_append_right (hq : q.EndsAnswered) (p : Program) (c : Nat) (observe : Observer σ)
    (fuel : Nat) (notes : σ) (s : Store) :
    (s.within (p ++ q) (p.size + c)).execute observe fuel notes =
      ((s.within q c).execute (observe.behind p) fuel notes).mapSession (Session.behind p) := by
  induction fuel generalizing c notes s with
  | zero =>
    have hcurrent := current?_append_right p q c s
    cases hi : (s.within q c).machine.current? with
    | none =>
      rw [Session.execute_of_finished hi, Session.execute_of_finished (hcurrent.trans hi),
        finish_within, finish_within]
      rfl
    | some i =>
      rw [Session.execute_zero hi, Session.execute_zero (hcurrent.trans hi)]
      rfl
  | succ fuel ih =>
    have hcurrent := current?_append_right p q c s
    cases hi : (s.within q c).machine.current? with
    | none =>
      rw [Session.execute_of_finished hi, Session.execute_of_finished (hcurrent.trans hi),
        finish_within, finish_within]
      rfl
    | some i =>
      have hqc : q[c]? = some i := hi
      have hi' := hcurrent.trans hi
      have hstep := step_within hqc s
      have hstep' := step_append_right hq hqc p s
      rcases ho : observe.behind p ((s.within q c).machine.moment i) notes with ⟨_ | _, b⟩
      · have ho' : observe ((s.within (p ++ q) (p.size + c)).machine.moment i) notes =
          (.proceed, b) := ho
        cases hs : s.carryOut i with
        | ok _ t =>
          rw [hs] at hstep hstep'
          rw [Session.execute_of_step hi ho hstep, Session.execute_of_step hi' ho' hstep', ih]
        | error f t =>
          rw [hs] at hstep hstep'
          rw [Session.execute_of_fault hi ho hstep, Session.execute_of_fault hi' ho' hstep']
          rfl
      · have ho' : observe ((s.within (p ++ q) (p.size + c)).machine.moment i) notes =
          (.abort, b) := ho
        rw [Session.execute_of_abort hi ho, Session.execute_of_abort hi' ho']
        rfl

/-- **A run of two programs.** Let every loop start of `p` be answered in `p`, and every loop end
of `q` in `q`, and compare the run of `p ++ q` with the run of `p` alone, for any number of
instructions. While the run of `p` has not come to the end of `p`, whether it goes on or was
stopped by a fault or by its observer, the run of both is the same. Once it has come there, by
`m` of the instructions, it is at its end and has only flushed the writer; and the run of both has
gone on without this flush, like a run of `q` with all indices moved by the size of `p`. -/
theorem execute_append (hp : p.StartsAnswered) (hq : q.EndsAnswered) (observe : Observer σ)
    (fuel : Nat) (notes : σ) (s : Store) :
    let alone := (s.within p 0).execute observe fuel notes
    let both := (s.within (p ++ q) 0).execute observe fuel notes
    (alone.session.machine.counter < p.size → both = alone.mapSession (Session.followedBy q)) ∧
    (¬ alone.session.machine.counter < p.size → ∃ (m n : Nat) (b : σ) (t : Store), fuel = m + n ∧
      Session.Leads observe m notes (s.within p 0) b (t.within p p.size) ∧
      alone = (t.within p p.size).finish b ∧
      both = ((t.within q 0).execute (observe.behind p) n b).mapSession (Session.behind p)) := by
  intro alone both
  rcases execute_append_left hp (Nat.zero_le _) q observe fuel notes s with
    ⟨hlt, heq⟩ | ⟨m, n, b, t, rfl, hleads, hleads'⟩
  · exact ⟨fun _ => heq, fun h => absurd hlt h⟩
  · have hend : (t.within p p.size).machine.current? = none :=
      Array.getElem?_eq_none (Nat.le_refl _)
    have halone : alone = (t.within p p.size).finish b := by
      rw [← Session.execute_of_finished hend observe n b]
      exact hleads.execute n
    have hboth : both = ((t.within q 0).execute (observe.behind p) n b).mapSession
        (Session.behind p) := by
      rw [← execute_append_right hq p 0 observe n b t]
      exact hleads'.execute n
    refine ⟨fun h => ?_, fun _ => ⟨m, n, b, t, rfl, hleads, halone, hboth⟩⟩
    rw [halone, finish_within] at h
    exact absurd h (Nat.lt_irrefl _)

/-- Counts a cell up once, and down again in a loop. -/
def upAndDown : Program :=
  #[.change .plus "이구우욱", .loopStart, .change .minus "이구구국", .loopEnd]

/-- A cell is counted up and down twice, in nine instructions of which the last is not needed. -/
theorem execute_append_upAndDown :
    upAndDown.StartsAnswered ∧ upAndDown.EndsAnswered ∧
      ∃ (m n : Nat) (b : Unit) (t : Store), 9 = m + n ∧
        Session.Leads Observer.silent m () (within ⟨Tape.new 1 .error, 0, .utf8, {}⟩ upAndDown 0) b
          (t.within upAndDown 4) ∧
        (within ⟨Tape.new 1 .error, 0, .utf8, {}⟩ upAndDown 0).execute Observer.silent 9 () =
          (t.within upAndDown 4).finish b ∧
        (within ⟨Tape.new 1 .error, 0, .utf8, {}⟩ (upAndDown ++ upAndDown) 0).execute
            Observer.silent 9 () =
          ((t.within upAndDown 0).execute (Observer.behind upAndDown Observer.silent) n
            b).mapSession (Session.behind upAndDown) :=
  ⟨by decide, by decide,
    (execute_append (by decide) (by decide) Observer.silent 9 ()
      ⟨Tape.new 1 .error, 0, .utf8, {}⟩).2 (Nat.lt_irrefl 4)⟩

end Store

end PhraseTape
