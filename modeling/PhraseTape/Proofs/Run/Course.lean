import PhraseTape.Run.Execute

/-!
# The course of a run

A run is computed for a number of instructions given in advance. Two relations say where it goes
without that number standing in the way: `Course` follows a run over instructions that all succeed,
and `Ends` follows it to its end. A run ends in a given way exactly when it is computed to that end
for some number of instructions.

A course lists its instructions, and what it lists of each is left open. Every statement about a
part of a run is a statement about some course: about the moments of the instructions, their
number, the sessions in between, or the cells that they store.

## Main definitions

* `Report.mapSession` : what a run left, with its session changed.
* `Session.Course` : a part of a run in which every instruction is let through and succeeds.
* `Session.Passes`, `Session.Leads` : the same with the moments of its instructions, and with their
  number.
* `Session.Ends` : a run with its end.

## Main results

* `Session.Course.leads`, `Session.Course.invariant` : the number of instructions of a part of a
  run, and what is kept by all of them.
* `Session.Leads.execute` : a run goes on from every place to which it leads.
* `Session.ends_iff_execute` : the end of a run and its computation.
-/

namespace PhraseTape

variable {σ τ : Type}

/-- What a run left, with its session changed. -/
def Report.mapSession (f : Session → Session) (r : Report σ) : Report σ :=
  { r with session := f r.session }

/-- The answer of an observer that never stops a run. -/
theorem Observer.eq_proceed {observe : Observer σ} (h : ∀ m a, (observe m a).1 = .proceed)
    (m : Moment) (a : σ) : observe m a = (.proceed, (observe m a).2) :=
  Prod.ext (h m a) rfl

namespace Session

/-- The run from `s` with the notes `a` comes to `t` with the notes `b` by instructions that are each
let through by the observer and carried out without a fault. The list has an entry for each of
them, made of the notes and the session before it, the instruction, and the session behind it. -/
inductive Course (observe : Observer σ) (entry : σ → Session → Instruction → Session → τ) :
    List τ → σ → Session → σ → Session → Prop
  | refl (a : σ) (s : Session) : Course observe entry [] a s a s
  | step {entries : List τ} {a b c : σ} {s t u : Session} {i : Instruction}
      (hi : s.machine.current? = some i) (ho : observe (s.machine.moment i) a = (.proceed, b))
      (hs : s.step = .ok () t) (h : Course observe entry entries b t c u) :
      Course observe entry (entry a s i t :: entries) a s c u

/-- The run from `s` with the notes `a` comes to `t` with the notes `b` by instructions with the
moments `ms`, each let through by the observer and carried out without a fault. -/
def Passes (observe : Observer σ) : List Moment → σ → Session → σ → Session → Prop :=
  Course observe fun _ s i _ => s.machine.moment i

/-- The run from `s` with the notes `a` comes to `t` with the notes `b` by `n` instructions, each
let through by the observer and carried out without a fault. -/
def Leads (observe : Observer σ) (n : Nat) (a : σ) (s : Session) (b : σ) (t : Session) : Prop :=
  ∃ ms, ms.length = n ∧ Passes observe ms a s b t

/-- The run from `s` with the notes `a` ends with the result `r`, the notes `b` and the session
`t`: the program is at its end and everything is flushed, or the observer stops the run, or an
instruction fails. -/
inductive Ends (observe : Observer σ) : σ → Session → Except Fault Unit → σ → Session → Prop
  | finish {a : σ} {s t : Session} {r : Except Fault Unit} (hi : s.machine.current? = none)
      (hs : s.finish a = ⟨.stopped r, a, t⟩) : Ends observe a s r a t
  | abort {a b : σ} {s : Session} {i : Instruction} (hi : s.machine.current? = some i)
      (ho : observe (s.machine.moment i) a = (.abort, b)) :
      Ends observe a s (.error .aborted) b s
  | fault {a b : σ} {s t : Session} {i : Instruction} {f : Fault}
      (hi : s.machine.current? = some i) (ho : observe (s.machine.moment i) a = (.proceed, b))
      (hs : s.step = .error f t) : Ends observe a s (.error f) b t
  | step {a b c : σ} {s t u : Session} {i : Instruction} {r : Except Fault Unit}
      (hi : s.machine.current? = some i) (ho : observe (s.machine.moment i) a = (.proceed, b))
      (hs : s.step = .ok () t) (h : Ends observe b t r c u) : Ends observe a s r c u

variable {observe : Observer σ}

/-! ### Runs, one instruction at a time -/

/-- A step carries out the instruction at the counter and goes on behind it. -/
theorem step_of_current? {s : Session} {i : Instruction} (hi : s.machine.current? = some i) :
    s.step =
      match s.perform i with
      | .ok () t => .ok () t.advance
      | .error f t => .error f t := by
  cases hp : s.perform i <;> simp only [step, dispatch_of_current? hi, hp]

/-- A step that succeeds is an instruction that succeeds. -/
theorem perform_of_step_ok {s t : Session} {i : Instruction} (hi : s.machine.current? = some i)
    (h : s.step = .ok () t) : ∃ u, s.perform i = .ok () u ∧ t = u.advance := by
  rw [step_of_current? hi] at h
  cases hp : s.perform i with
  | ok _ u =>
    rw [hp] at h
    cases h
    exact ⟨u, rfl, rfl⟩
  | error f u =>
    rw [hp] at h
    cases h

/-- A step that fails is an instruction that fails. -/
theorem perform_of_step_error {s t : Session} {i : Instruction} {f : Fault}
    (hi : s.machine.current? = some i) (h : s.step = .error f t) : s.perform i = .error f t := by
  rw [step_of_current? hi] at h
  cases hp : s.perform i with
  | ok _ u =>
    rw [hp] at h
    cases h
  | error g u =>
    rw [hp] at h
    cases h
    rfl

theorem SameSetting.of_step {s t : Session} (h : s.step = .ok () t) : SameSetting s t := by
  have hsame := sameSetting_step s
  rwa [h] at hsame

/-- One instruction more at the front of a run. -/
theorem execute_of_step {a b : σ} {s t : Session} {i : Instruction}
    (hi : s.machine.current? = some i) (ho : observe (s.machine.moment i) a = (.proceed, b))
    (hs : s.step = .ok () t) (n : Nat) :
    s.execute observe (n + 1) a = t.execute observe n b := by
  rw [execute_succ hi, ho]
  simp only [hs]

/-- A run that its observer stops. -/
theorem execute_of_abort {a b : σ} {s : Session} {i : Instruction}
    (hi : s.machine.current? = some i) (ho : observe (s.machine.moment i) a = (.abort, b))
    (n : Nat) : s.execute observe (n + 1) a = ⟨.stopped (.error .aborted), b, s⟩ := by
  rw [execute_succ hi, ho]

/-- A run that is stopped by a fault. -/
theorem execute_of_fault {a b : σ} {s t : Session} {i : Instruction} {f : Fault}
    (hi : s.machine.current? = some i) (ho : observe (s.machine.moment i) a = (.proceed, b))
    (hs : s.step = .error f t) (n : Nat) :
    s.execute observe (n + 1) a = ⟨.stopped (.error f), b, t⟩ := by
  rw [execute_succ hi, ho]
  simp only [hs]

/-! ### Parts of a run -/

theorem Leads.refl (a : σ) (s : Session) : Leads observe 0 a s a s :=
  ⟨[], rfl, .refl a s⟩

theorem Leads.step {n : Nat} {a b c : σ} {s t u : Session} {i : Instruction}
    (hi : s.machine.current? = some i) (ho : observe (s.machine.moment i) a = (.proceed, b))
    (hs : s.step = .ok () t) (h : Leads observe n b t c u) : Leads observe (n + 1) a s c u := by
  obtain ⟨ms, rfl, hpasses⟩ := h
  exact ⟨s.machine.moment i :: ms, rfl, .step hi ho hs hpasses⟩

section

variable {entry : σ → Session → Instruction → Session → τ} {entries : List τ} {a b : σ}
  {s t : Session}

/-- A part of a run leads to its end, whatever is listed of its instructions. -/
theorem Course.leads (h : Course observe entry entries a s b t) :
    Leads observe entries.length a s b t := by
  induction h with
  | refl a s => exact .refl a s
  | step hi ho hs _ ih => exact .step hi ho hs ih

/-- What every step keeps is kept in the course of a run. -/
theorem Course.invariant {P : Session → Prop} (h : Course observe entry entries a s b t)
    (hstep : ∀ {s t : Session} {i : Instruction}, s.machine.current? = some i →
      s.step = .ok () t → P s → P t) (hs : P s) : P t := by
  induction h with
  | refl a s => exact hs
  | step hi _ hst _ ih => exact ih (hstep hi hst hs)

end

/-- A run goes on from every place to which it leads. -/
theorem Leads.execute {n : Nat} {a b : σ} {s t : Session} (h : Leads observe n a s b t)
    (m : Nat) : s.execute observe (n + m) a = t.execute observe m b := by
  obtain ⟨ms, rfl, hpasses⟩ := h
  induction hpasses with
  | refl a s => rw [List.length_nil, Nat.zero_add]
  | step hi ho hs _ ih =>
    rw [List.length_cons, Nat.add_right_comm, execute_of_step hi ho hs, ih]

/-! ### The end of a run -/

/-- A run that ends is computed to its end. -/
theorem Ends.execute {a b : σ} {s t : Session} {r : Except Fault Unit}
    (h : Ends observe a s r b t) : ∃ n, s.execute observe n a = ⟨.stopped r, b, t⟩ := by
  induction h with
  | finish hi hs => exact ⟨0, by rw [execute_of_finished hi, hs]⟩
  | abort hi ho => exact ⟨1, execute_of_abort hi ho 0⟩
  | fault hi ho hs => exact ⟨1, execute_of_fault hi ho hs 0⟩
  | step hi ho hs _ ih =>
    obtain ⟨n, hn⟩ := ih
    exact ⟨n + 1, by rw [execute_of_step hi ho hs, hn]⟩

/-- A finished session ends by the flush. -/
theorem ends_of_finish {a b : σ} {s t : Session} {r : Except Fault Unit}
    (hi : s.machine.current? = none) (h : s.finish a = ⟨.stopped r, b, t⟩) :
    Ends observe a s r b t := by
  obtain ⟨_, _, hf⟩ := s.finish_eq a
  obtain ⟨-, rfl, -⟩ := Report.mk.inj (hf.symm.trans h)
  exact .finish hi h

/-- What is computed for a run that stopped is its end. -/
theorem ends_of_execute {n : Nat} {a b : σ} {s t : Session} {r : Except Fault Unit}
    (h : s.execute observe n a = ⟨.stopped r, b, t⟩) : Ends observe a s r b t := by
  induction n generalizing a s with
  | zero =>
    cases hi : s.machine.current? with
    | none => exact ends_of_finish hi (execute_of_finished hi observe 0 a ▸ h)
    | some i =>
      rw [execute_zero hi] at h
      cases h
  | succ n ih =>
    cases hi : s.machine.current? with
    | none => exact ends_of_finish hi (execute_of_finished hi observe (n + 1) a ▸ h)
    | some i =>
      rw [execute_succ hi] at h
      rcases ho : observe (s.machine.moment i) a with ⟨_ | _, c⟩
      · simp only [ho] at h
        cases hs : s.step with
        | ok _ u =>
          simp only [hs] at h
          exact .step hi ho hs (ih h)
        | error f u =>
          simp only [hs] at h
          cases h
          exact .fault hi ho hs
      · simp only [ho] at h
        cases h
        exact .abort hi ho

/-- A run ends in a given way exactly when it is computed to that end for some number of
instructions. -/
theorem ends_iff_execute {a b : σ} {s t : Session} {r : Except Fault Unit} :
    Ends observe a s r b t ↔ ∃ n, s.execute observe n a = ⟨.stopped r, b, t⟩ :=
  ⟨Ends.execute, fun ⟨_, h⟩ => ends_of_execute h⟩

/-- A run has only one end. -/
theorem Ends.unique {a b c : σ} {s t u : Session} {r q : Except Fault Unit}
    (h : Ends observe a s r b t) (h' : Ends observe a s q c u) : q = r ∧ c = b ∧ u = t := by
  obtain ⟨m, hm⟩ := h.execute
  obtain ⟨n, hn⟩ := h'.execute
  have hmn := execute_add observe m n a s
  have hnm := execute_add observe n m a s
  rw [hm] at hmn
  rw [hn, Nat.add_comm n m, hmn] at hnm
  cases hnm
  exact ⟨rfl, rfl, rfl⟩

end Session

end PhraseTape
