import PhraseTape.Proofs.Run.Course

/-!
# Two runs in lockstep

Two runs of related sessions stay related as long as every step keeps them so. Where the relation
can be lost there is a condition on the way: either the runs stay related to their ends, or the
first of them comes, by steps under the condition, to a session for which it fails.

## Main definitions

* `Outcome.Alike`, `Report.Alike` : two actions, and two runs, with the same result.
* `Session.Lockstep` : a relation between sessions that every step keeps under a condition.
* `Session.LeadsWhile` : a part of a run under a condition.

## Main results

* `Session.Lockstep.execute` : two runs of related sessions.
* `Session.Lockstep.execute_alike` : the same without a condition.
-/

namespace PhraseTape

variable {σ : Type}

/-- What an action leaves, with its session changed. -/
def Outcome.mapSession (f : Session → Session) : Outcome → Outcome
  | .ok () s => .ok () (f s)
  | .error e s => .error e (f s)

/-- Two actions fail alike or succeed alike, and leave related sessions. -/
def Outcome.Alike (R : Session → Session → Prop) : Outcome → Outcome → Prop
  | .ok () s, .ok () t => R s t
  | .error f s, .error g t => g = f ∧ R s t
  | _, _ => False

/-- Two runs come equally far with the same notes, and leave related sessions. -/
structure Report.Alike (R : Session → Session → Prop) (r q : Report σ) : Prop where
  status : q.status = r.status
  notes : q.notes = r.notes
  session : R r.session q.session

theorem Outcome.Alike.mono {R S : Session → Session → Prop} (h : ∀ s t, R s t → S s t)
    {o o' : Outcome} (ho : Alike R o o') : Alike S o o' := by
  match o, o', ho with
  | .ok () s, .ok () t, ho => exact h s t ho
  | .error f s, .error g t, ho => exact ⟨ho.1, h s t ho.2⟩

theorem Outcome.Alike.of_ok {R : Session → Session → Prop} {s : Session} {o : Outcome}
    (h : Alike R (.ok () s) o) : ∃ t, o = .ok () t ∧ R s t := by
  match o, h with
  | .ok () t, h => exact ⟨t, rfl, h⟩

theorem Outcome.Alike.of_error {R : Session → Session → Prop} {f : Fault} {s : Session}
    {o : Outcome} (h : Alike R (.error f s) o) : ∃ t, o = .error f t ∧ R s t := by
  match o, h with
  | .error g t, h => exact ⟨t, by rw [h.1], h.2⟩

/-- An action whose session is changed afterwards is alike. -/
theorem Outcome.alike_mapSession (f : Session → Session) (o : Outcome) :
    Alike (fun s t => t = f s) o (o.mapSession f) := by
  match o with
  | .ok () s => rfl
  | .error e s => exact ⟨rfl, rfl⟩

theorem Report.Alike.eq_mapSession {f : Session → Session} {r q : Report σ}
    (h : Alike (fun s t => t = f s) r q) : q = r.mapSession f := by
  obtain ⟨status, notes, session⟩ := q
  obtain ⟨rfl, rfl, rfl⟩ := h
  rfl

namespace Session

/-- A relation between sessions that two runs keep: related sessions are at the same instruction,
their observers answer alike, and a step under the condition `Q` and the flush at the end leave
related sessions. -/
structure Lockstep (observe observe' : Observer σ) (R : Session → Session → Prop)
    (Q : σ → Session → Prop) : Prop where
  current : ∀ {s t : Session}, R s t → t.machine.current? = s.machine.current?
  verdict : ∀ {s t : Session} {i : Instruction} (a : σ), R s t → s.machine.current? = some i →
    observe' (t.machine.moment i) a = observe (s.machine.moment i) a
  step : ∀ {s t : Session} {i : Instruction} {a b : σ}, R s t → s.machine.current? = some i →
    observe (s.machine.moment i) a = (.proceed, b) → Q a s → Outcome.Alike R s.step t.step
  finish : ∀ {s t : Session} (a : σ), R s t → Report.Alike R (s.finish a) (t.finish a)

/-- The run from `s` with the notes `a` comes to `t` with the notes `b` by `n` instructions, each
let through by the observer and carried out without a fault, and `Q` holds of the notes and the
session before each. -/
def LeadsWhile (observe : Observer σ) (Q : σ → Session → Prop) (n : Nat) (a : σ) (s : Session)
    (b : σ) (t : Session) : Prop :=
  ∃ places : List (σ × Session), places.length = n ∧
    Course observe (fun a s _ _ => (a, s)) places a s b t ∧ ∀ p ∈ places, Q p.1 p.2

variable {observe observe' : Observer σ} {R : Session → Session → Prop} {Q : σ → Session → Prop}
  {s t : Session} {i : Instruction}

/-- A step is alike if its instruction is, and if related sessions advance alike. -/
theorem alike_step (hi : s.machine.current? = some i) (hi' : t.machine.current? = some i)
    (hadvance : ∀ u v, R u v → R u.advance v.advance)
    (h : Outcome.Alike R (s.perform i) (t.perform i)) : Outcome.Alike R s.step t.step := by
  rw [step_of_current? hi, step_of_current? hi']
  match s.perform i, t.perform i, h with
  | .ok () u, .ok () v, h => exact hadvance u v h
  | .error f u, .error g v, h => exact h

theorem LeadsWhile.refl (a : σ) (s : Session) : LeadsWhile observe Q 0 a s a s :=
  ⟨[], rfl, .refl a s, nofun⟩

theorem LeadsWhile.step {n : Nat} {a b c : σ} {u : Session} (hi : s.machine.current? = some i)
    (ho : observe (s.machine.moment i) a = (.proceed, b)) (hq : Q a s) (hs : s.step = .ok () t)
    (h : LeadsWhile observe Q n b t c u) : LeadsWhile observe Q (n + 1) a s c u := by
  obtain ⟨places, rfl, hcourse, hplaces⟩ := h
  exact ⟨(a, s) :: places, rfl, .step hi ho hs hcourse, List.forall_mem_cons.2 ⟨hq, hplaces⟩⟩

theorem Lockstep.execute_of_finished (h : Lockstep observe observe' R Q) (hst : R s t)
    (hi : s.machine.current? = none) (fuel : Nat) (a : σ) :
    Report.Alike R (s.execute observe fuel a) (t.execute observe' fuel a) := by
  have hi' : t.machine.current? = none := (h.current hst).trans hi
  rw [Session.execute_of_finished hi, Session.execute_of_finished hi']
  exact h.finish a hst

/-- **Two runs of related sessions** are alike, or the first of them comes within its number of
instructions to a session that does not meet the condition. -/
theorem Lockstep.execute (h : Lockstep observe observe' R Q) (hst : R s t) (fuel : Nat) (a : σ) :
    (∃ n < fuel, ∃ b u, LeadsWhile observe Q n a s b u ∧ ¬ Q b u) ∨
      Report.Alike R (s.execute observe fuel a) (t.execute observe' fuel a) := by
  induction fuel generalizing a s t with
  | zero =>
    cases hi : s.machine.current? with
    | none => exact .inr (h.execute_of_finished hst hi 0 a)
    | some i =>
      rw [execute_zero hi, execute_zero ((h.current hst).trans hi)]
      exact .inr ⟨rfl, rfl, hst⟩
  | succ fuel ih =>
    cases hi : s.machine.current? with
    | none => exact .inr (h.execute_of_finished hst hi (fuel + 1) a)
    | some i =>
      have hi' : t.machine.current? = some i := (h.current hst).trans hi
      have hverdict := h.verdict a hst hi
      -- The condition is asked for only where the observer lets the instruction through.
      rcases ho : observe (s.machine.moment i) a with ⟨_ | _, b⟩
      · by_cases hq : Q a s
        · have hstep := h.step hst hi ho hq
          rw [ho] at hverdict
          match hs : s.step, ht : t.step, hstep with
          | .ok () u, .ok () v, hstep =>
            rw [execute_of_step hi ho hs, execute_of_step hi' hverdict ht]
            refine (ih hstep b).imp_left ?_
            rintro ⟨n, hn, c, w, hleads, hw⟩
            exact ⟨n + 1, by omega, c, w, .step hi ho hq hs hleads, hw⟩
          | .error f u, .error g v, hstep =>
            rw [execute_of_fault hi ho hs, execute_of_fault hi' hverdict ht, hstep.1]
            exact .inr ⟨rfl, rfl, hstep.2⟩
        · exact .inl ⟨0, Nat.succ_pos fuel, a, s, .refl a s, hq⟩
      · rw [ho] at hverdict
        rw [execute_of_abort hi ho, execute_of_abort hi' hverdict]
        exact .inr ⟨rfl, rfl, hst⟩

/-- Two runs of related sessions are alike if no condition has to be met. -/
theorem Lockstep.execute_alike (h : Lockstep observe observe' R fun _ _ => True) (hst : R s t)
    (fuel : Nat) (a : σ) :
    Report.Alike R (s.execute observe fuel a) (t.execute observe' fuel a) := by
  refine (h.execute hst fuel a).resolve_left ?_
  rintro ⟨n, -, b, u, -, hu⟩
  exact hu trivial

end Session

end PhraseTape
