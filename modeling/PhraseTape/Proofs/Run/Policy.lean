import PhraseTape.Proofs.Run.Access

/-!
# Checked and circular tapes

A run on a tape that refuses addresses outside it, and the run of the same program on the same
cells closed to a circle, are the same run as long as no instruction uses a cell while the pointer
is outside. The first instruction of the circular run that does so is where the checked run fails,
and the side of the tape on which the pointer lies is the fault. Moving the pointer uses no cell.

## Main definitions

* `Session.withPolicy` : a session with another policy.
* `Session.StraysAfter` : the first instruction of a run that uses a cell outside the tape.
* `Observer.blind` : an observer that is not shown the policy.

## Main results

* `Session.step_withPolicy` : an instruction that does not stray does the same under each policy.
* `Session.step_error_of_strays` : an instruction that strays fails where addresses are checked.
* `Session.lockstep_withPolicy`, `Session.strays_or_alike` : a run that does not stray is the same
  under each policy.
* `Session.execute_policies_agree` : the two runs, compared.
-/

namespace PhraseTape

variable {σ : Type}

/-- The tape with the same cells and another policy. -/
def Tape.withPolicy (p : PointerPolicy) (t : Tape) : Tape :=
  { t with policy := p }

/-- The address lies on the tape, as it is. -/
def Tape.Inside (t : Tape) (a : Address) : Prop :=
  0 ≤ a.toInt ∧ a.toInt < t.size

/-- The address lies outside the tape, on the side that the error names. -/
def Tape.Outside (t : Tape) (a : Address) (e : AddressError) : Prop :=
  e = .beforeStart ∧ a.toInt < 0 ∨ e = .pastEnd ∧ (t.size : Int) ≤ a.toInt

/-- The observer that is shown every tape as if its addresses were checked. An observer whose
answers do not depend on the policy is unchanged. -/
def Observer.blind (observe : Observer σ) : Observer σ :=
  fun m a => observe { m with tape := m.tape.withPolicy .error } a

namespace Session

/-- The session with the same cells and another policy. -/
def withPolicy (p : PointerPolicy) (s : Session) : Session :=
  { s with machine := { s.machine with tape := s.machine.tape.withPolicy p } }

/-- The next instruction of a run is let through, and comes to use a cell while the pointer is
outside the tape, on the side that the error names. -/
def Strays (observe : Observer σ) (a : σ) (s : Session) (e : AddressError) : Prop :=
  ∃ i b, s.machine.current? = some i ∧ observe (s.machine.moment i) a = (.proceed, b) ∧
    s.Accesses i ∧ s.machine.tape.Outside s.machine.pointer e

/-- In the run from `s` with the notes `a`, `n` instructions succeed and do not stray, and the next
one strays. -/
def StraysAfter (observe : Observer σ) (n : Nat) (a : σ) (s : Session) (e : AddressError) : Prop :=
  ∃ b t, LeadsWhile observe (fun a u => ∀ e, ¬ u.Strays observe a e) n a s b t ∧
    t.Strays observe b e

end Session

/-! ### Addresses -/

namespace Tape

variable {t : Tape} {a : Address}

theorem inside_or_outside (t : Tape) (a : Address) : t.Inside a ∨ ∃ e, t.Outside a e := by
  by_cases hneg : a.toInt < 0
  · exact .inr ⟨.beforeStart, .inl ⟨rfl, hneg⟩⟩
  · by_cases hlt : a.toInt < t.size
    · exact .inl ⟨by omega, hlt⟩
    · exact .inr ⟨.pastEnd, .inr ⟨rfl, by omega⟩⟩

/-- Inside the tape an address names the cell of its own index, under each policy. -/
theorem resolve_of_inside (h : t.Inside a) : t.resolve a = .ok a.toInt.toNat := by
  cases hp : t.policy with
  | error => exact resolve_error_of_inside hp h.1 h.2
  | wrap => rw [resolve_wrap hp, Int.emod_eq_of_lt h.1 h.2]

theorem resolve_of_outside {e : AddressError} (h : t.Outside a e) :
    (t.withPolicy .error).resolve a = .error e :=
  resolve_eq_error_iff.2 ⟨rfl, h⟩

end Tape

namespace Session

variable {s t : Session} {i : Instruction} {observe : Observer σ} {e : AddressError}

/-! ### One step -/

/-- Inside the tape the pointer names the same cell under each policy. -/
theorem sameAt_withPolicy (h : s.machine.tape.Inside s.machine.pointer) (p : PointerPolicy) :
    Tape.SameAt (Tape.withPolicy p) s.machine.tape s.machine.pointer where
  resolve := by
    have hp : (s.machine.tape.withPolicy p).Inside s.machine.pointer := h
    rw [Tape.resolve_of_inside h, Tape.resolve_of_inside hp]
  cell _ := rfl
  put _ _ := rfl

/-- A step that does not use a cell outside the tape is the same under each policy. -/
theorem step_withPolicy (hi : s.machine.current? = some i)
    (h : s.Accesses i → s.machine.tape.Inside s.machine.pointer) (p : PointerPolicy) :
    (s.withPolicy p).step = s.step.mapSession (withPolicy p) :=
  step_mapTape hi fun ha => sameAt_withPolicy (h ha) p

/-- **A step that strays** fails where addresses are checked, and the machine stays as it is. -/
theorem step_error_of_strays {a : σ} (h : s.Strays observe a e) :
    ∃ c, (s.withPolicy .error).step = .error (.address e) ⟨(s.withPolicy .error).machine, c⟩ := by
  obtain ⟨i, b, hi, -, ha, hout⟩ := h
  exact step_error_of_resolve (s := s.withPolicy .error) hi (by cases i <;> exact ha)
    (Tape.resolve_of_outside hout)

/-! ### Two runs -/

/-- An instruction that is let through and does not stray uses no cell outside the tape. -/
theorem inside_of_not_strays {a b : σ} (hi : s.machine.current? = some i)
    (ho : observe (s.machine.moment i) a = (.proceed, b)) (h : ∀ e, ¬ s.Strays observe a e) :
    s.Accesses i → s.machine.tape.Inside s.machine.pointer := by
  intro ha
  refine (s.machine.tape.inside_or_outside s.machine.pointer).resolve_right ?_
  rintro ⟨e, hout⟩
  exact h e ⟨i, b, hi, ho, ha, hout⟩

/-- As long as a run does not stray, it goes in lockstep with the run under another policy. -/
theorem lockstep_withPolicy (p : PointerPolicy) (observe : Observer σ) :
    Lockstep observe.blind observe.blind (fun u v => v = u.withPolicy p)
      fun a u => ∀ e, ¬ u.Strays observe.blind a e where
  current := by
    rintro s t rfl
    rfl
  verdict := by
    rintro s t i a rfl -
    rfl
  step := by
    rintro s t i a b rfl hi ho hq
    rw [step_withPolicy hi (inside_of_not_strays hi ho hq)]
    exact Outcome.alike_mapSession (withPolicy p) s.step
  finish := by
    rintro s t a rfl
    obtain ⟨m, c⟩ := s
    simp only [finish, withPolicy]
    cases c.flush <;> exact ⟨rfl, rfl, rfl⟩

/-- The part of a run before it strays is the same under each policy. -/
theorem LeadsWhile.withPolicy {n : Nat} {a b : σ}
    (h : LeadsWhile observe.blind (fun a u => ∀ e, ¬ u.Strays observe.blind a e) n a s b t)
    (p : PointerPolicy) : Leads observe.blind n a (s.withPolicy p) b (t.withPolicy p) := by
  obtain ⟨places, rfl, hcourse, hplaces⟩ := h
  induction hcourse with
  | refl a s => exact .refl a _
  | @step places a b c s t u i hi ho hs _ ih =>
    obtain ⟨hq, hplaces⟩ := List.forall_mem_cons.1 hplaces
    have hs' : (s.withPolicy p).step = .ok () (t.withPolicy p) := by
      rw [step_withPolicy hi (inside_of_not_strays hi ho hq), hs]
      rfl
    exact .step (s := s.withPolicy p) hi ho hs' (ih hplaces)

/-- A run that strays fails there where addresses are checked. -/
theorem StraysAfter.execute_status {n fuel : Nat} {a : σ}
    (h : StraysAfter observe.blind n a s e) (hn : n < fuel) :
    ((s.withPolicy .error).execute observe.blind fuel a).status =
      .stopped (.error (.address e)) := by
  obtain ⟨m, rfl⟩ := Nat.exists_eq_add_of_lt hn
  obtain ⟨b, t, hleads, hstrays⟩ := h
  obtain ⟨c, hstep⟩ := step_error_of_strays hstrays
  obtain ⟨i, d, hi, ho, -, -⟩ := hstrays
  have ho' : observe.blind ((t.withPolicy .error).machine.moment i) b = (.proceed, d) := ho
  rw [Nat.add_assoc, (hleads.withPolicy .error).execute,
    execute_of_fault (s := t.withPolicy .error) hi ho' hstep]

/-- A run on a circle never fails because of the pointer. -/
theorem Ends.ne_address_of_wrap {a b : σ} {r : Except Fault Unit} (h : Ends observe a s r b t)
    (hp : s.machine.tape.policy = .wrap) : r ≠ .error (.address e) := by
  induction h with
  | @finish a s t r hi hs =>
    obtain ⟨m, c⟩ := s
    rintro rfl
    rw [Session.finish] at hs
    split at hs <;> cases hs
  | abort => nofun
  | @fault a b s t i f hi ho hs =>
    rintro ⟨⟩
    obtain ⟨-, hr⟩ := accesses_of_step_error hi hs
    exact absurd ((Tape.resolve_eq_error_iff.1 hr).1.symm.trans hp) nofun
  | @step a b c s t u i r hi ho hs _ ih =>
    exact ih ((SameSetting.of_step hs).policy.trans hp)

theorem execute_wrap_ne_address (hp : s.machine.tape.policy = .wrap) (fuel : Nat) (a : σ)
    (e : AddressError) : (s.execute observe fuel a).status ≠ .stopped (.error (.address e)) := by
  intro h
  generalize hrun : s.execute observe fuel a = r at h
  obtain ⟨st, b, t⟩ := r
  obtain rfl : st = _ := h
  exact (ends_of_execute hrun).ne_address_of_wrap hp rfl

/-- A run strays, or it is the same under another policy. -/
theorem strays_or_alike (p : PointerPolicy) (observe : Observer σ) (fuel : Nat) (a : σ)
    (s : Session) :
    (∃ n < fuel, ∃ e, StraysAfter observe.blind n a s e) ∨
      Report.Alike (fun u v => v = u.withPolicy p) (s.execute observe.blind fuel a)
        ((s.withPolicy p).execute observe.blind fuel a) := by
  refine ((lockstep_withPolicy p observe).execute rfl fuel a).imp_left ?_
  rintro ⟨n, hn, b, u, h, hu⟩
  obtain ⟨e, he⟩ := Classical.not_forall_not.1 hu
  exact ⟨n, hn, e, b, u, h, he⟩

/-- **Two policies.** Let a session run, under the eyes of an observer that is not shown the policy,
on a tape on which addresses are checked and on the same cells closed to a circle. For every number
of instructions the two runs leave the same status, the same notes and the same session, up to the
policy, unless the checked run has failed because of the pointer. It fails so exactly when an
instruction of the circular run uses a cell while the pointer is outside the tape, and fails at the
first one that does, with the error for the side of the tape. Moves of the pointer never fail. -/
theorem execute_policies_agree (observe : Observer σ) (fuel : Nat) (a : σ) (s : Session) :
    let checked := (s.withPolicy .error).execute observe.blind fuel a
    let circular := (s.withPolicy .wrap).execute observe.blind fuel a
    ((∀ e, checked.status ≠ .stopped (.error (.address e))) →
      circular = checked.mapSession (withPolicy .wrap)) ∧
    (∀ e, checked.status = .stopped (.error (.address e)) ↔
      ∃ n < fuel, StraysAfter observe.blind n a (s.withPolicy .wrap) e) ∧
    ∀ t : Session, t.machine.current? = some .right ∨ t.machine.current? = some .left →
      ∃ u, t.step = .ok () u := by
  refine ⟨fun hne => ?_, fun e => ⟨fun hstatus => ?_, ?_⟩, fun t ht => ?_⟩
  · rcases strays_or_alike .wrap observe fuel a (s.withPolicy .error) with ⟨n, hn, e, h⟩ | h
    · exact absurd (h.execute_status hn) (hne e)
    · exact h.eq_mapSession
  · rcases strays_or_alike .error observe fuel a (s.withPolicy .wrap) with ⟨n, hn, e', h⟩ | h
    · have heq := (h.execute_status hn).symm.trans hstatus
      obtain rfl : e' = e := by simpa using heq
      exact ⟨n, hn, h⟩
    · exact absurd (h.status.symm.trans hstatus) (execute_wrap_ne_address rfl fuel a e)
  · rintro ⟨n, hn, h⟩
    exact h.execute_status hn
  · rcases ht with hi | hi
    · exact ⟨_, by rw [step_of_current? hi]; rfl⟩
    · exact ⟨_, by rw [step_of_current? hi]; rfl⟩

end Session

end PhraseTape
