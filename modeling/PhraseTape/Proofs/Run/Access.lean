import PhraseTape.Proofs.Run.Lockstep

/-!
# How instructions use the tape

An instruction uses at most one cell of the tape, the one under the pointer. A tape may be exchanged
for another one where the pointer names the same cell: an instruction that uses the cell does the
same on both, and an instruction that does not use it does the same on all tapes. If the pointer
names no cell, an instruction that would use it fails, and no other one fails because of the
pointer.

## Main definitions

* `Session.Accesses` : whether an instruction comes to use the cell under the pointer.
* `Session.mapTape` : a session with another tape.
* `Tape.SameAt` : a tape and the one made of it are the same at an address.

## Main results

* `Session.step_mapTape` : a step on two tapes that are the same under the pointer.
* `Session.accesses_of_step_error`, `Session.perform_error_of_resolve` : which instructions fail
  because of the pointer.
-/

namespace PhraseTape

/-- At the address `a` the tape `t` and the tape `f t` have the same cell or the same error, and
what is written to the cell is written to both. -/
structure Tape.SameAt (f : Tape → Tape) (t : Tape) (a : Address) : Prop where
  resolve : (f t).resolve a = t.resolve a
  cell : ∀ {i : Nat}, t.resolve a = .ok i → (f t).cell i = t.cell i
  put : ∀ {i : Nat} (v : Cell), t.resolve a = .ok i → (f t).put i v = f (t.put i v)

namespace Session

/-- The session with its tape changed. -/
def mapTape (f : Tape → Tape) (s : Session) : Session :=
  { s with machine := { s.machine with tape := f s.machine.tape } }

/-- Whether the instruction `i` comes to use the cell under the pointer. Moves never do, and a line
is stored only when the flush before it and its reading have succeeded. -/
def Accesses (i : Instruction) (s : Session) : Prop :=
  match i with
  | .right => False
  | .left => False
  | .read => ∃ c line d, s.console.flush = .ok () c ∧ c.readLine = .ok line d
  | _ => True

end Session

namespace Tape

variable {f : Tape → Tape} {t : Tape} {a : Address}

theorem SameAt.get (h : SameAt f t a) : (f t).get a = t.get a := by
  rw [Tape.get, Tape.get, h.resolve]
  cases hr : t.resolve a with
  | error e => rfl
  | ok i => exact congrArg Except.ok (h.cell hr)

theorem SameAt.bump (h : SameAt f t a) {i : Nat} (hr : t.resolve a = .ok i) (d : Cell) :
    (f t).bump i d = f (t.bump i d) := by
  rw [bump_eq_put, bump_eq_put, h.cell hr, h.put _ hr]

end Tape

namespace Session

variable {f : Tape → Tape} {s t : Session} {i : Instruction} {e : AddressError}

/-! ### The same instruction on two tapes -/

theorem addCell_mapTape (h : Tape.SameAt f s.machine.tape s.machine.pointer) (d : Cell) :
    (s.mapTape f).addCell d = (s.addCell d).mapSession (mapTape f) := by
  obtain ⟨m, c⟩ := s
  simp only [addCell, mapTape, h.resolve]
  cases hr : m.tape.resolve m.pointer with
  | error e => rfl
  | ok j =>
    simp only [Machine.bump, h.bump hr, Outcome.mapSession]
    rfl

theorem jumpIf_mapTape (h : Tape.SameAt f s.machine.tape s.machine.pointer) (zero : Bool)
    {target : Machine → Nat} (htarget : target (s.mapTape f).machine = target s.machine) :
    (s.mapTape f).jumpIf zero target = (s.jumpIf zero target).mapSession (mapTape f) := by
  obtain ⟨m, c⟩ := s
  have hcell : (mapTape f ⟨m, c⟩).machine.cell = m.cell := h.get
  show jumpIf zero target ⟨(mapTape f ⟨m, c⟩).machine, c⟩ = _
  simp only [jumpIf, hcell, htarget]
  cases m.cell with
  | error e => rfl
  | ok v =>
    simp only [Outcome.mapSession]
    split <;> rfl

theorem readCell_mapTape
    (h : s.Accesses .read → Tape.SameAt f s.machine.tape s.machine.pointer) :
    (s.mapTape f).readCell = s.readCell.mapSession (mapTape f) := by
  obtain ⟨m, c⟩ := s
  simp only [readCell, mapTape]
  cases hflush : c.flush with
  | error e d => rfl
  | ok _ d =>
    cases hline : d.readLine with
    | error e d => simp only [hline]; rfl
    -- The line is there to be stored, so the input does come to use the cell.
    | ok line d' =>
      have h' := h ⟨d, line, d', hflush, hline⟩
      simp only [hline, h'.resolve]
      cases hr : m.tape.resolve m.pointer with
      | error e => rfl
      | ok j =>
        simp only [Machine.put, h'.put _ hr, Outcome.mapSession]
        rfl

theorem printCell_mapTape (h : Tape.SameAt f s.machine.tape s.machine.pointer) :
    (s.mapTape f).printCell = s.printCell.mapSession (mapTape f) := by
  obtain ⟨m, c⟩ := s
  have hcell : (mapTape f ⟨m, c⟩).machine.cell = m.cell := h.get
  show printCell ⟨(mapTape f ⟨m, c⟩).machine, c⟩ = _
  simp only [printCell, hcell]
  cases m.cell with
  | error e => rfl
  | ok v =>
    cases hwrite : c.write (m.encoding.encode v) with
    | error e d => simp only [mapTape, hwrite]; rfl
    | ok _ d => simp only [mapTape, hwrite]; rfl

/-- An instruction does the same on two tapes that are the same under the pointer, if it uses the
cell there. -/
theorem perform_mapTape (h : s.Accesses i → Tape.SameAt f s.machine.tape s.machine.pointer) :
    (s.mapTape f).perform i = (s.perform i).mapSession (mapTape f) := by
  cases i with
  | change sign text => exact addCell_mapTape (h trivial) _
  | right => rfl
  | left => rfl
  | loopStart => exact jumpIf_mapTape (h trivial) true rfl
  | loopEnd => exact jumpIf_mapTape (h trivial) false rfl
  | read => exact readCell_mapTape h
  | print => exact printCell_mapTape (h trivial)

/-- A step is the same on two tapes that are the same under the pointer, if it uses the cell
there. -/
theorem step_mapTape (hi : s.machine.current? = some i)
    (h : s.Accesses i → Tape.SameAt f s.machine.tape s.machine.pointer) :
    (s.mapTape f).step = s.step.mapSession (mapTape f) := by
  have hi' : (s.mapTape f).machine.current? = some i := hi
  rw [step_of_current? hi', step_of_current? hi, perform_mapTape h]
  cases s.perform i <;> rfl

/-! ### Faults of the pointer -/

theorem resolve_of_cell_error {m : Machine} (h : m.cell = .error e) :
    m.tape.resolve m.pointer = .error e := by
  rw [Machine.cell, Tape.get] at h
  cases hr : m.tape.resolve m.pointer with
  | ok j =>
    rw [hr] at h
    cases h
  | error d =>
    rw [hr] at h
    cases h
    rfl

theorem resolve_of_jumpIf_error {zero : Bool} {target : Machine → Nat}
    (h : s.jumpIf zero target = .error (.address e) t) :
    s.machine.tape.resolve s.machine.pointer = .error e := by
  obtain ⟨m, c⟩ := s
  simp only [jumpIf] at h
  cases hcell : m.cell with
  | ok v =>
    rw [hcell] at h
    cases h
  | error d =>
    rw [hcell] at h
    cases h
    exact resolve_of_cell_error hcell

/-- Only an instruction that uses a cell fails because of the pointer, and only if the pointer
names no cell. -/
theorem accesses_of_perform_error (h : s.perform i = .error (.address e) t) :
    s.Accesses i ∧ s.machine.tape.resolve s.machine.pointer = .error e := by
  obtain ⟨m, c⟩ := s
  cases i with
  | change sign text =>
    simp only [perform, addCell] at h
    split at h
    next => cases h
    next d hr =>
      cases h
      exact ⟨trivial, hr⟩
  | right => cases h
  | left => cases h
  | loopStart | loopEnd => exact ⟨trivial, resolve_of_jumpIf_error h⟩
  | read =>
    simp only [perform, readCell] at h
    split at h
    next => cases h
    next d hflush =>
      split at h
      next => cases h
      next line d' hline =>
        split at h
        next => cases h
        next f hr =>
          cases h
          exact ⟨⟨d, line, _, hflush, hline⟩, hr⟩
  | print =>
    simp only [perform, printCell] at h
    split at h
    next f hcell =>
      cases h
      exact ⟨trivial, resolve_of_cell_error hcell⟩
    next => split at h <;> cases h

/-- An instruction that uses a cell where the pointer names none fails. The machine stays as it is;
of the console only a line can be used up, with the flush before it. -/
theorem perform_error_of_resolve (h : s.Accesses i)
    (hr : s.machine.tape.resolve s.machine.pointer = .error e) :
    ∃ c, s.perform i = .error (.address e) ⟨s.machine, c⟩ := by
  obtain ⟨m, c⟩ := s
  have hr' : m.tape.resolve m.pointer = .error e := hr
  have hcell : m.cell = .error e := by
    rw [Machine.cell, Tape.get, hr']
    rfl
  cases i with
  | change sign text => exact ⟨c, by simp only [perform, addCell, hr']⟩
  | right => exact absurd h id
  | left => exact absurd h id
  | loopStart | loopEnd => exact ⟨c, by simp only [perform, jumpIf, hcell]⟩
  | read =>
    obtain ⟨d, line, d', hflush, hline⟩ := h
    have hflush' : c.flush = .ok () d := hflush
    exact ⟨d', by simp only [perform, readCell, hflush', hline, hr']⟩
  | print => exact ⟨c, by simp only [perform, printCell, hcell]⟩

/-- Only a step that uses a cell fails because of the pointer. -/
theorem accesses_of_step_error (hi : s.machine.current? = some i)
    (h : s.step = .error (.address e) t) :
    s.Accesses i ∧ s.machine.tape.resolve s.machine.pointer = .error e :=
  accesses_of_perform_error (perform_of_step_error hi h)

/-- A step that uses a cell where the pointer names none fails. -/
theorem step_error_of_resolve (hi : s.machine.current? = some i) (h : s.Accesses i)
    (hr : s.machine.tape.resolve s.machine.pointer = .error e) :
    ∃ c, s.step = .error (.address e) ⟨s.machine, c⟩ := by
  obtain ⟨c, hc⟩ := perform_error_of_resolve h hr
  exact ⟨c, by rw [step_of_current? hi, hc]⟩

end Session

end PhraseTape
