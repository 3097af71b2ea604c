import PhraseTape.Proofs.Program.Jumps
import PhraseTape.Run.Execute

/-!
# What instructions work on

A session is a program at one of its instructions, and a store: tape, pointer, encoding and
console. What an instruction makes of the store does not depend on the program around it, and the
program decides only where the run goes on. So a step of a session is known once the effect on the
store, the question whether the instruction jumps, and the target of the jump are known.

## Main definitions

* `Store`, `Store.within` : the store of a session, and the session of a store.
* `Store.carryOut`, `Store.jumps` : what an instruction makes of a store, and whether it jumps.
* `Store.finish` : the end of a run.

## Main results

* `Store.step_within` : a step of a session, taken apart.
* `Store.finish_within` : the end of a run, taken apart.
-/

namespace PhraseTape

/-- What the instructions of a program work on. -/
structure Store where
  tape : Tape
  /-- The pointer to the tape. -/
  pointer : Address
  encoding : OutputEncoding
  console : Console

/-- A session without its program and its counter. -/
def Session.store (s : Session) : Store :=
  ⟨s.machine.tape, s.machine.pointer, s.machine.encoding, s.console⟩

namespace Store

/-- The session in which the program `p` works on the store and has come to the index `n`. -/
def within (s : Store) (p : Program) (n : Nat) : Session :=
  ⟨⟨p, s.tape, s.pointer, n, s.encoding⟩, s.console⟩

/-- The cell under the pointer. -/
def cell (s : Store) : Except AddressError Cell :=
  s.tape.get s.pointer

/-- What an instruction makes of a store. -/
def carryOut (i : Instruction) (s : Store) : EStateM.Result Fault Store Unit :=
  match (s.within #[] 0).perform i with
  | .ok () t => .ok () t.store
  | .error f t => .error f t.store

/-- Whether there is a cell under the pointer, and it is zero or not zero as `zero` says. -/
def cellIs (zero : Bool) (s : Store) : Bool :=
  match s.cell with
  | .ok v => v.isZero == zero
  | .error _ => false

/-- Whether an instruction jumps. -/
def jumps (i : Instruction) (s : Store) : Bool :=
  match i with
  | .loopStart => s.cellIs true
  | .loopEnd => s.cellIs false
  | _ => false

/-- The index to which an instruction at `n` takes the counter, before the run goes on. -/
def land (p : Program) (i : Instruction) (n : Nat) (s : Store) : Nat :=
  if s.jumps i then p.target i n else n

/-- The end of a run: everything written is flushed. -/
def finish (s : Store) : Except Fault Unit × Store :=
  match s.console.flush with
  | .ok () c => (.ok (), { s with console := c })
  | .error e c => (.error (.io e), { s with console := c })

@[simp] theorem current?_within (s : Store) (p : Program) (n : Nat) :
    (s.within p n).machine.current? = p[n]? :=
  rfl

/-- A session is its program at its counter, working on its store. -/
@[simp] theorem within_store (s : Session) :
    s.store.within s.machine.program s.machine.counter = s :=
  rfl

/-! ### One instruction -/

/-- The test that both loop instructions make, on a cell. -/
theorem jumpIf_within_of_ok {s : Store} {v : Cell} (h : s.cell = .ok v) (zero : Bool)
    (target : Machine → Nat) (p : Program) (n : Nat) :
    (s.within p n).jumpIf zero target =
      .ok () (s.within p (if s.cellIs zero then target (s.within p n).machine else n)) := by
  have hget : s.tape.get s.pointer = .ok v := h
  simp only [Session.jumpIf, within, Machine.cell, hget, cellIs, h]
  cases v.isZero <;> cases zero <;> rfl

/-- The test that both loop instructions make, without a cell. -/
theorem jumpIf_within_of_error {s : Store} {e : AddressError} (h : s.cell = .error e)
    (zero : Bool) (target : Machine → Nat) (p : Program) (n : Nat) :
    (s.within p n).jumpIf zero target = .error (.address e) (s.within p n) := by
  have hget : s.tape.get s.pointer = .error e := h
  simp only [Session.jumpIf, within, Machine.cell, hget]

/-- On a cell a loop instruction changes nothing in the store. -/
theorem carryOut_loop_of_ok {s : Store} {v : Cell} (h : s.cell = .ok v) {i : Instruction}
    (hi : i = .loopStart ∨ i = .loopEnd) : s.carryOut i = .ok () s := by
  rcases hi with rfl | rfl <;> rw [carryOut, Session.perform, jumpIf_within_of_ok h] <;> rfl

/-- Without a cell a loop instruction is a fault. -/
theorem carryOut_loop_of_error {s : Store} {e : AddressError} (h : s.cell = .error e)
    {i : Instruction} (hi : i = .loopStart ∨ i = .loopEnd) :
    s.carryOut i = .error (.address e) s := by
  rcases hi with rfl | rfl <;> rw [carryOut, Session.perform, jumpIf_within_of_error h] <;> rfl

/-- What an instruction does to a session is what it does to the store, and a jump if there is
one. -/
theorem perform_within (i : Instruction) (s : Store) (p : Program) (n : Nat) :
    (s.within p n).perform i =
      match s.carryOut i with
      | .ok () t => .ok () (t.within p (s.land p i n))
      | .error f t => .error f (t.within p n) := by
  cases i with
  | change sign text =>
    simp only [carryOut, Session.perform, Session.addCell, within]
    cases s.tape.resolve s.pointer <;> rfl
  | right => rfl
  | left => rfl
  | loopStart =>
    cases h : s.cell with
    | ok v => rw [carryOut_loop_of_ok h (.inl rfl), Session.perform, jumpIf_within_of_ok h]; rfl
    | error e => rw [carryOut_loop_of_error h (.inl rfl), Session.perform, jumpIf_within_of_error h]
  | loopEnd =>
    cases h : s.cell with
    | ok v => rw [carryOut_loop_of_ok h (.inr rfl), Session.perform, jumpIf_within_of_ok h]; rfl
    | error e => rw [carryOut_loop_of_error h (.inr rfl), Session.perform, jumpIf_within_of_error h]
  | read =>
    simp only [carryOut, Session.perform, Session.readCell, within]
    cases s.console.flush with
    | error e c => rfl
    | ok _ c =>
      cases hline : c.readLine with
      | error e c => simp only [hline]; rfl
      | ok line c =>
        simp only [hline]
        cases s.tape.resolve s.pointer <;> rfl
  | print =>
    simp only [carryOut, Session.perform, Session.printCell, within, Machine.cell]
    cases s.tape.get s.pointer with
    | error e => rfl
    | ok v =>
      cases hwrite : s.console.write (s.encoding.encode v) <;> simp only [hwrite] <;> rfl

/-- **A step, taken apart.** The instruction at the counter changes the store, and the run goes on
behind the place where the instruction lands; after a fault it stays at the instruction. -/
theorem step_within {p : Program} {n : Nat} {i : Instruction} (h : p[n]? = some i) (s : Store) :
    (s.within p n).step =
      match s.carryOut i with
      | .ok () t => .ok () (t.within p (s.land p i n + 1))
      | .error f t => .error f (t.within p n) := by
  have hcurrent : (s.within p n).machine.current? = some i := h
  rw [Session.step, Session.dispatch_of_current? hcurrent, perform_within]
  cases s.carryOut i with
  | ok _ t => rfl
  | error f t => rfl

/-- A step that succeeds carries out its instruction. -/
theorem carryOut_of_step_ok {p : Program} {n : Nat} {i : Instruction} {s : Store} {t : Session}
    (h : p[n]? = some i) (hs : (s.within p n).step = .ok () t) :
    ∃ u, s.carryOut i = .ok () u ∧ t = u.within p (s.land p i n + 1) := by
  rw [step_within h] at hs
  cases hc : s.carryOut i with
  | ok _ u =>
    rw [hc] at hs
    cases hs
    exact ⟨u, rfl, rfl⟩
  | error f u =>
    rw [hc] at hs
    cases hs

/-- A step that fails fails in its instruction. -/
theorem carryOut_of_step_error {p : Program} {n : Nat} {i : Instruction} {s : Store}
    {t : Session} {f : Fault} (h : p[n]? = some i) (hs : (s.within p n).step = .error f t) :
    ∃ u, s.carryOut i = .error f u ∧ t = u.within p n := by
  rw [step_within h] at hs
  cases hc : s.carryOut i with
  | ok _ u =>
    rw [hc] at hs
    cases hs
  | error f' u =>
    rw [hc] at hs
    cases hs
    exact ⟨u, rfl, rfl⟩

/-- No instruction lands outside the program. -/
theorem land_lt {p : Program} {n : Nat} {i : Instruction} (hi : p[n]? = some i) (s : Store) :
    s.land p i n < p.size := by
  rw [land]
  split
  · exact Program.target_lt hi
  · exact Program.lt_size_of_getElem? hi

/-- An instruction that is no loop instruction does not jump. -/
theorem jumps_of_not_loop {i : Instruction} (hs : i ≠ .loopStart) (he : i ≠ .loopEnd)
    (s : Store) : s.jumps i = false := by
  cases i with
  | loopStart => exact absurd rfl hs
  | loopEnd => exact absurd rfl he
  | _ => rfl

/-- The end of a run, taken apart. -/
theorem finish_within {σ : Type} (notes : σ) (s : Store) (p : Program) (n : Nat) :
    (s.within p n).finish notes =
      ⟨.stopped s.finish.1, notes, s.finish.2.within p n⟩ := by
  simp only [Session.finish, finish, within]
  cases s.console.flush with
  | ok _ c => rfl
  | error e c => rfl

end Store

end PhraseTape
