import Mathlib.Data.ZMod.Basic
import PhraseTape.Proofs.Run.Moments

/-!
# The circular tape

Where every address names a cell, the tape is a circle, and a run on it is a run of a wheel: of a
machine whose head is at one of `n` cells arranged in a circle, and moves to the next or to the
previous one. A wheel knows no addresses, so only its reader and its writer can fail. A run on the
tape follows the run of the wheel step by step, with the pointer taken modulo `n`, as long as the
pointer does not leave its range at one end and come back at the other. There it jumps by `2 ^ 64`,
which is a whole number of turns exactly if `n` divides `2 ^ 64`.

## Main definitions

* `Wheel`, `Wheel.step`, `Wheel.run` : the machine on a circle, and its runs.
* `Session.onWheel` : a session, seen as a wheel.
* `Session.Simulates` : an action on sessions and one on wheels with the same result.
* `Moment.Crosses` : the next instruction moves the pointer over an end of its range.

## Main results

* `Session.simulates_perform_iff` : which instructions do the same on the tape and on the wheel.
* `Session.Passes.not_crosses` : a run that is short enough does not come to the ends.
* `Session.execute_on_wheel` : a run on a circular tape is the run of the wheel.
-/

namespace PhraseTape

variable {σ : Type} {n : ℕ}

/-! ### The wheel -/

/-- A program on a circle of `n` cells, with its console. -/
structure Wheel (n : ℕ) where
  program : Program
  cells : ZMod n → Cell
  /-- The cell that the head is at. -/
  position : ZMod n
  /-- The index of the next instruction. -/
  counter : ℕ
  encoding : OutputEncoding
  console : Console

namespace Wheel

/-- What an action on a wheel leaves: the wheel, and the failure of its reader or writer if there is
one. -/
abbrev Outcome (n : ℕ) := EStateM.Result IoError (Wheel n) Unit

/-- The instruction at the counter. -/
def current? (w : Wheel n) : Option Instruction :=
  w.program[w.counter]?

/-- The cell that the head is at. -/
def cell (w : Wheel n) : Cell :=
  w.cells w.position

/-- The wheel with `v` in the cell that its head is at. -/
def store (v : Cell) (w : Wheel n) : Wheel n :=
  { w with cells := Function.update w.cells w.position v }

/-- The wheel with its counter at `k`. -/
def jump (k : ℕ) (w : Wheel n) : Wheel n :=
  { w with counter := k }

/-- The wheel at the next instruction. -/
def advance (w : Wheel n) : Wheel n :=
  w.jump (w.counter + 1)

/-- What each kind of instruction does to a wheel. -/
def perform (i : Instruction) (w : Wheel n) : Outcome n :=
  match i with
  | .change _ text => .ok () (w.store (w.cell + Cell.ofInt (delta text)))
  | .right => .ok () { w with position := w.position + 1 }
  | .left => .ok () { w with position := w.position - 1 }
  | .loopStart => .ok () (if w.cell = 0 then w.jump (w.program.loopEndFrom w.counter) else w)
  | .loopEnd => .ok () (if w.cell = 0 then w else w.jump (w.program.loopStartTo w.counter))
  | .read =>
    match w.console.flush with
    | .error e c => .error e { w with console := c }
    | .ok () c =>
      match c.readLine with
      | .error e c => .error e { w with console := c }
      | .ok line c => .ok () (({ w with console := c } : Wheel n).store (Cell.ofLineBytes line))
  | .print =>
    match w.console.write (w.encoding.encode w.cell) with
    | .error e c => .error e { w with console := c }
    | .ok () c => .ok () { w with console := c }

/-- Carries out the instruction at the counter, if there is one, and goes on to the next. -/
def step (w : Wheel n) : Outcome n :=
  match w.current? with
  | none => .ok () w.advance
  | some i =>
    match w.perform i with
    | .error e w => .error e w
    | .ok () w => .ok () w.advance

/-- A run of at most `k` instructions, which ends with a flush behind the last one. The result is
there if the run came to its end. -/
def run (k : ℕ) (w : Wheel n) : Option (Except IoError Unit) × Wheel n :=
  match w.current?, k with
  | none, _ =>
    match w.console.flush with
    | .error e c => (some (.error e), { w with console := c })
    | .ok () c => (some (.ok ()), { w with console := c })
  | some _, 0 => (none, w)
  | some _, k + 1 =>
    match w.step with
    | .error e w => (some (.error e), w)
    | .ok () w => run k w

/-- How far a run came that has the given result. -/
def status : Option (Except IoError Unit) → Status
  | none => .running
  | some result => .stopped (result.mapError Fault.io)

variable {w x : Wheel n} {i : Instruction} {e : IoError}

theorem advance_injective : Function.Injective (advance : Wheel n → Wheel n) := by
  rintro ⟨_, _, _, k, _, _⟩ ⟨_, _, _, l, _, _⟩ h
  obtain ⟨rfl, rfl, rfl, hk, rfl, rfl⟩ := Wheel.mk.inj h
  obtain rfl : k = l := Nat.succ.inj hk
  rfl

theorem step_of_current? (hi : w.current? = some i) : w.step =
    match w.perform i with
    | .error e w => .error e w
    | .ok () w => .ok () w.advance := by
  rw [step, hi]

theorem run_of_finished (hi : w.current? = none) (k : ℕ) : w.run k =
    match w.console.flush with
    | .error e c => (some (.error e), { w with console := c })
    | .ok () c => (some (.ok ()), { w with console := c }) := by
  unfold run
  rw [hi]

theorem run_zero (hi : w.current? = some i) : w.run 0 = (none, w) := by
  unfold run
  rw [hi]

theorem run_of_step (hi : w.current? = some i) (hs : w.step = .ok () x) (k : ℕ) :
    w.run (k + 1) = x.run k := by
  conv => lhs; unfold run
  rw [hi]
  simp only [hs]

theorem run_of_failure (hi : w.current? = some i) (hs : w.step = .error e x) (k : ℕ) :
    w.run (k + 1) = (some (.error e), x) := by
  unfold run
  rw [hi]
  simp only [hs]

end Wheel

/-! ### The ends of the range -/

namespace Address

theorem toInt_next_eq_ite (a : Address) :
    a.next.toInt = if a.toInt = 2 ^ 63 - 1 then -2 ^ 63 else a.toInt + 1 := by
  have hle := a.le_toInt
  have hlt := a.toInt_lt
  rw [toInt_next]
  split
  next h => rw [h]; rfl
  next h => exact Int.bmod_eq_of_le (by simp; omega) (by simp; omega)

theorem toInt_previous_eq_ite (a : Address) :
    a.previous.toInt = if a.toInt = -2 ^ 63 then 2 ^ 63 - 1 else a.toInt - 1 := by
  have hle := a.le_toInt
  have hlt := a.toInt_lt
  rw [toInt_previous]
  split
  next h => rw [h]; rfl
  next h => exact Int.bmod_eq_of_le (by simp; omega) (by simp; omega)

/-- The address to the right is the next cell of a circle, unless it lies at the other end of the
range and the range is no whole number of turns. -/
theorem cast_next_iff (a : Address) : (a.next.toInt : ZMod n) = (a.toInt : ZMod n) + 1 ↔
    (a.toInt = 2 ^ 63 - 1 → n ∣ 2 ^ 64) := by
  rw [← Int.cast_one, ← Int.cast_add, ZMod.intCast_eq_intCast_iff_dvd_sub, toInt_next_eq_ite,
    ← Int.natCast_dvd_natCast]
  by_cases h : a.toInt = 2 ^ 63 - 1
  · rw [if_pos h, h]
    simp
  · rw [if_neg h, sub_self]
    exact iff_of_true (dvd_zero _) fun h' => absurd h' h

/-- At the end of the range the pointer moves to the right and stays at the same of three cells. -/
example : Int64.maxValue.toInt % 3 = 1 ∧ (next Int64.maxValue).toInt % 3 = 1 := by decide

/-- The address to the left is the previous cell of a circle, with the same exception. -/
theorem cast_previous_iff (a : Address) : (a.previous.toInt : ZMod n) = (a.toInt : ZMod n) - 1 ↔
    (a.toInt = -2 ^ 63 → n ∣ 2 ^ 64) := by
  rw [← Int.cast_one, ← Int.cast_sub, ZMod.intCast_eq_intCast_iff_dvd_sub,
    toInt_previous_eq_ite, ← Int.natCast_dvd_natCast]
  by_cases h : a.toInt = -2 ^ 63
  · rw [if_pos h, h, ← Int.dvd_neg]
    simp
  · rw [if_neg h, sub_self]
    exact iff_of_true (dvd_zero _) fun h' => absurd h' h

end Address

/-- Where the instruction leaves a pointer. -/
def Instruction.moved : Instruction → Address → Address
  | .right, a => a.next
  | .left, a => a.previous
  | _, a => a

/-- The instruction moves the pointer over an end of its range. -/
def Moment.Crosses (m : Moment) : Prop :=
  m.instruction = .right ∧ m.pointer.toInt = 2 ^ 63 - 1 ∨
    m.instruction = .left ∧ m.pointer.toInt = -2 ^ 63

theorem Moment.Crosses.move {m : Moment} (h : m.Crosses) :
    m.instruction = .right ∨ m.instruction = .left :=
  h.imp And.left And.left

theorem Machine.crosses_right_iff (m : Machine) :
    (m.moment .right).Crosses ↔ m.pointer.toInt = 2 ^ 63 - 1 := by
  simp [Moment.Crosses, moment]

theorem Machine.crosses_left_iff (m : Machine) :
    (m.moment .left).Crosses ↔ m.pointer.toInt = -2 ^ 63 := by
  simp [Moment.Crosses, moment]

namespace Session

/-- The session on a circle of `n` cells, with its pointer taken modulo `n`. -/
def onWheel (n : ℕ) (s : Session) : Wheel n where
  program := s.machine.program
  cells k := s.machine.tape.cell k.val
  position := s.machine.pointer.toInt
  counter := s.machine.counter
  encoding := s.machine.encoding
  console := s.console

/-- Both actions succeed or both fail alike, and leave the same up to `onWheel`. -/
def Simulates (n : ℕ) : Outcome → Wheel.Outcome n → Prop
  | .ok () s, .ok () w => w = s.onWheel n
  | .error f s, .error e w => f = .io e ∧ w = s.onWheel n
  | _, _ => False

variable {observe : Observer σ} {s t : Session} {i : Instruction} {a b : σ}

/-! ### The cell at the head -/

theorem resolve_position (hn : s.machine.tape.size = n) (hp : s.machine.tape.policy = .wrap) :
    s.machine.tape.resolve s.machine.pointer = .ok (s.onWheel n).position.val := by
  have : NeZero n := ⟨hn ▸ s.machine.tape.size_pos.ne'⟩
  have hval : ((s.onWheel n).position.val : ℤ) = s.machine.pointer.toInt % n :=
    ZMod.val_intCast _
  rw [Tape.resolve_wrap hp, hn, ← hval, Int.toNat_natCast]

theorem cell_onWheel (hn : s.machine.tape.size = n) (hp : s.machine.tape.policy = .wrap) :
    s.machine.cell = .ok (s.onWheel n).cell := by
  rw [Machine.cell, Tape.get, resolve_position hn hp]
  rfl

/-- Writing where the pointer is is writing where the head is. -/
theorem onWheel_put (hn : s.machine.tape.size = n) (v : Cell) (c : Console) :
    onWheel n ⟨s.machine.put (s.onWheel n).position.val v, c⟩ =
      ({ s.onWheel n with console := c } : Wheel n).store v := by
  have : NeZero n := ⟨hn ▸ s.machine.tape.size_pos.ne'⟩
  have hcells (k : ZMod n) : (s.machine.tape.put (s.onWheel n).position.val v).cell k.val =
      Function.update (s.onWheel n).cells (s.onWheel n).position v k := by
    rw [Tape.cell_put]
    by_cases hk : k = (s.onWheel n).position
    · rw [hk, Function.update_self, if_pos ⟨rfl, (ZMod.val_lt _).trans_eq hn.symm⟩]
    · rw [Function.update_of_ne hk, if_neg fun h => hk (ZMod.val_injective n h.1.symm)]
      rfl
  show Wheel.mk _ _ _ _ _ _ = Wheel.mk _ _ _ _ _ _
  congr 1
  exact funext hcells

/-! ### One instruction -/

theorem simulates_change (hn : s.machine.tape.size = n) (hp : s.machine.tape.policy = .wrap)
    (d : Cell) : Simulates n (s.addCell d)
      (.ok () ((s.onWheel n).store ((s.onWheel n).cell + d))) := by
  obtain ⟨m, c⟩ := s
  have hr := resolve_position hn hp
  simp only [addCell, hr, Machine.bump, Tape.bump_eq_put]
  exact (onWheel_put hn _ c).symm

theorem simulates_jumpIf (hn : s.machine.tape.size = n) (hp : s.machine.tape.policy = .wrap)
    (zero : Bool) (target : Machine → ℕ) : Simulates n (s.jumpIf zero target)
      (.ok () (if (s.onWheel n).cell.isZero = zero then
        (s.onWheel n).jump (target s.machine) else s.onWheel n)) := by
  obtain ⟨m, c⟩ := s
  simp only [jumpIf, cell_onWheel hn hp]
  split <;> rfl

theorem simulates_read (hn : s.machine.tape.size = n) (hp : s.machine.tape.policy = .wrap) :
    Simulates n s.readCell ((s.onWheel n).perform .read) := by
  obtain ⟨m, c⟩ := s
  have hr := resolve_position hn hp
  simp only [readCell, Wheel.perform, onWheel]
  cases c.flush with
  | error e c => exact ⟨rfl, rfl⟩
  | ok _ c =>
    simp only
    cases c.readLine with
    | error e c => exact ⟨rfl, rfl⟩
    | ok line c =>
      simp only [hr]
      exact (onWheel_put hn _ c).symm

theorem simulates_print (hn : s.machine.tape.size = n) (hp : s.machine.tape.policy = .wrap) :
    Simulates n s.printCell ((s.onWheel n).perform .print) := by
  obtain ⟨m, c⟩ := s
  simp only [printCell, cell_onWheel hn hp, Wheel.perform]
  generalize (onWheel n ⟨m, c⟩).cell = v
  simp only [onWheel]
  cases c.write (m.encoding.encode v) with
  | error e c => exact ⟨rfl, rfl⟩
  | ok _ c => rfl

theorem simulates_right_iff : Simulates n (s.perform .right) ((s.onWheel n).perform .right) ↔
    (s.machine.pointer.toInt = 2 ^ 63 - 1 → n ∣ 2 ^ 64) := by
  rw [← Address.cast_next_iff]
  constructor
  · exact fun h => (congrArg Wheel.position h).symm
  · intro h
    show Wheel.mk _ _ (_ + 1) _ _ _ = Wheel.mk _ _ _ _ _ _
    congr 1
    exact h.symm

theorem simulates_left_iff : Simulates n (s.perform .left) ((s.onWheel n).perform .left) ↔
    (s.machine.pointer.toInt = -2 ^ 63 → n ∣ 2 ^ 64) := by
  rw [← Address.cast_previous_iff]
  constructor
  · exact fun h => (congrArg Wheel.position h).symm
  · intro h
    show Wheel.mk _ _ (_ - 1) _ _ _ = Wheel.mk _ _ _ _ _ _
    congr 1
    exact h.symm

/-- **An instruction does the same on the tape and on the wheel**, unless it moves the pointer over
an end of its range and the range is no whole number of turns. -/
theorem simulates_perform_iff (hn : s.machine.tape.size = n)
    (hp : s.machine.tape.policy = .wrap) (i : Instruction) :
    Simulates n (s.perform i) ((s.onWheel n).perform i) ↔
      ((s.machine.moment i).Crosses → n ∣ 2 ^ 64) := by
  cases i with
  | right => rw [Machine.crosses_right_iff, simulates_right_iff]
  | left => rw [Machine.crosses_left_iff, simulates_left_iff]
  | change sign text =>
    exact iff_of_true (simulates_change hn hp _) fun h => h.move.elim nofun nofun
  | loopStart =>
    have h := simulates_jumpIf hn hp true Machine.loopEnd
    simp only [Cell.isZero_iff] at h
    exact iff_of_true h fun h => h.move.elim nofun nofun
  | loopEnd =>
    have h := simulates_jumpIf hn hp false Machine.loopStart
    simp only [← Bool.not_eq_true, Cell.isZero_iff, ite_not] at h
    exact iff_of_true h fun h => h.move.elim nofun nofun
  | read => exact iff_of_true (simulates_read hn hp) fun h => h.move.elim nofun nofun
  | print => exact iff_of_true (simulates_print hn hp) fun h => h.move.elim nofun nofun

/-- A step does the same on the tape and on the wheel, with the same exception. -/
theorem simulates_step_iff (hn : s.machine.tape.size = n) (hp : s.machine.tape.policy = .wrap)
    (hi : s.machine.current? = some i) :
    Simulates n s.step (s.onWheel n).step ↔ ((s.machine.moment i).Crosses → n ∣ 2 ^ 64) := by
  have hi' : (s.onWheel n).current? = some i := hi
  rw [← simulates_perform_iff hn hp, step_of_current? hi, Wheel.step_of_current? hi']
  match s.perform i, (s.onWheel n).perform i with
  | .ok () t, .ok () w =>
    show w.advance = (t.onWheel n).advance ↔ w = t.onWheel n
    exact Wheel.advance_injective.eq_iff
  | .error f t, .error e w => exact .rfl
  | .ok () t, .error e w => exact .rfl
  | .error f t, .ok () w => exact .rfl

theorem Simulates.of_ok {o : Wheel.Outcome n} (h : Simulates n (.ok () t) o) :
    o = .ok () (t.onWheel n) := by
  match o, h with
  | .ok () w, h => rw [show w = _ from h]

theorem Simulates.of_error {o : Wheel.Outcome n} {f : Fault} (h : Simulates n (.error f t) o) :
    ∃ e, f = .io e ∧ o = .error e (t.onWheel n) := by
  match o, h with
  | .error e w, h => exact ⟨e, h.1, by rw [h.2]⟩

/-! ### Runs -/

/-- The part of a run that does not cross the ends of the range is carried out on the wheel. -/
theorem Passes.run_onWheel {ms : List Moment} (h : Passes observe ms a s b t)
    (hn : s.machine.tape.size = n) (hp : s.machine.tape.policy = .wrap)
    (hcross : ∀ m ∈ ms, m.Crosses → n ∣ 2 ^ 64) (k : ℕ) :
    (s.onWheel n).run (ms.length + k) = (t.onWheel n).run k := by
  induction h with
  | refl a s => rw [List.length_nil, Nat.zero_add]
  | @step ms a b c s t u i hi ho hs _ ih =>
    have hsame := SameSetting.of_step hs
    have hsim := (simulates_step_iff hn hp hi).2 (hcross _ (List.mem_cons_self ..))
    rw [hs] at hsim
    have hi' : (s.onWheel n).current? = some i := hi
    rw [List.length_cons, Nat.add_right_comm, Wheel.run_of_step hi' hsim.of_ok]
    exact ih (hsame.size.trans hn) (hsame.policy.trans hp) fun m hm =>
      hcross m (List.mem_cons_of_mem _ hm)

/-- A move does not fail. -/
theorem not_crosses_of_step_error {f : Fault} (hi : s.machine.current? = some i)
    (hs : s.step = .error f t) : ¬ (s.machine.moment i).Crosses := by
  have hperform := perform_of_step_error hi hs
  intro h
  rcases h.move with h | h
  · obtain rfl : i = .right := h
    cases hperform
  · obtain rfl : i = .left := h
    cases hperform

/-- A run that rests on the tape rests on the wheel, where no observer stops it. -/
theorem Rests.run_onWheel {k : ℕ} {r : Report σ} (h : Rests observe a s k r)
    (hn : s.machine.tape.size = n) (hp : s.machine.tape.policy = .wrap) :
    (r.status = .stopped (.error .aborted) ∧
        (s.onWheel n).run 0 = (none, r.session.onWheel n)) ∨
      ∃ result, (s.onWheel n).run k = (result, r.session.onWheel n) ∧
        r.status = Wheel.status result := by
  cases h with
  | running hi => exact .inr ⟨none, Wheel.run_zero hi, rfl⟩
  | abort hi ho => exact .inl ⟨rfl, Wheel.run_zero hi⟩
  | fault hi ho hs k =>
    have hsim := (simulates_step_iff hn hp hi).2 fun h =>
      absurd h (not_crosses_of_step_error hi hs)
    have hi' : (s.onWheel n).current? = _ := hi
    rw [hs] at hsim
    obtain ⟨e, rfl, he⟩ := hsim.of_error
    exact .inr ⟨some (.error e), Wheel.run_of_failure hi' he k, rfl⟩
  | finish hi k =>
    have hi' : (s.onWheel n).current? = none := hi
    refine .inr ?_
    rw [Wheel.run_of_finished hi']
    obtain ⟨m, c⟩ := s
    simp only [onWheel, Session.finish]
    cases c.flush with
    | ok _ c => exact ⟨some (.ok ()), rfl, rfl⟩
    | error e c => exact ⟨some (.error e), rfl, rfl⟩

/-! ### The distance to the ends -/

/-- Only the two moves change the pointer. -/
theorem pointer_of_perform (h : s.perform i = .ok () t) :
    t.machine.pointer = i.moved s.machine.pointer := by
  obtain ⟨m, c⟩ := s
  cases i with
  | change sign text =>
    simp only [perform, addCell] at h
    split at h <;> cases h
    rfl
  | right | left =>
    cases h
    rfl
  | loopStart | loopEnd =>
    simp only [perform, jumpIf] at h
    split at h <;> cases h
    split <;> rfl
  | read =>
    simp only [perform, readCell] at h
    repeat' split at h
    all_goals cases h
    rfl
  | print =>
    simp only [perform, printCell] at h
    repeat' split at h
    all_goals cases h
    rfl

/-- An instruction moves the pointer by at most one, unless it crosses an end of the range. -/
theorem natAbs_pointer_of_step (hi : s.machine.current? = some i) (hs : s.step = .ok () t)
    (hcross : ¬ (s.machine.moment i).Crosses) :
    t.machine.pointer.toInt.natAbs ≤ s.machine.pointer.toInt.natAbs + 1 := by
  obtain ⟨u, hu, rfl⟩ := perform_of_step_ok hi hs
  show u.machine.pointer.toInt.natAbs ≤ _
  rw [pointer_of_perform hu]
  cases i with
  | right =>
    have hne : s.machine.pointer.toInt ≠ 2 ^ 63 - 1 := fun h => hcross (.inl ⟨rfl, h⟩)
    rw [Instruction.moved, Address.toInt_next_eq_ite, if_neg hne]
    omega
  | left =>
    have hne : s.machine.pointer.toInt ≠ -2 ^ 63 := fun h => hcross (.inr ⟨rfl, h⟩)
    rw [Instruction.moved, Address.toInt_previous_eq_ite, if_neg hne]
    omega
  | change sign text | loopStart | loopEnd | read | print => exact Nat.le_succ _

/-- A run with fewer instructions than there are addresses on each side does not cross an end. -/
theorem Passes.not_crosses {ms : List Moment} (h : Passes observe ms a s b t)
    (hlen : s.machine.pointer.toInt.natAbs + ms.length < 2 ^ 63) : ∀ m ∈ ms, ¬ m.Crosses := by
  induction h with
  | refl a s => exact fun m hm => absurd hm List.not_mem_nil
  | @step ms a b c s t u i hi ho hs _ ih =>
    rw [List.length_cons] at hlen
    have hfirst : ¬ (s.machine.moment i).Crosses := by
      rintro (⟨-, h⟩ | ⟨-, h⟩)
      · have h : s.machine.pointer.toInt = 2 ^ 63 - 1 := h
        omega
      · have h : s.machine.pointer.toInt = -2 ^ 63 := h
        omega
    have hnext := natAbs_pointer_of_step hi hs hfirst
    intro m hm
    cases hm with
    | head => exact hfirst
    | tail _ hm => exact ih (by omega) m hm

/-! ### A run on the circle -/

/-- **A circular tape is a wheel.** For a tape of `n` cells on which every address names a cell, the
session is seen as a wheel whose head is at the pointer modulo `n` and whose cells are those of the
tape. A step of the session is a step of the wheel, unless it moves the pointer over an end of its
range and `n` does not divide `2 ^ 64`, as it does if `n` is a power of two below `2 ^ 63`.

A run carries out some instructions, at the moments `ms`, and then rests. If none of them crosses an
end, or `n` divides `2 ^ 64`, the run of the wheel leaves the same cells, counter and console and
has the same result; where an observer stopped the run, the wheel has come as far after as many
instructions. From the pointer zero no run of fewer than `2 ^ 63` instructions crosses an end. -/
theorem execute_on_wheel (observe : Observer σ) (fuel : ℕ) (a : σ) (s : Session)
    (hn : s.machine.tape.size = n) (hp : s.machine.tape.policy = .wrap) :
    (∀ t : Session, t.machine.tape.size = n →
      ((t.onWheel n).position.val : ℤ) = t.machine.pointer.toInt % n ∧
      ∀ k < n, (t.onWheel n).cells k = t.machine.tape.cell k) ∧
    (∀ i, s.machine.current? = some i →
      (Simulates n s.step (s.onWheel n).step ↔ ((s.machine.moment i).Crosses → n ∣ 2 ^ 64))) ∧
    (∀ k, n = 2 ^ k → n < 2 ^ 63 → n ∣ 2 ^ 64) ∧
    let r := s.execute observe fuel a
    ∃ (ms : List Moment) (k : ℕ) (b : σ) (t : Session), fuel = ms.length + k ∧
      Passes observe ms a s b t ∧ Rests observe b t k r ∧ r.session.machine.tape.size = n ∧
      (s.machine.pointer = 0 → ms.length < 2 ^ 63 → ∀ m ∈ ms, ¬ m.Crosses) ∧
      ((∀ m ∈ ms, ¬ m.Crosses) ∨ n ∣ 2 ^ 64 →
        (r.status = .stopped (.error .aborted) ∧
          (s.onWheel n).run ms.length = (none, r.session.onWheel n)) ∨
        ∃ result, (s.onWheel n).run fuel = (result, r.session.onWheel n) ∧
          r.status = Wheel.status result) := by
  have : NeZero n := ⟨hn ▸ s.machine.tape.size_pos.ne'⟩
  refine ⟨fun t ht => ⟨ZMod.val_intCast _, fun k hk => ?_⟩,
    fun i hi => simulates_step_iff hn hp hi, fun k hk hlt => ?_, ?_⟩
  · show t.machine.tape.cell (ZMod.val (k : ZMod n)) = _
    rw [ZMod.val_cast_of_lt hk]
  · rw [hk] at hlt ⊢
    exact Nat.pow_dvd_pow 2 ((Nat.pow_lt_pow_iff_right (by decide)).1 hlt |>.le.trans (by decide))
  · intro r
    obtain ⟨ms, k, b, t, rfl, hpasses, hrests⟩ := exists_passes_rests observe fuel a s
    refine ⟨ms, k, b, t, rfl, hpasses, hrests,
      (sameSetting_execute observe _ a s).size.trans hn, fun hzero hlen => ?_, fun hcross => ?_⟩
    · exact hpasses.not_crosses (by rw [hzero]; simpa using hlen)
    · have hsame := hpasses.sameSetting
      have hrun := hpasses.run_onWheel hn hp fun m hm hc =>
        hcross.elim (fun h => absurd hc (h m hm)) id
      rw [hrun k, ← Nat.add_zero ms.length, hrun 0]
      exact hrests.run_onWheel (hsame.size.trans hn) (hsame.policy.trans hp)

/-- Moves to the left of the first of three cells and prints. -/
def leftOfFirst : Session where
  machine := { program := #[.left, .print], tape := (Tape.new 3 .wrap).put 2 65 }
  console := {}

/-- The cell at the left of the first one is the last one. -/
theorem execute_on_wheel_leftOfFirst :
    leftOfFirst.machine.tape.size = 3 ∧ leftOfFirst.machine.tape.policy = .wrap ∧
      leftOfFirst.machine.pointer = 0 ∧
      let r := leftOfFirst.execute Observer.silent 2 ()
      r.session.console.output = [65] ∧ (r.session.onWheel 3).position.val = 2 ∧
      (leftOfFirst.onWheel 3).run 2 = (some (.ok ()), r.session.onWheel 3) := by
  have hsize : leftOfFirst.machine.tape.size = 3 := by decide
  have hstatus : (leftOfFirst.execute Observer.silent 2 ()).status = .stopped (.ok ()) := rfl
  obtain ⟨hwheel, -, -, ms, k, b, t, hfuel, -, -, hsize', hnone, hrun⟩ :=
    execute_on_wheel Observer.silent 2 () leftOfFirst hsize rfl
  have hpointer : (leftOfFirst.execute Observer.silent 2 ()).session.machine.pointer.toInt = -1 :=
    by decide
  have hval := (hwheel _ hsize').1
  rw [hpointer] at hval
  have hlen : ms.length < 2 ^ 63 := by omega
  obtain ⟨haborted, -⟩ | ⟨result, hrun, hresult⟩ := hrun (.inl (hnone rfl hlen))
  · rw [hstatus] at haborted
    cases haborted
  · rw [hstatus] at hresult
    refine ⟨hsize, rfl, rfl, by decide, by omega, ?_⟩
    match result, hresult with
    | some (.ok ()), _ => exact hrun

end Session

end PhraseTape
