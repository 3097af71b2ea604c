import Mathlib.Algebra.BigOperators.Group.Finset.Basic
import Mathlib.Data.Nat.Find
import PhraseTape.Proofs.Run.Policy
import PhraseTape.Proofs.Run.Wheel

/-!
# Straight-line programs

A program that only changes cells and moves the pointer is carried out from its first instruction to
its last one, and what it makes of a tape can be written down at once. In front of an instruction
the pointer is where the moves before it have taken it, and to a cell the amounts of those changes
are added at which the pointer names the cell. On a circle every address names a cell. Where
addresses are checked, the run fails at the first change at which the pointer is outside the tape,
and the changes before it have been made.

## Main definitions

* `Program.Straight` : programs that only change cells and move the pointer.
* `Program.addressAt`, `Program.amountAt` : where the pointer is in front of an instruction, and
  what the instruction adds to the cell there.
* `Session.along` : a session as the first instructions of a straight-line program leave it.
* `Session.Raised` : what some of the instructions make of a session, told by its components.

## Main results

* `Session.step_along` : one instruction of a straight-line program.
* `Session.exists_execute_eq_along` : the instructions up to the first change of a cell that is not
  there.
* `Session.execute_straight` : the run of a straight-line program.
-/

namespace PhraseTape

variable {σ : Type}

namespace Instruction

/-- Whether the instruction changes a cell or moves the pointer. It then does not jump and makes no
call. -/
def isStraight : Instruction → Bool
  | .change .. => true
  | .right => true
  | .left => true
  | _ => false

/-- What the instruction adds to the cell under the pointer. -/
def amount : Instruction → ℤ
  | .change _ text => delta text
  | _ => 0

end Instruction

namespace Program

/-- The program consists of changes and moves. -/
def Straight (p : Program) : Prop :=
  ∀ i ∈ p, i.isStraight = true

instance (p : Program) : Decidable p.Straight :=
  inferInstanceAs (Decidable (∀ i ∈ p, i.isStraight = true))

/-- The instruction of index `k` changes a cell. -/
def ChangesAt (p : Program) (k : ℕ) : Prop :=
  ∃ sign text, p[k]? = some (.change sign text)

/-- What the instruction of index `k` adds to a cell. -/
def amountAt (p : Program) (k : ℕ) : ℤ :=
  p[k]?.elim 0 Instruction.amount

/-- Where the pointer is in front of the instruction of index `k`, if it is at `a` in front of the
first one: the moves are counted, and the result is wrapped to the range of the addresses. -/
def addressAt (p : Program) (a : Address) (k : ℕ) : Address :=
  Int64.ofInt (a.toInt + (p.toList.take k).count .right - (p.toList.take k).count .left)

variable {p : Program} {k : ℕ} {i : Instruction}

theorem amountAt_of_getElem? (hi : p[k]? = some i) : p.amountAt k = i.amount := by
  rw [amountAt, hi, Option.elim_some]

@[simp] theorem addressAt_zero (p : Program) (a : Address) : p.addressAt a 0 = a := by
  simp [addressAt]

/-- One instruction more leaves the pointer where it moves it. -/
theorem addressAt_succ (hi : p[k]? = some i) (a : Address) :
    p.addressAt a (k + 1) = i.moved (p.addressAt a k) := by
  have htake : p.toList.take (k + 1) = p.toList.take k ++ [i] := by
    rw [List.take_add_one, Array.getElem?_toList, hi, Option.toList_some]
  have hone : (1 : Address) = Int64.ofInt 1 := rfl
  simp only [addressAt, htake, List.count_append, List.count_singleton]
  generalize (p.toList.take k).count .right = r
  generalize (p.toList.take k).count .left = l
  cases i with
  | right =>
    rw [Instruction.moved, Address.next, hone, ← Int64.ofInt_add]
    congr 1
    simp
    omega
  | left =>
    rw [Instruction.moved, Address.previous, hone, ← Int64.ofInt_sub]
    congr 1
    simp
    omega
  | _ => simp [Instruction.moved]

end Program

namespace Tape

/-- The tape with `d i` added to the cell of every index `i`. -/
def raise (d : ℕ → Cell) (t : Tape) : Tape where
  cells := t.cells.mapIdx fun i v => v + d i
  policy := t.policy
  size_pos := by rw [Array.size_mapIdx]; exact t.size_pos

variable {t : Tape} {d e : ℕ → Cell} {i j : ℕ}

@[simp] theorem size_raise (d : ℕ → Cell) (t : Tape) : (t.raise d).size = t.size :=
  Array.size_mapIdx

@[simp] theorem policy_raise (d : ℕ → Cell) (t : Tape) : (t.raise d).policy = t.policy :=
  rfl

@[simp] theorem resolve_raise (d : ℕ → Cell) (t : Tape) (a : Address) :
    (t.raise d).resolve a = t.resolve a :=
  resolve_congr (size_raise ..) (policy_raise ..) a

theorem cell_raise (hi : i < t.size) (d : ℕ → Cell) : (t.raise d).cell i = t.cell i + d i := by
  have hi' : i < t.cells.size := hi
  simp only [cell, raise, Array.getD_eq_getD_getElem?, Array.getElem?_mapIdx,
    Array.getElem?_eq_getElem hi', Option.map_some, Option.getD_some]

/-- Two tapes of the same size and policy are equal if their cells are, up to the size. -/
theorem eq_raise {u : Tape} (hs : u.size = t.size) (hp : u.policy = t.policy)
    (h : ∀ i < t.size, u.cell i = t.cell i + d i) : u = t.raise d := by
  refine ext_cell (hs.trans (size_raise d t).symm) hp fun i => ?_
  by_cases hi : i < t.size
  · rw [h i hi, cell_raise hi]
  · rw [cell_of_size_le (by omega), cell_of_size_le (by rw [size_raise]; omega)]

theorem raise_zero (t : Tape) : t.raise (fun _ => 0) = t :=
  (eq_raise rfl rfl fun i _ => (UInt8.add_zero (t.cell i)).symm).symm

/-- Adding to one cell more. -/
theorem bump_raise {x : Cell} (h : ∀ i < t.size, e i = d i + if i = j then x else 0) :
    (t.raise d).bump j x = t.raise e := by
  refine eq_raise (by simp) (by simp) fun i hi => ?_
  rw [bump_eq_put, cell_put, size_raise, h i hi]
  by_cases hij : i = j
  · subst hij
    rw [if_pos ⟨rfl, hi⟩, if_pos rfl, cell_raise hi, UInt8.add_assoc]
  · rw [if_neg fun hj => hij hj.1.symm, if_neg hij, cell_raise hi, UInt8.add_zero]

end Tape

namespace Session

/-- Where the pointer of a session is in front of the instruction of index `k`, if the instructions
before it are carried out one after another. -/
def addressAt (s : Session) (k : ℕ) : Address :=
  s.machine.program.addressAt s.machine.pointer k

/-- What the first `k` instructions add to the cell of index `c`. -/
def total (s : Session) (k c : ℕ) : ℤ :=
  ∑ i ∈ Finset.range k with s.machine.tape.resolve (s.addressAt i) = .ok c,
    s.machine.program.amountAt i

/-- The session as the first `k` instructions of its program leave it, if they are changes and
moves. -/
def along (s : Session) (k : ℕ) : Session where
  machine := { s.machine with
    tape := s.machine.tape.raise fun c => Cell.ofInt (s.total k c)
    pointer := s.addressAt k
    counter := k }
  console := s.console

/-- Every change among the first `k` instructions finds a cell under the pointer. -/
def Named (s : Session) (k : ℕ) : Prop :=
  ∀ i < k, s.machine.program.ChangesAt i → ∃ j, s.machine.tape.resolve (s.addressAt i) = .ok j

variable {observe : Observer σ} {s : Session} {i : Instruction} {k : ℕ}

/-! ### One instruction -/

theorem total_succ (s : Session) (k c : ℕ) : s.total (k + 1) c = s.total k c +
    if s.machine.tape.resolve (s.addressAt k) = .ok c then s.machine.program.amountAt k else 0 := by
  rw [total, Finset.sum_filter, Finset.sum_range_succ, ← Finset.sum_filter, total]

theorem along_zero (h : s.machine.counter = 0) : s.along 0 = s := by
  obtain ⟨⟨p, t, a, n, e⟩, console⟩ := s
  obtain rfl : n = 0 := h
  have htape : t.raise (fun c => Cell.ofInt (total ⟨⟨p, t, a, 0, e⟩, console⟩ 0 c)) = t :=
    t.raise_zero
  simp only [along, addressAt, Program.addressAt_zero, htape]

theorem eq_along {t : Tape} {a : Address} (ht : t = (s.along k).machine.tape)
    (ha : a = s.addressAt k) :
    (⟨{ s.machine with tape := t, pointer := a, counter := k }, s.console⟩ : Session) =
      s.along k := by
  rw [ht, ha]
  rfl

/-- A change adds its amount to the cell under the pointer. -/
theorem tape_along_succ_of_change {j : ℕ} {sign : Sign} {text : String}
    (hi : s.machine.program[k]? = some (.change sign text))
    (hj : s.machine.tape.resolve (s.addressAt k) = .ok j) :
    (s.along k).machine.tape.bump j (Cell.ofInt (delta text)) = (s.along (k + 1)).machine.tape := by
  refine Tape.bump_raise fun c _ => ?_
  rw [total_succ, Cell.ofInt_add, Program.amountAt_of_getElem? hi, hj]
  by_cases hcj : c = j
  · subst hcj
    rw [if_pos rfl, if_pos rfl, Instruction.amount]
  · rw [if_neg hcj, if_neg fun h => hcj (Except.ok.inj h).symm]
    rfl

/-- A move adds nothing. -/
theorem tape_along_succ_of_move (hi : s.machine.program[k]? = some i) (hamount : i.amount = 0) :
    (s.along (k + 1)).machine.tape = (s.along k).machine.tape := by
  have htotal : s.total (k + 1) = s.total k := by
    funext c
    rw [total_succ, Program.amountAt_of_getElem? hi, hamount, ite_self, add_zero]
  rw [along, htotal]
  rfl

/-- **One instruction of a straight-line program.** A move does not fail, and a change does not if
there is a cell under the pointer. -/
theorem step_along (hi : s.machine.program[k]? = some i) (hstraight : i.isStraight = true)
    (hnamed : s.machine.program.ChangesAt k →
      ∃ j, s.machine.tape.resolve (s.addressAt k) = .ok j) :
    (s.along k).step = .ok () (s.along (k + 1)) := by
  have hcurrent : (s.along k).machine.current? = some i := hi
  have haddress : s.addressAt (k + 1) = i.moved (s.addressAt k) :=
    Program.addressAt_succ hi s.machine.pointer
  rw [step_of_current? hcurrent]
  cases i with
  | change sign text =>
    obtain ⟨j, hj⟩ := hnamed ⟨sign, text, hi⟩
    have hresolve : (s.along k).machine.tape.resolve (s.along k).machine.pointer = .ok j :=
      (Tape.resolve_raise ..).trans hj
    have hbump := tape_along_succ_of_change hi hj
    simp only [perform, addCell, hresolve]
    exact congrArg _ (eq_along (s := s) (k := k + 1) hbump haddress.symm)
  | right | left =>
    have htape := (tape_along_succ_of_move hi rfl).symm
    exact congrArg _ (eq_along (s := s) (k := k + 1) htape haddress.symm)
  | loopStart | loopEnd | read | print => cases hstraight

/-! ### The run -/

/-- The part of a run before a change that finds no cell under the pointer. -/
theorem exists_execute_eq_along (hobserve : ∀ m a, (observe m a).1 = .proceed) (a : σ)
    (hp : s.machine.program.Straight) (hstart : s.machine.counter = 0)
    (hk : k ≤ s.machine.program.size) (hnamed : s.Named k) :
    ∃ b, ∀ n, s.execute observe (k + n) a = (s.along k).execute observe n b := by
  induction k with
  | zero => exact ⟨a, fun n => by rw [along_zero hstart, Nat.zero_add]⟩
  | succ k ih =>
    obtain ⟨b, hb⟩ := ih (by omega) fun i hi => hnamed i (by omega)
    have hi : s.machine.program[k]? = some s.machine.program[k] := Array.getElem?_eq_getElem hk
    have hcurrent : (s.along k).machine.current? = some s.machine.program[k] := hi
    have hstep := step_along hi (hp _ (Array.getElem_mem hk)) (hnamed k (Nat.lt_succ_self k))
    have ho := Observer.eq_proceed hobserve ((s.along k).machine.moment s.machine.program[k]) b
    exact ⟨_, fun n => by
      rw [Nat.add_right_comm, Nat.add_assoc, hb, execute_of_step hcurrent ho hstep]⟩

/-- If every change finds a cell, the run ends behind the last instruction. -/
theorem execute_of_named (hobserve : ∀ m a, (observe m a).1 = .proceed) (a : σ)
    (hp : s.machine.program.Straight) (hstart : s.machine.counter = 0)
    (hnamed : s.Named s.machine.program.size) {fuel : ℕ} (hfuel : s.machine.program.size ≤ fuel) :
    ∃ b, s.execute observe fuel a = ⟨.stopped (Fault.ofFlush s.console.nextFlush), b,
      { s.along s.machine.program.size with console := s.console.flushed }⟩ := by
  obtain ⟨b, hb⟩ := exists_execute_eq_along hobserve a hp hstart (Nat.le_refl _) hnamed
  obtain ⟨n, rfl⟩ := Nat.exists_eq_add_of_le hfuel
  have hfinished : (s.along s.machine.program.size).machine.current? = none :=
    Array.getElem?_eq_none (Nat.le_refl _)
  refine ⟨b, ?_⟩
  rw [hb, execute_of_finished hfinished, finish_eq_flushed]
  rfl

/-- The run fails at the first change that finds no cell. -/
theorem execute_of_not_named (hobserve : ∀ m a, (observe m a).1 = .proceed) (a : σ)
    (hp : s.machine.program.Straight) (hstart : s.machine.counter = 0) (hnamed : s.Named k)
    (hk : s.machine.program.ChangesAt k) {e : AddressError}
    (he : s.machine.tape.resolve (s.addressAt k) = .error e) {fuel : ℕ} (hfuel : k < fuel) :
    ∃ b, s.execute observe fuel a = ⟨.stopped (.error (.address e)), b, s.along k⟩ := by
  obtain ⟨sign, text, hi⟩ := hk
  have hcurrent : (s.along k).machine.current? = some (.change sign text) := hi
  have hle : k ≤ s.machine.program.size := (Machine.counter_lt_of_current? hcurrent).le
  obtain ⟨b, hb⟩ := exists_execute_eq_along hobserve a hp hstart hle hnamed
  obtain ⟨n, rfl⟩ := Nat.exists_eq_add_of_lt hfuel
  have hresolve : (s.along k).machine.tape.resolve (s.along k).machine.pointer = .error e :=
    (Tape.resolve_raise ..).trans he
  have hstep : (s.along k).step = .error (.address e) (s.along k) := by
    rw [step_of_current? hcurrent]
    simp only [perform, addCell, hresolve]
  have ho := Observer.eq_proceed hobserve ((s.along k).machine.moment (.change sign text)) b
  exact ⟨_, by rw [Nat.add_assoc, hb, execute_of_fault hcurrent ho hstep]⟩

/-! ### What the run leaves -/

/-- What `k` instructions make of the session `s` that are changes and moves: the counter is behind
them, the pointer is where the moves have taken it, and to each cell the sum for its index is added,
modulo `256`. -/
structure Raised (s : Session) (k : ℕ) (sum : ℕ → ℤ) (u : Session) : Prop where
  setting : SameSetting s u
  counter : u.machine.counter = k
  pointer : u.machine.pointer = s.addressAt k
  cell : ∀ c < s.machine.tape.size, ((u.machine.tape.cell c).toNat : ℤ) =
    ((s.machine.tape.cell c).toNat + sum c) % 256

theorem raised_along (s : Session) (k : ℕ) (console : Console) {sum : ℕ → ℤ}
    (hsum : ∀ c < s.machine.tape.size, s.total k c = sum c) :
    s.Raised k sum { s.along k with console } where
  setting := ⟨rfl, rfl, Tape.size_raise .., rfl⟩
  counter := rfl
  pointer := rfl
  cell c hc := by
    have hcell : (s.along k).machine.tape.cell c =
        Cell.ofInt ((s.machine.tape.cell c).toNat + sum c) := by
      rw [along, Tape.cell_raise hc, hsum c hc, Cell.ofInt_add, Cell.ofInt_toNat]
    show (((s.along k).machine.tape.cell c).toNat : ℤ) = _
    rw [hcell, Cell.toNat_ofInt]

theorem total_of_wrap (hwrap : s.machine.tape.policy = .wrap) (k c : ℕ) : s.total k c =
    ∑ i ∈ Finset.range k with (s.addressAt i).toInt % s.machine.tape.size = c,
      s.machine.program.amountAt i := by
  simp only [total, Tape.resolve_eq_ok_iff_of_wrap hwrap]

theorem total_of_error (herror : s.machine.tape.policy = .error) (k : ℕ) {c : ℕ}
    (hc : c < s.machine.tape.size) : s.total k c =
    ∑ i ∈ Finset.range k with (s.addressAt i).toInt = c, s.machine.program.amountAt i := by
  simp only [total, Tape.resolve_eq_ok_iff_of_error herror hc]

/-- The first change at which the pointer is outside the tape. -/
theorem exists_first_outside
    (h : ¬ ∀ i, s.machine.program.ChangesAt i → s.machine.tape.Inside (s.addressAt i)) :
    ∃ k e, s.machine.program.ChangesAt k ∧ s.machine.tape.Outside (s.addressAt k) e ∧
      ∀ i < k, s.machine.program.ChangesAt i → s.machine.tape.Inside (s.addressAt i) := by
  classical
  obtain ⟨hchange, hout⟩ := Classical.not_imp.1 (Nat.find_spec (Classical.not_forall.1 h))
  obtain ⟨e, he⟩ := (s.machine.tape.inside_or_outside _).resolve_left hout
  exact ⟨_, e, hchange, he, fun i hi => Classical.not_not.1 (Nat.find_min _ hi)⟩

/-- **A straight-line program in closed form.** Let a program of changes and moves run from its
first instruction, on any tape and from any pointer, with an observer that never stops the run and a
writer whose flush succeeds. The pointer in front of an instruction is the pointer at the start
plus the moves to the right and minus the moves to the left, wrapped to the range of the addresses.

On a circle the run comes to its end within as many instructions as the program has, and has added
to each cell the amounts of the changes whose address is the index of the cell modulo the size. So
it does where addresses are checked, with the addresses themselves, if the pointer is inside the
tape at every change. If it is not, the run fails at the first change where it is outside, with the
error for the side, and the amounts of the changes before have been added. The console is left as it
is, but for the flush at the end. -/
theorem execute_straight (hobserve : ∀ m a, (observe m a).1 = .proceed) (a : σ) (s : Session)
    (hp : s.machine.program.Straight) (hstart : s.machine.counter = 0)
    (hflush : s.console.nextFlush = none) :
    let p := s.machine.program
    let t := s.machine.tape
    (t.policy = .wrap → ∀ fuel ≥ p.size,
      let r := s.execute observe fuel a
      r.status = .stopped (.ok ()) ∧ r.session.console = s.console.flushed ∧
      s.Raised p.size (fun c => ∑ i ∈ Finset.range p.size with (s.addressAt i).toInt % t.size = c,
        p.amountAt i) r.session) ∧
    (t.policy = .error → (∀ i, p.ChangesAt i → t.Inside (s.addressAt i)) → ∀ fuel ≥ p.size,
      let r := s.execute observe fuel a
      r.status = .stopped (.ok ()) ∧ r.session.console = s.console.flushed ∧
      s.Raised p.size (fun c => ∑ i ∈ Finset.range p.size with (s.addressAt i).toInt = c,
        p.amountAt i) r.session) ∧
    (t.policy = .error → (¬ ∀ i, p.ChangesAt i → t.Inside (s.addressAt i)) →
      ∃ k e, p.ChangesAt k ∧ t.Outside (s.addressAt k) e ∧
        (∀ i < k, p.ChangesAt i → t.Inside (s.addressAt i)) ∧
        ∀ fuel > k,
          let r := s.execute observe fuel a
          r.status = .stopped (.error (.address e)) ∧ r.session.console = s.console ∧
          s.Raised k (fun c => ∑ i ∈ Finset.range k with (s.addressAt i).toInt = c,
            p.amountAt i) r.session) := by
  intro p t
  refine ⟨fun hwrap fuel hfuel => ?_, fun herror hinside fuel hfuel => ?_, fun herror hout => ?_⟩
  · have hnamed : s.Named p.size := fun i _ _ => ⟨_, Tape.resolve_wrap hwrap _⟩
    obtain ⟨b, hb⟩ := execute_of_named hobserve a hp hstart hnamed hfuel
    rw [hb, hflush]
    exact ⟨rfl, rfl, s.raised_along _ _ fun c _ => total_of_wrap hwrap _ c⟩
  · have hnamed : s.Named p.size := fun i _ hi => ⟨_, Tape.resolve_of_inside (hinside i hi)⟩
    obtain ⟨b, hb⟩ := execute_of_named hobserve a hp hstart hnamed hfuel
    rw [hb, hflush]
    exact ⟨rfl, rfl, s.raised_along _ _ fun c hc => total_of_error herror _ hc⟩
  · obtain ⟨k, e, hk, he, hbefore⟩ := exists_first_outside hout
    refine ⟨k, e, hk, he, hbefore, fun fuel hfuel => ?_⟩
    have hnamed : s.Named k := fun i hi hchange =>
      ⟨_, Tape.resolve_of_inside (hbefore i hi hchange)⟩
    have hresolve := Tape.resolve_eq_error_iff.2 ⟨herror, he⟩
    obtain ⟨b, hb⟩ := execute_of_not_named hobserve a hp hstart hnamed hk hresolve hfuel
    rw [hb]
    exact ⟨rfl, rfl, s.raised_along _ _ fun c hc => total_of_error herror _ hc⟩

/-- Adds two to the first of three cells, takes one from the cell to the left of it, and adds one to
the cell to the left of that one. -/
def overTheEdge (policy : PointerPolicy) : Session where
  machine := {
    program := #[.change .plus "이구우우욱", .left, .change .minus "이구구국", .left,
      .change .plus "이구우욱"]
    tape := Tape.new 3 policy }
  console := {}

/-- On a circle the third instruction changes the last cell; where addresses are checked it
fails. -/
theorem execute_straight_overTheEdge :
    let wrapped := (overTheEdge .wrap).execute Observer.silent 5 ()
    let checked := (overTheEdge .error).execute Observer.silent 5 ()
    (∀ m a, (Observer.silent m a).1 = .proceed) ∧
    (∀ policy, (overTheEdge policy).machine.program.Straight ∧
      (overTheEdge policy).machine.counter = 0 ∧ (overTheEdge policy).console.nextFlush = none) ∧
    (wrapped.status = .stopped (.ok ()) ∧ wrapped.session.machine.pointer = -2 ∧
      ((wrapped.session.machine.tape.cell 2).toNat : ℤ) = 255) ∧
    ∃ k e, (overTheEdge .error).machine.program.ChangesAt k ∧
      (overTheEdge .error).machine.tape.Outside ((overTheEdge .error).addressAt k) e ∧
      checked.status = .stopped (.error (.address e)) ∧ checked.session.machine.counter = k := by
  intro wrapped checked
  have hsilent : ∀ m a, (Observer.silent m a).1 = .proceed := fun _ _ => rfl
  have hstraight (policy : PointerPolicy) : (overTheEdge policy).machine.program.Straight := by
    cases policy <;> decide
  refine ⟨hsilent, fun policy => ⟨hstraight policy, rfl, rfl⟩, ?_, ?_⟩
  · obtain ⟨hwrap, -, -⟩ := execute_straight hsilent () (overTheEdge .wrap) (hstraight _) rfl rfl
    obtain ⟨hok, -, hraised⟩ := hwrap rfl 5 (by decide)
    have hcell := hraised.cell 2 (by decide)
    exact ⟨hok, hraised.pointer.trans (by decide), hcell.trans (by decide)⟩
  · obtain ⟨-, -, hout⟩ := execute_straight hsilent () (overTheEdge .error) (hstraight _) rfl rfl
    obtain ⟨k, e, hk, he, -, hfails⟩ := hout rfl fun h =>
      absurd (h 2 ⟨.minus, "이구구국", rfl⟩).1 (by decide)
    obtain ⟨sign, text, hi⟩ := hk
    obtain ⟨hstatus, -, hraised⟩ := hfails 5 (Array.getElem?_eq_some_iff.1 hi).1
    exact ⟨k, e, ⟨sign, text, hi⟩, he, hstatus, hraised.counter⟩

end Session

end PhraseTape
