import PhraseTape.Instruction

/-!
# Programs

A program is a sequence of instructions. Loops are not nested: a loop instruction that jumps looks
for the nearest partner in its direction, also when that partner belongs to another loop, and
falls back to an end of the program when there is none.

## Main definitions

* `Program` : sequences of instructions.
* `Program.text` : a program written with one phrase on each line.
* `Program.loopEndFrom`, `Program.loopStartTo` : the targets of the two jumps.

## Main results

* `Program.loopEndFrom_lt`, `Program.le_loopEndFrom`, `Program.loopStartTo_le` : a jump forward
  never goes back, a jump back never goes forward, and neither leaves the program.
* `Program.getElem?_loopEndFrom`, `Program.getElem?_loopStartTo` : where a jump lands on its
  partner.
-/

namespace PhraseTape

/-- A program: its instructions in order. -/
abbrev Program := Array Instruction

namespace Program

/-- The program as text: each phrase is followed by a line break. -/
def text (p : Program) : String :=
  p.foldl (fun written i => written ++ i.text ++ "\n") ""

/-- The first loop end at or after `i`; without one, the last index of the program. -/
def loopEndFrom (p : Program) (i : Nat) : Nat :=
  if h : i < p.size then
    if p[i].isLoopEnd then i else p.loopEndFrom (i + 1)
  else
    p.size - 1
termination_by p.size - i

/-- The last loop start at or before `i`, for an `i` inside the program; without one, zero. -/
def loopStartBelow (p : Program) : Nat → Nat
  | 0 => 0
  | i + 1 => if (p[i + 1]?.any Instruction.isLoopStart) then i + 1 else p.loopStartBelow i

/-- The last loop start at or before `i`; without one, zero. An index past the end searches the
whole program. -/
def loopStartTo (p : Program) (i : Nat) : Nat :=
  p.loopStartBelow (min i (p.size - 1))

/-! ### Bounds of the jumps -/

/-- A jump forward stays inside the program. -/
theorem loopEndFrom_lt (p : Program) (i : Nat) (hp : 0 < p.size) : p.loopEndFrom i < p.size := by
  fun_induction loopEndFrom p i with
  | case1 i h hi => exact h
  | case2 i h hi ih => exact ih
  | case3 i h => omega

/-- A jump forward never goes back. -/
theorem le_loopEndFrom (p : Program) (i : Nat) (hi : i < p.size) : i ≤ p.loopEndFrom i := by
  fun_induction loopEndFrom p i with
  | case1 i h hi => exact Nat.le_refl i
  | case2 i h hi ih =>
    by_cases h' : i + 1 < p.size
    · have := ih h'
      omega
    · rw [loopEndFrom, dif_neg h']
      omega
  | case3 i h => omega

/-- A jump back never goes forward. -/
theorem loopStartBelow_le (p : Program) : (i : Nat) → p.loopStartBelow i ≤ i
  | 0 => Nat.le_refl 0
  | i + 1 => by
    rw [loopStartBelow]
    split
    · exact Nat.le_refl _
    · exact Nat.le_succ_of_le (p.loopStartBelow_le i)

theorem loopStartTo_le (p : Program) (i : Nat) : p.loopStartTo i ≤ i :=
  Nat.le_trans (p.loopStartBelow_le _) (Nat.min_le_left ..)

/-- A jump back stays inside the program. -/
theorem loopStartTo_lt (p : Program) (i : Nat) (hp : 0 < p.size) : p.loopStartTo i < p.size := by
  have h : p.loopStartTo i ≤ p.size - 1 :=
    Nat.le_trans (p.loopStartBelow_le _) (Nat.min_le_right ..)
  omega

/-! ### Where the jumps land -/

/-- If there is a loop end at or after `i`, the jump forward lands on the first one. -/
theorem getElem?_loopEndFrom {p : Program} {i j : Nat} (hij : i ≤ j) (hj : p[j]? = some .loopEnd) :
    p[p.loopEndFrom i]? = some .loopEnd ∧ i ≤ p.loopEndFrom i ∧ p.loopEndFrom i ≤ j := by
  have hlt : j < p.size := (Array.getElem?_eq_some_iff.1 hj).1
  fun_induction loopEndFrom p i with
  | case1 i h hi =>
    exact ⟨by rw [Array.getElem?_eq_getElem h, Instruction.isLoopEnd_iff.1 hi], Nat.le_refl i, hij⟩
  | case2 i h hi ih =>
    have hne : i ≠ j := by
      rintro rfl
      rw [Array.getElem?_eq_getElem h, Option.some.injEq] at hj
      exact hi (Instruction.isLoopEnd_iff.2 hj)
    obtain ⟨h₁, h₂, h₃⟩ := ih (by omega)
    exact ⟨h₁, by omega, h₃⟩
  | case3 i h => omega

/-- If there is a loop start at or before `i`, the jump back lands on the last one. -/
theorem getElem?_loopStartTo {p : Program} {i j : Nat} (hij : j ≤ i)
    (hj : p[j]? = some .loopStart) :
    p[p.loopStartTo i]? = some .loopStart ∧ j ≤ p.loopStartTo i ∧ p.loopStartTo i ≤ i := by
  have hlt : j < p.size := (Array.getElem?_eq_some_iff.1 hj).1
  have key : ∀ n, j ≤ n → p[p.loopStartBelow n]? = some .loopStart ∧ j ≤ p.loopStartBelow n := by
    intro n
    induction n with
    | zero =>
      intro hn
      obtain rfl : j = 0 := by omega
      exact ⟨hj, Nat.le_refl 0⟩
    | succ n ih =>
      intro hn
      rw [loopStartBelow]
      split
      next h =>
        refine ⟨?_, hn⟩
        cases hx : p[n + 1]? with
        | none => simp [hx] at h
        | some x =>
          rw [hx, Option.any_some] at h
          rw [Instruction.isLoopStart_iff.1 h]
      next h =>
        refine ih ?_
        by_cases heq : j = n + 1
        · subst heq
          rw [hj] at h
          exact absurd rfl h
        · omega
  obtain ⟨h₁, h₂⟩ := key (min i (p.size - 1)) (by omega)
  exact ⟨h₁, h₂, p.loopStartTo_le i⟩

end Program

end PhraseTape
