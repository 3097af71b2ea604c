import Mathlib.Order.Bounds.Basic
import Mathlib.Order.Nat
import PhraseTape.Proofs.Program.Jumps

/-!
# The two jumps mirror each other

A jump forward leads to the least index at or after its start at which there is a loop end, and a
jump back to the greatest index at or before its start at which there is a loop start. Seen in a
mirror, with the program reversed and the two kinds of loop instruction exchanged, a jump back is a
jump forward. Neither jump overtakes another one of its kind, and a jump from a target stays there.

## Main definitions

* `Instruction.mirror`, `Program.mirror` : instructions and programs in a mirror.

## Main results

* `Program.loopEndFrom_eq_iff`, `Program.loopStartTo_eq_iff` : the targets, exactly.
* `Program.monotone_loopEndFrom`, `Program.monotone_loopStartTo` : no jump overtakes another.
* `Program.loopStartTo_eq_mirror` : a jump back is a jump forward in the mirror.
* `Program.jumps_exact` : all of this together.
-/

namespace PhraseTape

/-- The instruction with the two kinds of loop instruction exchanged. -/
def Instruction.mirror : Instruction → Instruction
  | .loopStart => .loopEnd
  | .loopEnd => .loopStart
  | i => i

theorem Instruction.mirror_eq_loopEnd_iff {i : Instruction} :
    i.mirror = .loopEnd ↔ i = .loopStart := by
  cases i <;> simp [mirror]

namespace Program

variable {p : Program} {i j : ℕ}

/-- The program in a mirror: reversed, with the two kinds of loop instruction exchanged. -/
def mirror (p : Program) : Program :=
  (p.map Instruction.mirror).reverse

@[simp] theorem size_mirror (p : Program) : p.mirror.size = p.size := by
  simp [mirror]

/-- What is at an index of the mirror is at the opposite index of the program. -/
theorem getElem?_mirror (hi : i < p.size) :
    p.mirror[i]? = (p[p.size - 1 - i]?).map Instruction.mirror := by
  rw [mirror, Array.getElem?_reverse (by simpa using hi), Array.size_map, Array.getElem?_map]

/-- The loop ends of the mirror are the loop starts of the program. -/
theorem getElem?_mirror_eq_loopEnd_iff (hi : i < p.size) :
    p.mirror[i]? = some .loopEnd ↔ p[p.size - 1 - i]? = some .loopStart := by
  rw [getElem?_mirror hi, Option.map_eq_some_iff]
  constructor
  · rintro ⟨x, hx, hmirror⟩
    rwa [Instruction.mirror_eq_loopEnd_iff.1 hmirror] at hx
  · intro h
    exact ⟨_, h, rfl⟩

/-! ### The targets -/

/-- The target of a jump forward is the least loop end at or after its start. -/
theorem isLeast_loopEndFrom (hij : i ≤ j) (hj : p[j]? = some .loopEnd) :
    IsLeast {k | i ≤ k ∧ p[k]? = some .loopEnd} (p.loopEndFrom i) := by
  obtain ⟨hend, hle, -⟩ := getElem?_loopEndFrom hij hj
  refine ⟨⟨hle, hend⟩, ?_⟩
  rintro k ⟨hik, hk⟩
  exact (getElem?_loopEndFrom hik hk).2.2

/-- The target of a jump back is the greatest loop start at or before its start. -/
theorem isGreatest_loopStartTo (hji : j ≤ i) (hj : p[j]? = some .loopStart) :
    IsGreatest {k | k ≤ i ∧ p[k]? = some .loopStart} (p.loopStartTo i) := by
  obtain ⟨hstart, -, hle⟩ := getElem?_loopStartTo hji hj
  refine ⟨⟨hle, hstart⟩, ?_⟩
  rintro k ⟨hki, hk⟩
  exact (getElem?_loopStartTo hki hk).2.1

/-- A jump forward leads to the first loop end from its start on, or to the last index if there is
none. -/
theorem loopEndFrom_eq_iff : p.loopEndFrom i = j ↔
    IsLeast {k | i ≤ k ∧ p[k]? = some .loopEnd} j ∨
      (∀ k, i ≤ k → p[k]? ≠ some .loopEnd) ∧ j = p.size - 1 := by
  constructor
  · rintro rfl
    by_cases h : ∃ k, i ≤ k ∧ p[k]? = some .loopEnd
    · obtain ⟨k, hik, hk⟩ := h
      exact .inl (isLeast_loopEndFrom hik hk)
    · have hnone : ∀ k, i ≤ k → p[k]? ≠ some .loopEnd := fun k hik hk => h ⟨k, hik, hk⟩
      exact .inr ⟨hnone, loopEndFrom_eq_of_forall_ne hnone⟩
  · rintro (h | ⟨hnone, rfl⟩)
    · exact (isLeast_loopEndFrom h.1.1 h.1.2).unique h
    · exact loopEndFrom_eq_of_forall_ne hnone

/-- A jump back leads to the last loop start up to its start, or to zero if there is none. -/
theorem loopStartTo_eq_iff : p.loopStartTo i = j ↔
    IsGreatest {k | k ≤ i ∧ p[k]? = some .loopStart} j ∨
      (∀ k, k ≤ i → p[k]? ≠ some .loopStart) ∧ j = 0 := by
  constructor
  · rintro rfl
    by_cases h : ∃ k, k ≤ i ∧ p[k]? = some .loopStart
    · obtain ⟨k, hki, hk⟩ := h
      exact .inl (isGreatest_loopStartTo hki hk)
    · have hnone : ∀ k, k ≤ i → p[k]? ≠ some .loopStart := fun k hki hk => h ⟨k, hki, hk⟩
      exact .inr ⟨hnone, loopStartTo_eq_zero_of_forall_ne hnone⟩
  · rintro (h | ⟨hnone, rfl⟩)
    · exact (isGreatest_loopStartTo h.1.1 h.1.2).unique h
    · exact loopStartTo_eq_zero_of_forall_ne hnone

/-! ### Several jumps -/

theorem loopEndFrom_le (p : Program) (i : ℕ) : p.loopEndFrom i ≤ p.size - 1 := by
  rcases loopEndFrom_eq_iff.1 (rfl : p.loopEndFrom i = _) with h | ⟨-, h⟩
  · have := lt_size_of_getElem? h.1.2
    omega
  · exact h.le

/-- A jump forward that starts later does not end earlier. -/
theorem monotone_loopEndFrom (p : Program) : Monotone p.loopEndFrom := by
  intro i j hij
  rcases loopEndFrom_eq_iff.1 (rfl : p.loopEndFrom j = _) with h | ⟨-, h⟩
  · have hi := hij.trans h.1.1
    exact (isLeast_loopEndFrom hi h.1.2).2 ⟨hi, h.1.2⟩
  · rw [h]
    exact p.loopEndFrom_le i

/-- A jump back that starts later does not end earlier. -/
theorem monotone_loopStartTo (p : Program) : Monotone p.loopStartTo := by
  intro i j hij
  rcases loopStartTo_eq_iff.1 (rfl : p.loopStartTo i = _) with h | ⟨-, h⟩
  · have hj := h.1.1.trans hij
    exact (isGreatest_loopStartTo hj h.1.2).2 ⟨hj, h.1.2⟩
  · rw [h]
    exact Nat.zero_le _

theorem loopEndFrom_last (p : Program) : p.loopEndFrom (p.size - 1) = p.size - 1 := by
  refine Nat.le_antisymm (p.loopEndFrom_le _) ?_
  by_cases hp : 0 < p.size
  · exact p.le_loopEndFrom _ (by omega)
  · omega

/-- A jump forward from where one has led stays there. -/
theorem loopEndFrom_loopEndFrom (p : Program) (i : ℕ) :
    p.loopEndFrom (p.loopEndFrom i) = p.loopEndFrom i := by
  rcases loopEndFrom_eq_iff.1 (rfl : p.loopEndFrom i = _) with h | ⟨-, h⟩
  · exact loopEndFrom_eq_iff.2 (.inl ⟨⟨le_rfl, h.1.2⟩, fun k hk => hk.1⟩)
  · rw [h, loopEndFrom_last]

/-- A jump back from where one has led stays there. -/
theorem loopStartTo_loopStartTo (p : Program) (i : ℕ) :
    p.loopStartTo (p.loopStartTo i) = p.loopStartTo i := by
  rcases loopStartTo_eq_iff.1 (rfl : p.loopStartTo i = _) with h | ⟨-, h⟩
  · exact loopStartTo_eq_iff.2 (.inl ⟨⟨le_rfl, h.1.2⟩, fun k hk => hk.1⟩)
  · rw [h]
    exact Nat.le_zero.1 (p.loopStartTo_le 0)

/-! ### The mirror -/

/-- A jump back is a jump forward in the mirror. -/
theorem loopStartTo_eq_mirror (hi : i < p.size) :
    p.loopStartTo i = p.size - 1 - p.mirror.loopEndFrom (p.size - 1 - i) := by
  rcases loopStartTo_eq_iff.1 (rfl : p.loopStartTo i = _) with
    ⟨⟨hle, hstart⟩, hgreatest⟩ | ⟨hnone, h⟩
  · have hmirror : p.mirror.loopEndFrom (p.size - 1 - i) = p.size - 1 - p.loopStartTo i := by
      refine loopEndFrom_eq (by omega) ?_ fun k hik hk hend => ?_
      · rw [getElem?_mirror_eq_loopEnd_iff (by omega), Nat.sub_sub_self (by omega)]
        exact hstart
      · -- A loop end passed in the mirror is a loop start behind the greatest one.
        rw [getElem?_mirror_eq_loopEnd_iff (by omega)] at hend
        have hbehind : p.size - 1 - k ≤ p.loopStartTo i := hgreatest ⟨by omega, hend⟩
        omega
    rw [hmirror, Nat.sub_sub_self (by omega)]
  · have hmirror : p.mirror.loopEndFrom (p.size - 1 - i) = p.size - 1 := by
      rw [loopEndFrom_eq_of_forall_ne, size_mirror]
      intro k hik hend
      have hk : k < p.size := by simpa using lt_size_of_getElem? hend
      exact hnone _ (by omega) ((getElem?_mirror_eq_loopEnd_iff hk).1 hend)
    rw [hmirror, h, Nat.sub_self]

/-- **The jumps of a program, exactly.** From any index, inside the program or past its end, a jump
forward leads to the least index from there on at which there is a loop end, and if there is none to
the last index, which counts as zero where there is no instruction. A jump back leads to the
greatest index up to there at which there is a loop start, and if there is none to zero. Both are
monotone, and a second jump of the same kind changes nothing. From inside the program a jump back
is a jump forward in the mirror. -/
theorem jumps_exact (p : Program) :
    (∀ i j, p.loopEndFrom i = j ↔
      IsLeast {k | i ≤ k ∧ p[k]? = some .loopEnd} j ∨
        (∀ k, i ≤ k → p[k]? ≠ some .loopEnd) ∧ j = p.size - 1) ∧
    (∀ i j, p.loopStartTo i = j ↔
      IsGreatest {k | k ≤ i ∧ p[k]? = some .loopStart} j ∨
        (∀ k, k ≤ i → p[k]? ≠ some .loopStart) ∧ j = 0) ∧
    (Monotone p.loopEndFrom ∧ Monotone p.loopStartTo) ∧
    (∀ i, p.loopEndFrom (p.loopEndFrom i) = p.loopEndFrom i ∧
      p.loopStartTo (p.loopStartTo i) = p.loopStartTo i) ∧
    ∀ i, i < p.size → p.loopStartTo i = p.size - 1 - p.mirror.loopEndFrom (p.size - 1 - i) := by
  refine ⟨fun i j => loopEndFrom_eq_iff, fun i j => loopStartTo_eq_iff,
    ⟨p.monotone_loopEndFrom, p.monotone_loopStartTo⟩, fun i => ⟨?_, ?_⟩, fun i hi => ?_⟩
  · exact p.loopEndFrom_loopEndFrom i
  · exact p.loopStartTo_loopStartTo i
  · exact loopStartTo_eq_mirror hi

/-- A loop in a loop, with an instruction behind both. -/
def loopInside : Program :=
  #[.loopStart, .loopStart, .print, .loopEnd, .loopEnd, .print]

/-- A jump forward from the outer loop start leads to the inner loop end, and a jump back from the
outer loop end to the inner loop start, which in the mirror is a jump from `1` to `4`. -/
theorem jumps_exact_loopInside : 4 < loopInside.size ∧ loopInside.loopEndFrom 0 = 3 ∧
    loopInside.loopStartTo 4 = 1 ∧
    loopInside.loopStartTo 4 = 5 - loopInside.mirror.loopEndFrom 1 := by
  obtain ⟨hforward, hback, -, -, hmirror⟩ := jumps_exact loopInside
  refine ⟨by decide, (hforward 0 3).2 (.inl ⟨⟨by decide, rfl⟩, ?_⟩),
    (hback 4 1).2 (.inl ⟨⟨by decide, rfl⟩, ?_⟩), hmirror 4 (by decide)⟩
  · rintro k ⟨-, hk⟩
    by_contra hlt
    have hnot : ∀ k, k < 3 → loopInside[k]? ≠ some .loopEnd := by decide
    exact hnot k (Nat.lt_of_not_le hlt) hk
  · rintro k ⟨hle, hk⟩
    by_contra hlt
    have hnot : ∀ k, k < 5 → 1 < k → loopInside[k]? ≠ some .loopStart := by decide
    exact hnot k (by omega) (Nat.lt_of_not_le hlt) hk

end Program

end PhraseTape
