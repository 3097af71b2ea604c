import PhraseTape.Program

/-!
# Where the jumps lead

A jump forward leads to the first loop end at or after the place it starts from, and a jump back
to the last loop start at or before it. Without a partner the jumps lead to the last index and to
zero. Both are determined by the instructions between the place and the target, so a jump that
finds its partner in a part of a program finds the same partner in the whole program.

## Main definitions

* `Program.target` : where an instruction jumps to, if it jumps.
* `Program.StartsAnswered`, `Program.EndsAnswered` : every loop instruction of one kind has a
  partner in its direction.

## Main results

* `Program.loopEndFrom_eq`, `Program.loopStartTo_eq` : the targets, by the instructions passed.
* `Program.target_append_left`, `Program.target_append_right` : jumps inside the two parts of a
  program.
-/

namespace PhraseTape

namespace Program

variable {p q : Program} {i j k : Nat}

/-- No loop end is passed by a jump forward. -/
theorem ne_loopEnd_of_lt_loopEndFrom (hik : i ≤ k) (hk : k < p.loopEndFrom i) :
    p[k]? ≠ some .loopEnd := by
  intro h
  obtain ⟨-, -, hle⟩ := getElem?_loopEndFrom hik h
  omega

/-- No loop start is passed by a jump back. -/
theorem ne_loopStart_of_loopStartTo_lt (hki : k ≤ i) (hk : p.loopStartTo i < k) :
    p[k]? ≠ some .loopStart := by
  intro h
  obtain ⟨-, hle, -⟩ := getElem?_loopStartTo hki h
  omega

/-- A jump forward leads to the loop end before which there is none. -/
theorem loopEndFrom_eq (hij : i ≤ j) (hj : p[j]? = some .loopEnd)
    (hbefore : ∀ k, i ≤ k → k < j → p[k]? ≠ some .loopEnd) : p.loopEndFrom i = j := by
  obtain ⟨hend, hle, hle'⟩ := getElem?_loopEndFrom hij hj
  exact Nat.le_antisymm hle' (Nat.le_of_not_lt fun hlt => hbefore _ hle hlt hend)

/-- A jump back leads to the loop start behind which there is none. -/
theorem loopStartTo_eq (hji : j ≤ i) (hj : p[j]? = some .loopStart)
    (hbehind : ∀ k, j < k → k ≤ i → p[k]? ≠ some .loopStart) : p.loopStartTo i = j := by
  obtain ⟨hstart, hle, hle'⟩ := getElem?_loopStartTo hji hj
  exact Nat.le_antisymm (Nat.le_of_not_lt fun hlt => hbehind _ hlt hle' hstart) hle

/-- Without a loop end ahead a jump forward leads to the last index. -/
theorem loopEndFrom_eq_of_forall_ne (h : ∀ k, i ≤ k → p[k]? ≠ some .loopEnd) :
    p.loopEndFrom i = p.size - 1 := by
  fun_induction loopEndFrom p i with
  | case1 i hi hend =>
    have hi' := h i (Nat.le_refl i)
    rw [Array.getElem?_eq_getElem hi, Instruction.isLoopEnd_iff.1 hend] at hi'
    exact absurd rfl hi'
  | case2 i hi hend ih => exact ih fun k hk => h k (by omega)
  | case3 i hi => rfl

/-- The place below which there is a loop start, or zero. -/
theorem loopStartBelow_eq_zero_or (p : Program) :
    (n : Nat) → p.loopStartBelow n = 0 ∨ p[p.loopStartBelow n]? = some .loopStart
  | 0 => .inl rfl
  | n + 1 => by
    rw [loopStartBelow]
    split
    next h =>
      obtain ⟨x, hx, hstart⟩ := (Option.any_eq_true ..).1 h
      rw [Instruction.isLoopStart_iff.1 hstart] at hx
      exact .inr hx
    next => exact p.loopStartBelow_eq_zero_or n

/-- Without a loop start behind it a jump back leads to zero. -/
theorem loopStartTo_eq_zero_of_forall_ne (h : ∀ k, k ≤ i → p[k]? ≠ some .loopStart) :
    p.loopStartTo i = 0 :=
  (p.loopStartBelow_eq_zero_or _).resolve_right (h _ (p.loopStartTo_le i))

/-! ### The parts of a program -/

/-- Where an instruction at `n` jumps to, if it jumps. -/
def target (p : Program) (i : Instruction) (n : Nat) : Nat :=
  match i with
  | .loopStart => p.loopEndFrom n
  | .loopEnd => p.loopStartTo n
  | _ => n

/-- Behind every loop start there is a loop end. -/
def StartsAnswered (p : Program) : Prop :=
  ∀ i : Nat, p[i]? = some .loopStart → ∃ j : Nat, i ≤ j ∧ p[j]? = some .loopEnd

/-- In front of every loop end there is a loop start. -/
def EndsAnswered (p : Program) : Prop :=
  ∀ i : Nat, p[i]? = some .loopEnd → ∃ j : Nat, j ≤ i ∧ p[j]? = some .loopStart

theorem lt_size_of_getElem? {x : Instruction} (h : p[i]? = some x) : i < p.size :=
  (Array.getElem?_eq_some_iff.1 h).1

instance (p : Program) : Decidable p.StartsAnswered :=
  decidable_of_iff
    (∀ i, i < p.size → p[i]? = some .loopStart → ∃ j, j < p.size ∧ i ≤ j ∧ p[j]? = some .loopEnd)
    ⟨fun h i hi =>
      have ⟨j, _, hij, hj⟩ := h i (lt_size_of_getElem? hi) hi
      ⟨j, hij, hj⟩,
    fun h i _ hi =>
      have ⟨j, hij, hj⟩ := h i hi
      ⟨j, lt_size_of_getElem? hj, hij, hj⟩⟩

instance (p : Program) : Decidable p.EndsAnswered :=
  decidable_of_iff
    (∀ i, i < p.size → p[i]? = some .loopEnd → ∃ j, j < p.size ∧ j ≤ i ∧ p[j]? = some .loopStart)
    ⟨fun h i hi =>
      have ⟨j, _, hji, hj⟩ := h i (lt_size_of_getElem? hi) hi
      ⟨j, hji, hj⟩,
    fun h i _ hi =>
      have ⟨j, hji, hj⟩ := h i hi
      ⟨j, lt_size_of_getElem? hj, hji, hj⟩⟩

theorem getElem?_append_of_lt (hi : i < p.size) : (p ++ q)[i]? = p[i]? :=
  Array.getElem?_append_left hi

theorem getElem?_append_add (p q : Program) (i : Nat) : (p ++ q)[p.size + i]? = q[i]? := by
  rw [Array.getElem?_append_right (Nat.le_add_right ..), Nat.add_sub_cancel_left]

/-- A jump forward that is answered inside the first part stays there. -/
theorem loopEndFrom_append_left (hij : i ≤ j) (hj : p[j]? = some .loopEnd) :
    (p ++ q).loopEndFrom i = p.loopEndFrom i := by
  obtain ⟨hend, hle, -⟩ := getElem?_loopEndFrom hij hj
  have hlt := lt_size_of_getElem? hend
  refine loopEndFrom_eq hle (by rwa [getElem?_append_of_lt hlt]) fun k hik hk => ?_
  rw [getElem?_append_of_lt (by omega)]
  exact ne_loopEnd_of_lt_loopEndFrom hik hk

/-- A jump back from the first part does not depend on what follows. -/
theorem loopStartTo_append_left (hi : i < p.size) :
    (p ++ q).loopStartTo i = p.loopStartTo i := by
  have hsame : ∀ k, k ≤ i → (p ++ q)[k]? = p[k]? := fun k hk => getElem?_append_of_lt (by omega)
  by_cases h : ∃ j, j ≤ i ∧ p[j]? = some .loopStart
  · obtain ⟨j, hji, hj⟩ := h
    obtain ⟨hstart, -, hle⟩ := getElem?_loopStartTo hji hj
    refine loopStartTo_eq hle (by rwa [hsame _ hle]) fun k hk hki => ?_
    rw [hsame k hki]
    exact ne_loopStart_of_loopStartTo_lt hki hk
  · have hnone : ∀ k, k ≤ i → p[k]? ≠ some .loopStart := fun k hk hk' => h ⟨k, hk, hk'⟩
    rw [loopStartTo_eq_zero_of_forall_ne hnone, loopStartTo_eq_zero_of_forall_ne]
    exact fun k hk => (hsame k hk).symm ▸ hnone k hk

/-- A jump forward from the second part does not depend on what is in front. -/
theorem loopEndFrom_append_right (hi : i < q.size) :
    (p ++ q).loopEndFrom (p.size + i) = p.size + q.loopEndFrom i := by
  have hshift : ∀ k, p.size + i ≤ k → ∃ m, k = p.size + m ∧ i ≤ m := fun k hk =>
    ⟨k - p.size, by omega, by omega⟩
  by_cases h : ∃ j, i ≤ j ∧ q[j]? = some .loopEnd
  · obtain ⟨j, hij, hj⟩ := h
    obtain ⟨hend, hle, -⟩ := getElem?_loopEndFrom hij hj
    refine loopEndFrom_eq (by omega) (by rwa [getElem?_append_add]) fun k hik hk => ?_
    obtain ⟨m, rfl, him⟩ := hshift k hik
    rw [getElem?_append_add]
    exact ne_loopEnd_of_lt_loopEndFrom him (by omega)
  · have hnone : ∀ k, i ≤ k → q[k]? ≠ some .loopEnd := fun k hk hk' => h ⟨k, hk, hk'⟩
    rw [loopEndFrom_eq_of_forall_ne hnone, loopEndFrom_eq_of_forall_ne, Array.size_append]
    · omega
    · intro k hik
      obtain ⟨m, rfl, him⟩ := hshift k hik
      rw [getElem?_append_add]
      exact hnone m him

/-- A jump back that is answered inside the second part stays there. -/
theorem loopStartTo_append_right (hji : j ≤ i) (hj : q[j]? = some .loopStart) :
    (p ++ q).loopStartTo (p.size + i) = p.size + q.loopStartTo i := by
  obtain ⟨hstart, -, hle⟩ := getElem?_loopStartTo hji hj
  refine loopStartTo_eq (by omega) (by rwa [getElem?_append_add]) fun k hk hki => ?_
  obtain ⟨m, rfl⟩ : ∃ m, k = p.size + m := ⟨k - p.size, by omega⟩
  have hm : q.loopStartTo i < m := by omega
  rw [getElem?_append_add]
  exact ne_loopStart_of_loopStartTo_lt (by omega) hm

/-- In the first part of a program the jumps are those of this part, if its loop starts are
answered there. -/
theorem target_append_left (hp : p.StartsAnswered) {x : Instruction} (hi : p[i]? = some x) :
    (p ++ q).target x i = p.target x i := by
  cases x with
  | loopStart =>
    obtain ⟨j, hij, hj⟩ := hp i hi
    exact loopEndFrom_append_left hij hj
  | loopEnd => exact loopStartTo_append_left (lt_size_of_getElem? hi)
  | _ => rfl

/-- In the second part of a program the jumps are those of this part, if its loop ends are
answered there. -/
theorem target_append_right (hq : q.EndsAnswered) {x : Instruction} (hi : q[i]? = some x) :
    (p ++ q).target x (p.size + i) = p.size + q.target x i := by
  cases x with
  | loopStart => exact loopEndFrom_append_right (lt_size_of_getElem? hi)
  | loopEnd =>
    obtain ⟨j, hji, hj⟩ := hq i hi
    exact loopStartTo_append_right hji hj
  | _ => rfl

/-- An instruction leads to another one of the program. -/
theorem target_lt {x : Instruction} (hi : p[i]? = some x) : p.target x i < p.size := by
  have hlt := lt_size_of_getElem? hi
  cases x with
  | loopStart => exact p.loopEndFrom_lt i (by omega)
  | loopEnd => exact p.loopStartTo_lt i (by omega)
  | _ => exact hlt

end Program

end PhraseTape
