import PhraseTape.Address
import PhraseTape.Cell
import PhraseTape.Settings

/-!
# The tape

A tape is a fixed number of cells, at least one, together with the policy that says which cell an
address names. A tape is seen through `Tape.cell`, which reads a cell by its index; every
operation has one equation through this view.

## Main definitions

* `Tape`, `Tape.new` : tapes, and the tape of zeros.
* `Tape.cell`, `Tape.put` : reading and writing by index.
* `Tape.resolve` : the index named by an address.
* `Tape.get`, `Tape.set`, `Tape.add`, `Tape.isZeroAt` : access through an address.
* `Tape.nonzeroCells` : the cells that do not hold zero, in order.

## Main results

* `Tape.cell_put` : writing changes one cell.
* `Tape.resolve_lt`, `Tape.resolve_put` : an address names a cell of the tape, and which one does
  not depend on what the cells hold.
* `Tape.resolve_eq_error_iff`, `Tape.resolve_wrap` : when an address names no cell.
* `Tape.resolve_eq_ok_iff_of_wrap`, `Tape.resolve_eq_ok_iff_of_error` : which cell an address names.
-/

namespace PhraseTape

/-- A tape: its cells, and what an address outside them means. -/
structure Tape where
  cells : Array Cell
  policy : PointerPolicy
  /-- There is a cell. -/
  size_pos : 0 < cells.size

namespace Tape

/-- The tape of `capacity` zeros, or of a single zero if no cell is asked for. -/
def new (capacity : Nat) (policy : PointerPolicy) : Tape where
  cells := Array.replicate (max capacity 1) 0
  policy := policy
  size_pos := by rw [Array.size_replicate]; omega

/-- The number of cells. -/
def size (t : Tape) : Nat :=
  t.cells.size

/-- The cell at an index; outside the tape every cell is zero. -/
def cell (t : Tape) (i : Nat) : Cell :=
  t.cells.getD i 0

/-- The tape with `v` at index `i`; outside the tape nothing is written. -/
def put (t : Tape) (i : Nat) (v : Cell) : Tape where
  cells := t.cells.setIfInBounds i v
  policy := t.policy
  size_pos := by rw [Array.size_setIfInBounds]; exact t.size_pos

/-- The tape with `d` added to the cell at index `i`. -/
def bump (t : Tape) (i : Nat) (d : Cell) : Tape where
  cells := t.cells.modify i (· + d)
  policy := t.policy
  size_pos := by rw [Array.size_modify]; exact t.size_pos

/-! ### The view by index -/

@[simp] theorem size_new (capacity : Nat) (policy : PointerPolicy) :
    (new capacity policy).size = max capacity 1 :=
  Array.size_replicate

@[simp] theorem policy_new (capacity : Nat) (policy : PointerPolicy) :
    (new capacity policy).policy = policy :=
  rfl

@[simp] theorem cell_new (capacity : Nat) (policy : PointerPolicy) (i : Nat) :
    (new capacity policy).cell i = 0 := by
  simp only [cell, new, Array.getD_eq_getD_getElem?, Array.getElem?_replicate]
  split <;> rfl

theorem cell_of_size_le {t : Tape} {i : Nat} (h : t.size ≤ i) : t.cell i = 0 := by
  simp only [cell, Array.getD_eq_getD_getElem?]
  rw [Array.getElem?_eq_none h]
  rfl

@[simp] theorem size_put (t : Tape) (i : Nat) (v : Cell) : (t.put i v).size = t.size :=
  Array.size_setIfInBounds

@[simp] theorem policy_put (t : Tape) (i : Nat) (v : Cell) : (t.put i v).policy = t.policy :=
  rfl

/-- Writing at an index of the tape changes that cell and no other. -/
theorem cell_put (t : Tape) (i : Nat) (v : Cell) (j : Nat) :
    (t.put i v).cell j = if i = j ∧ i < t.size then v else t.cell j := by
  simp only [cell, put, size, Array.getD_eq_getD_getElem?, Array.getElem?_setIfInBounds]
  by_cases hij : i = j
  · subst hij
    by_cases hi : i < t.cells.size <;> simp [hi]
  · simp [hij]

/-- Two tapes of the same size and policy with the same cells are equal. -/
theorem ext_cell {s t : Tape} (hs : s.size = t.size) (hp : s.policy = t.policy)
    (h : ∀ i, s.cell i = t.cell i) : s = t := by
  obtain ⟨sc, sp, sz⟩ := s
  obtain ⟨tc, tp, tz⟩ := t
  obtain rfl : sp = tp := hp
  have hc : sc = tc := by
    apply Array.ext hs
    intro i hi hi'
    have := h i
    simp only [cell, Array.getD_eq_getD_getElem?, Array.getElem?_eq_getElem hi,
      Array.getElem?_eq_getElem hi', Option.getD_some] at this
    exact this
  subst hc
  rfl

/-- Adding to a cell is writing the sum. -/
theorem bump_eq_put (t : Tape) (i : Nat) (d : Cell) : t.bump i d = t.put i (t.cell i + d) := by
  refine ext_cell ?_ rfl fun j => ?_
  · simp [size, bump, put]
  · rw [cell_put]
    simp only [cell, bump, size, Array.getD_eq_getD_getElem?, Array.getElem?_modify]
    by_cases hij : i = j
    · subst hij
      by_cases hi : i < t.cells.size <;> simp [hi]
    · simp [hij]

@[simp] theorem size_bump (t : Tape) (i : Nat) (d : Cell) : (t.bump i d).size = t.size :=
  Array.size_modify

@[simp] theorem policy_bump (t : Tape) (i : Nat) (d : Cell) : (t.bump i d).policy = t.policy :=
  rfl

/-! ### Addresses -/

/-- The index of the cell named by an address. Where the policy refuses addresses outside the
tape the error says on which side the address lies; where the tape is a circle every address
names a cell. -/
def resolve (t : Tape) (a : Address) : Except AddressError Nat :=
  match t.policy with
  | .error =>
    match a.index? with
    | .ok i => if i < t.size then .ok i else .error .pastEnd
    | .error e => .error e
  | .wrap => .ok (a.toInt % t.size).toNat

/-- The cell named by an address. -/
def get (t : Tape) (a : Address) : Except AddressError Cell :=
  (t.resolve a).map t.cell

/-- The tape with `v` in the cell named by an address. -/
def set (t : Tape) (a : Address) (v : Cell) : Except AddressError Tape :=
  (t.resolve a).map fun i => t.put i v

/-- The tape with `d` added to the cell named by an address. -/
def add (t : Tape) (a : Address) (d : Cell) : Except AddressError Tape :=
  (t.resolve a).map fun i => t.bump i d

/-- Whether the cell named by an address is zero. -/
def isZeroAt (t : Tape) (a : Address) : Except AddressError Bool :=
  (t.get a).map Cell.isZero

/-- Which cell an address names depends on the size and the policy only. -/
theorem resolve_congr {s t : Tape} (hs : s.size = t.size) (hp : s.policy = t.policy)
    (a : Address) : s.resolve a = t.resolve a := by
  simp only [resolve, hs, hp]

@[simp] theorem resolve_put (t : Tape) (i : Nat) (v : Cell) (a : Address) :
    (t.put i v).resolve a = t.resolve a :=
  resolve_congr (size_put ..) (policy_put ..) a

/-- On a circle every address names the cell at its remainder. -/
theorem resolve_wrap {t : Tape} (h : t.policy = .wrap) (a : Address) :
    t.resolve a = .ok (a.toInt % t.size).toNat := by
  simp [resolve, h]

/-- Where addresses are checked, an address inside the tape names the cell of that index. -/
theorem resolve_error_of_inside {t : Tape} (h : t.policy = .error) {a : Address}
    (h₀ : 0 ≤ a.toInt) (h₁ : a.toInt < t.size) : t.resolve a = .ok a.toInt.toNat := by
  simp only [resolve, h, Address.index?_of_nonneg h₀]
  rw [if_pos (by omega)]

theorem resolve_error_of_neg {t : Tape} (h : t.policy = .error) {a : Address}
    (h₀ : a.toInt < 0) : t.resolve a = .error .beforeStart := by
  simp [resolve, h, Address.index?_of_neg h₀]

theorem resolve_error_of_size_le {t : Tape} (h : t.policy = .error) {a : Address}
    (h₁ : (t.size : Int) ≤ a.toInt) : t.resolve a = .error .pastEnd := by
  have h₀ : 0 ≤ a.toInt := by omega
  simp only [resolve, h, Address.index?_of_nonneg h₀]
  rw [if_neg (by omega)]

/-- An address that names a cell names one of the tape. -/
theorem resolve_lt {t : Tape} {a : Address} {i : Nat} (h : t.resolve a = .ok i) :
    i < t.size := by
  have hpos : 0 < t.size := t.size_pos
  cases hp : t.policy with
  | wrap =>
    rw [resolve_wrap hp, Except.ok.injEq] at h
    have := Int.emod_lt_of_pos a.toInt (b := t.size) (by omega)
    omega
  | error =>
    by_cases h₀ : a.toInt < 0
    · rw [resolve_error_of_neg hp h₀] at h
      cases h
    · by_cases h₁ : a.toInt < t.size
      · rw [resolve_error_of_inside hp (by omega) h₁, Except.ok.injEq] at h
        omega
      · rw [resolve_error_of_size_le hp (by omega)] at h
        cases h

/-- An address names no cell exactly when it is outside a tape on which addresses are checked,
and the error names the side. -/
theorem resolve_eq_error_iff {t : Tape} {a : Address} {e : AddressError} :
    t.resolve a = .error e ↔ t.policy = .error ∧
      (e = .beforeStart ∧ a.toInt < 0 ∨ e = .pastEnd ∧ (t.size : Int) ≤ a.toInt) := by
  cases hp : t.policy with
  | wrap => simp [resolve_wrap hp]
  | error =>
    have hpos : 0 < t.size := t.size_pos
    by_cases h₀ : a.toInt < 0
    · rw [resolve_error_of_neg hp h₀]
      cases e <;> simp <;> omega
    · by_cases h₁ : a.toInt < t.size
      · rw [resolve_error_of_inside hp (by omega) h₁]
        simp
        omega
      · rw [resolve_error_of_size_le hp (by omega)]
        cases e <;> simp <;> omega

/-- On a circle an address names the cell of its remainder, and no other. -/
theorem resolve_eq_ok_iff_of_wrap {t : Tape} (hp : t.policy = .wrap) {a : Address} {i : Nat} :
    t.resolve a = .ok i ↔ a.toInt % t.size = i := by
  have hpos : 0 < t.size := t.size_pos
  have := Int.emod_nonneg a.toInt (b := t.size) (by omega)
  rw [resolve_wrap hp, Except.ok.injEq]
  omega

/-- Where addresses are checked, an address names the cell of its own index, and no other. -/
theorem resolve_eq_ok_iff_of_error {t : Tape} (hp : t.policy = .error) {a : Address} {i : Nat}
    (hi : i < t.size) : t.resolve a = .ok i ↔ a.toInt = i := by
  by_cases h₀ : a.toInt < 0
  · rw [resolve_error_of_neg hp h₀]
    exact iff_of_false nofun (by omega)
  · by_cases h₁ : a.toInt < t.size
    · rw [resolve_error_of_inside hp (by omega) h₁, Except.ok.injEq]
      omega
    · rw [resolve_error_of_size_le hp (by omega)]
      exact iff_of_false nofun (by omega)

/-! ### Listing -/

/-- The cells that do not hold zero, with their indices in increasing order. -/
def nonzeroCells (t : Tape) : List (Nat × Cell) :=
  (t.cells.toList.zipIdx.filter fun p => !p.1.isZero).map fun p => (p.2, p.1)

end Tape

end PhraseTape
