import Mathlib.Data.Int.ModEq
import PhraseTape.Address
import PhraseTape.Cell

/-!
# Cells and addresses against the integers

A cell is a byte and an address a signed 64-bit number, so a calculation with them is reduced at
every step. Nothing is lost by that except the size of the result: reduction is compatible with
every step, so a calculation may as well be made with integers and reduced once at its end.

## Main definitions

* `Cell.Step`, `Address.Step` : the steps of a calculation with a cell and with an address.
* `Cell.Step.apply`, `Address.Step.apply` : a step, reduced.
* `Cell.Step.exact`, `Address.Step.exact` : the same step made with integers.

## Main results

* `Cell.foldl_apply_ofInt`, `Address.foldl_apply_ofInt` : a calculation is reduced step by step or
  at its end.
* `Address.toInt_ofInt_eq_iff` : the address that an integer is reduced to.
* `calculations_exact` : the results of calculations, by integers.
-/

namespace PhraseTape

/-! ### Cells -/

namespace Cell

/-- A step of a calculation with a cell. A number of any of three widths can be put into the cell;
what is added or taken away has 64 bits, and is made into a cell first. -/
inductive Step where
  | set (v : Int64)
  | setInt (v : Int32)
  | setByte (v : UInt8)
  | add (v : Int64)
  | sub (v : Int64)
  deriving DecidableEq

/-- The cell after a step. -/
def Step.apply : Cell → Step → Cell
  | _, .set v => ofInt v.toInt
  | _, .setInt v => ofInt v.toInt
  | _, .setByte v => v
  | c, .add v => c + ofInt v.toInt
  | c, .sub v => c - ofInt v.toInt

/-- The integer after a step. -/
def Step.exact : ℤ → Step → ℤ
  | _, .set v => v.toInt
  | _, .setInt v => v.toInt
  | _, .setByte v => v.toNat
  | x, .add v => x + v.toInt
  | x, .sub v => x - v.toInt

/-- A step with a reduced integer is the reduction of the step with the integer. -/
theorem Step.apply_ofInt (x : ℤ) (step : Step) : apply (ofInt x) step = ofInt (exact x step) := by
  cases step with
  | set v => rfl
  | setInt v => rfl
  | setByte v => exact (ofInt_toNat v).symm
  | add v => exact (ofInt_add x v.toInt).symm
  | sub v => exact (ofInt_sub x v.toInt).symm

/-- A calculation that is reduced at every step may be reduced at its end. -/
theorem foldl_apply_ofInt (x : ℤ) (steps : List Step) :
    steps.foldl Step.apply (ofInt x) = ofInt (steps.foldl Step.exact x) :=
  List.foldl_hom ofInt Step.apply_ofInt

end Cell

/-! ### Addresses -/

namespace Address

/-- A step of a calculation with an address: a number of either of two widths, an address added or
taken away, or a move of the pointer. -/
inductive Step where
  | set (v : Int64)
  | setInt (v : Int32)
  | add (a : Address)
  | sub (a : Address)
  | next
  | previous
  deriving DecidableEq

/-- The address after a step. -/
def Step.apply : Address → Step → Address
  | _, .set v => v
  | _, .setInt v => v.toInt64
  | a, .add b => a + b
  | a, .sub b => a - b
  | a, .next => a.next
  | a, .previous => a.previous

/-- The integer after a step. -/
def Step.exact : ℤ → Step → ℤ
  | _, .set v => v.toInt
  | _, .setInt v => v.toInt
  | x, .add b => x + b.toInt
  | x, .sub b => x - b.toInt
  | x, .next => x + 1
  | x, .previous => x - 1

/-- A step with a reduced integer is the reduction of the step with the integer. -/
theorem Step.apply_ofInt (x : ℤ) (step : Step) :
    apply (Int64.ofInt x) step = Int64.ofInt (exact x step) := by
  cases step with
  | set v => exact (Int64.ofInt_toInt v).symm
  | setInt v => exact (Int64.ofInt_int32ToInt v).symm
  | add b => rw [exact, Int64.ofInt_add, Int64.ofInt_toInt]; rfl
  | sub b => rw [exact, Int64.ofInt_sub, Int64.ofInt_toInt]; rfl
  | next => rw [exact, Int64.ofInt_add]; rfl
  | previous => rw [exact, Int64.ofInt_sub]; rfl

/-- A calculation that is reduced at every step may be reduced at its end. -/
theorem foldl_apply_ofInt (x : ℤ) (steps : List Step) :
    steps.foldl Step.apply (Int64.ofInt x) = Int64.ofInt (steps.foldl Step.exact x) :=
  List.foldl_hom Int64.ofInt Step.apply_ofInt

/-- An integer that is reduced to an address becomes the only number of the signed 64-bit range that
is congruent to it. -/
theorem toInt_ofInt_eq_iff {x z : ℤ} : (Int64.ofInt x).toInt = z ↔
    (-2 ^ 63 ≤ z ∧ z < 2 ^ 63) ∧ z ≡ x [ZMOD 2 ^ 64] := by
  have hrange := And.intro (Int64.le_toInt (Int64.ofInt x)) (Int64.toInt_lt (Int64.ofInt x))
  have hmod : (Int64.ofInt x).toInt % 2 ^ 64 = x % 2 ^ 64 := by
    rw [Int64.toInt_ofInt]
    exact Int.bmod_emod
  unfold Int.ModEq
  omega

theorem exists_index?_iff {a : Address} : (∃ i, a.index? = .ok i) ↔ 0 ≤ a.toInt := by
  constructor
  · rintro ⟨i, hi⟩
    rw [index?_eq_ok_iff.1 hi]
    exact Int.natCast_nonneg i
  · intro h
    exact ⟨_, index?_of_nonneg h⟩

end Address

/-- **Calculations are exact.** Let any steps be made with a cell, and the same steps with integers,
from the number in the cell. Then the cell holds the remainder of the integer result modulo `256`,
which is never negative, and is zero exactly when `256` divides the result.

Let any steps be made with an address, and the same steps with integers. Then the address is the
number in the range of signed 64-bit numbers that is congruent to the integer result modulo
`2 ^ 64`, of which there is one only. It is an index exactly when it is not negative, and then the
index is the address itself. -/
theorem calculations_exact :
    (∀ (c : Cell) (steps : List Cell.Step),
      let result := steps.foldl Cell.Step.exact c.toNat
      ((steps.foldl Cell.Step.apply c).toNat : ℤ) = result % 256 ∧
      ((steps.foldl Cell.Step.apply c).isZero = true ↔ (256 : ℤ) ∣ result)) ∧
    ∀ (a : Address) (steps : List Address.Step),
      let result := steps.foldl Address.Step.exact a.toInt
      let b := steps.foldl Address.Step.apply a
      (∀ z : ℤ, b.toInt = z ↔ (-2 ^ 63 ≤ z ∧ z < 2 ^ 63) ∧ z ≡ result [ZMOD 2 ^ 64]) ∧
      (∀ i : ℕ, b.index? = .ok i ↔ b.toInt = i) ∧
      ((∃ i, b.index? = .ok i) ↔ 0 ≤ b.toInt) := by
  refine ⟨fun c steps => ?_, fun a steps => ?_⟩
  · intro result
    have hcell : steps.foldl Cell.Step.apply c = Cell.ofInt result := by
      rw [← Cell.foldl_apply_ofInt, Cell.ofInt_toNat]
    rw [hcell]
    exact ⟨Cell.toNat_ofInt result, Cell.isZero_ofInt_iff result⟩
  · intro result b
    have haddress : b = Int64.ofInt result := by
      rw [← Address.foldl_apply_ofInt, Int64.ofInt_toInt]
    refine ⟨fun z => ?_, fun i => Address.index?_eq_ok_iff, Address.exists_index?_iff⟩
    rw [haddress]
    exact Address.toInt_ofInt_eq_iff

/-- Going on to the left of the least address leads to the greatest one. -/
example : [.set Int64.minValue, .previous].foldl Address.Step.apply 0 = Int64.maxValue := by decide

end PhraseTape
