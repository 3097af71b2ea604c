/-!
# Cells

A cell of the tape holds one byte. Arithmetic on cells is arithmetic modulo `256`, so a cell is
the exact integer result of the operations applied to it, read modulo `256`.

## Main definitions

* `Cell` : the value of a cell.
* `Cell.ofInt` : an integer reduced modulo `256`.
* `Cell.isZero` : the test made by the loop instructions.

## Main results

* `Cell.toNat_ofInt` : the reduction is the Euclidean remainder.
* `Cell.ofInt_add`, `Cell.ofInt_sub` : reduction commutes with addition and subtraction.
* `Cell.isZero_ofInt_iff` : a reduced integer is zero exactly when `256` divides it.
* `Cell.toNat_add_ofInt`, `Cell.add_ofInt_eq_self_iff` : a cell with an amount added.
-/

namespace PhraseTape

/-- The value of one cell of the tape: a byte with wrapping arithmetic. -/
abbrev Cell := UInt8

namespace Cell

/-- The integer `v` reduced modulo `256`, with a remainder that is never negative. -/
def ofInt (v : Int) : Cell :=
  UInt8.ofNat (v % 256).toNat

/-- Whether the cell holds zero. -/
def isZero (c : Cell) : Bool :=
  c == 0

theorem isZero_iff (c : Cell) : c.isZero = true ↔ c = 0 := by
  simp [isZero]

@[simp] theorem toNat_ofInt (v : Int) : ((ofInt v).toNat : Int) = v % 256 := by
  simp only [ofInt, UInt8.toNat_ofNat']
  omega

/-- Adding reduced integers is reducing the sum. -/
theorem ofInt_add (v w : Int) : ofInt (v + w) = ofInt v + ofInt w := by
  apply UInt8.toNat_inj.1
  have hv := toNat_ofInt v
  have hw := toNat_ofInt w
  have h := toNat_ofInt (v + w)
  rw [UInt8.toNat_add]
  omega

/-- Subtracting reduced integers is reducing the difference. -/
theorem ofInt_sub (v w : Int) : ofInt (v - w) = ofInt v - ofInt w := by
  have h : ofInt (v - w) + ofInt w = ofInt v := by rw [← ofInt_add, Int.sub_add_cancel]
  rw [← h, UInt8.add_sub_cancel]

/-- A byte is the reduction of its own value. -/
@[simp] theorem ofInt_toNat (c : Cell) : ofInt (c.toNat : Int) = c := by
  apply UInt8.toNat_inj.1
  have h := toNat_ofInt (c.toNat : Int)
  have hc := c.toNat_lt
  omega

/-- A reduced integer is zero exactly when `256` divides it. -/
theorem isZero_ofInt_iff (v : Int) : (ofInt v).isZero = true ↔ (256 : Int) ∣ v := by
  rw [isZero_iff, ← UInt8.toNat_inj]
  have h := toNat_ofInt v
  simp only [UInt8.toNat_zero]
  omega

/-- A cell with an amount added holds the sum modulo `256`. -/
theorem toNat_add_ofInt (v : Cell) (amount : Int) :
    ((v + ofInt amount).toNat : Int) = (v.toNat + amount) % 256 := by
  rw [← toNat_ofInt, ofInt_add, ofInt_toNat]

/-- An amount leaves a cell as it is exactly when `256` divides it. -/
theorem add_ofInt_eq_self_iff (v : Cell) (amount : Int) :
    v + ofInt amount = v ↔ (256 : Int) ∣ amount := by
  have hsum := toNat_add_ofInt v amount
  have hv := v.toNat_lt
  rw [← UInt8.toNat_inj]
  omega

end Cell

end PhraseTape
