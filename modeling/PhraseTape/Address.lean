/-!
# Addresses

The tape pointer is a signed 64-bit number. It moves freely, also to the left of the first cell,
and wraps at the two ends of its range; only an access to a cell asks which cell it names.

## Main definitions

* `Address` : the value of the tape pointer.
* `AddressError` : the two ways in which an address names no cell.
* `Address.index?` : the index named by an address that is not negative.
-/

namespace PhraseTape

/-- The value of the tape pointer. -/
abbrev Address := Int64

/-- The ways in which an address names no cell. -/
inductive AddressError where
  /-- The address is negative. -/
  | beforeStart
  /-- The address is at least the number of cells. -/
  | pastEnd
  deriving DecidableEq, Repr

/-- The sentence that reports the error. -/
def AddressError.message : AddressError → String
  | .beforeStart => "Tape pointer moved too far left (before start of tape)"
  | .pastEnd => "Tape pointer moved too far to the right (past end of tape)"

namespace Address

/-- The address one cell to the right. -/
def next (a : Address) : Address :=
  a + 1

/-- The address one cell to the left. -/
def previous (a : Address) : Address :=
  a - 1

/-- The index named by an address on a tape that is unbounded to the right. -/
def index? (a : Address) : Except AddressError Nat :=
  if a.toInt < 0 then .error .beforeStart else .ok a.toInt.toNat

theorem index?_of_neg {a : Address} (h : a.toInt < 0) : a.index? = .error .beforeStart := by
  simp [index?, h]

theorem index?_of_nonneg {a : Address} (h : 0 ≤ a.toInt) : a.index? = .ok a.toInt.toNat := by
  simp [index?, Int.not_lt.2 h]

/-- The conversion succeeds exactly on the addresses that are not negative, and gives the
address itself. -/
theorem index?_eq_ok_iff {a : Address} {i : Nat} : a.index? = .ok i ↔ a.toInt = i := by
  by_cases h : a.toInt < 0
  · rw [index?_of_neg h]
    constructor
    · nofun
    · omega
  · rw [index?_of_nonneg (Int.not_lt.1 h), Except.ok.injEq]
    omega

/-- Addresses are the integers modulo `2 ^ 64`, read in the signed range. -/
theorem toInt_next (a : Address) : a.next.toInt = (a.toInt + 1).bmod Int64.size := by
  simp [next, Int64.toInt_add]

theorem toInt_previous (a : Address) : a.previous.toInt = (a.toInt - 1).bmod Int64.size := by
  simp [previous, Int64.toInt_sub]

end Address

end PhraseTape
