import PhraseTape.Address
import PhraseTape.Console.IoError

/-!
# Faults

A run that does not reach the end of its program stops with a fault.

## Main definitions

* `Fault` : the reasons for which a run stops.
* `Fault.message` : the sentence that reports a fault.
* `Fault.same` : whether two faults count as the same.

## Main results

* `Fault.same_refl`, `Fault.same_comm`, `Fault.same_trans` : faults that count as the same form
  classes.
-/

namespace PhraseTape

/-- The reasons for which a run stops before the end of its program. -/
inductive Fault where
  /-- An instruction used a cell that the pointer does not name. -/
  | address (error : AddressError)
  /-- The reader or the writer failed. -/
  | io (error : IoError)
  /-- The observer of the run stopped it. -/
  | aborted
  deriving DecidableEq, Repr

namespace Fault

/-- The sentence that reports a fault. -/
def message : Fault → String
  | .address e => "Tape pointer error: " ++ e.message
  | .io e => "Unexpected IO Error: " ++ e.text
  | .aborted => "Callback aborted execution"

/-- Whether two faults count as the same: failures of input and output are compared by their kind
alone. -/
def same : Fault → Fault → Bool
  | .address d, .address e => d == e
  | .io d, .io e => d.sameKind e
  | .aborted, .aborted => true
  | _, _ => false

theorem same_refl (f : Fault) : f.same f = true := by
  cases f <;> simp [same, IoError.sameKind]

theorem same_comm (f g : Fault) : f.same g = g.same f := by
  cases f <;> cases g <;> simp [same, IoError.sameKind, Bool.beq_comm]

theorem same_trans {f g h : Fault} (hfg : f.same g = true) (hgh : g.same h = true) :
    f.same h = true := by
  cases f <;> cases g <;> cases h <;> simp_all [same, IoError.sameKind]

end Fault

end PhraseTape
