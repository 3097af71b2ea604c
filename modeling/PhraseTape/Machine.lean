import PhraseTape.Program
import PhraseTape.Tape

/-!
# The machine

A machine is a program together with a tape, a pointer to the tape and a counter of instructions.
The counter may be anywhere; past the end of the program there is no instruction, and the machine
is finished.

## Main definitions

* `Machine`, `Machine.ofSettings` : machines, and the machine that a run starts with.
* `Machine.current?`, `Machine.isFinished` : the instruction at the counter.
* `Machine.cell` : the cell under the pointer.
* `Machine.advance`, `Machine.jump`, `Machine.moveTo`, `Machine.bump`, `Machine.put` : the
  changes that instructions make, each to one component.

## Main results

* `Machine.current?_eq_none_iff` : there is no instruction exactly when the machine is finished.
-/

namespace PhraseTape

/-- A program on a tape. -/
structure Machine where
  program : Program
  tape : Tape
  /-- The pointer to the tape. -/
  pointer : Address := 0
  /-- The index of the next instruction. -/
  counter : Nat := 0
  encoding : OutputEncoding := .utf8

namespace Machine

/-- The machine at the start of a run: every cell is zero, and pointer and counter are at zero. -/
def ofSettings (program : Program) (settings : Settings) : Machine where
  program := program
  tape := Tape.new settings.tapeSize settings.policy
  encoding := settings.encoding

/-- The instruction at the counter. -/
def current? (m : Machine) : Option Instruction :=
  m.program[m.counter]?

/-- Whether the counter is past the last instruction. -/
def isFinished (m : Machine) : Bool :=
  m.program.size ≤ m.counter

/-- The cell under the pointer. -/
def cell (m : Machine) : Except AddressError Cell :=
  m.tape.get m.pointer

/-- The machine at the next instruction; past the end too the counter goes on. -/
def advance (m : Machine) : Machine :=
  { m with counter := m.counter + 1 }

/-- The machine with its counter at `n`. -/
def jump (m : Machine) (n : Nat) : Machine :=
  { m with counter := n }

/-- The machine with its pointer at `a`. -/
def moveTo (m : Machine) (a : Address) : Machine :=
  { m with pointer := a }

/-- The machine with `d` added to the cell of index `i`. -/
def bump (m : Machine) (i : Nat) (d : Cell) : Machine :=
  { m with tape := m.tape.bump i d }

/-- The machine with `v` in the cell of index `i`. -/
def put (m : Machine) (i : Nat) (v : Cell) : Machine :=
  { m with tape := m.tape.put i v }

/-- The machine with `v` in the cell named by the address `a`, wherever its pointer is. -/
def set (m : Machine) (a : Address) (v : Cell) : Except AddressError Machine :=
  (m.tape.resolve a).map fun i => m.put i v

/-- The instruction that a jump from a loop start leads to. -/
def loopEnd (m : Machine) : Nat :=
  m.program.loopEndFrom m.counter

/-- The instruction that a jump from a loop end leads to. -/
def loopStart (m : Machine) : Nat :=
  m.program.loopStartTo m.counter

theorem isFinished_iff (m : Machine) : m.isFinished = true ↔ m.program.size ≤ m.counter := by
  simp [isFinished]

/-- There is no instruction exactly when the machine is finished. -/
theorem current?_eq_none_iff (m : Machine) : m.current? = none ↔ m.isFinished = true := by
  rw [isFinished_iff, current?, Array.getElem?_eq_none_iff]

theorem isFinished_of_current? {m : Machine} {i : Instruction} (h : m.current? = some i) :
    m.isFinished = false := by
  rw [← Bool.not_eq_true, ← current?_eq_none_iff, h]
  exact Option.some_ne_none i

theorem counter_lt_of_current? {m : Machine} {i : Instruction} (h : m.current? = some i) :
    m.counter < m.program.size :=
  (Array.getElem?_eq_some_iff.1 h).1

/-- A jump forward stays inside the program and does not go back. -/
theorem loopEnd_bounds {m : Machine} (h : m.counter < m.program.size) :
    m.counter ≤ m.loopEnd ∧ m.loopEnd < m.program.size :=
  ⟨m.program.le_loopEndFrom _ h, m.program.loopEndFrom_lt _ (by omega)⟩

/-- A jump back does not go forward. -/
theorem loopStart_le (m : Machine) : m.loopStart ≤ m.counter :=
  m.program.loopStartTo_le _

end Machine

end PhraseTape
