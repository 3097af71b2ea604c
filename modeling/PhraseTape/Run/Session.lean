import PhraseTape.Console.Basic
import PhraseTape.Machine
import PhraseTape.Run.Fault

/-!
# Carrying out an instruction

A session is a machine with its console. Carrying out the instruction at the counter changes one
or two components of the session and leaves the counter alone, unless the instruction is a loop
instruction that jumps; going on to the next instruction is a step of its own. The pointer moves
without any check, and is checked when the cell under it is used. When an instruction fails, the
machine is as it was before.

## Main definitions

* `Session` : a machine with its console.
* `Session.perform` : what each kind of instruction does.
* `Session.dispatch` : carries out the instruction at the counter.
* `Session.step` : carries it out and goes on to the next one.

## Main results

* `Session.machine_of_dispatch_error` : a failing instruction leaves the machine as it was.
* `Session.sameSetting_dispatch`, `Session.sameSetting_step` : what no instruction changes.
-/

namespace PhraseTape

/-- A machine with its console. -/
structure Session where
  machine : Machine
  console : Console

/-- What an action on a session leaves: the session, with the fault if there is one. -/
abbrev Outcome := EStateM.Result Fault Session Unit

namespace Session

/-- The session at the start of a run. -/
def ofSettings (program : Program) (settings : Settings) (console : Console) : Session :=
  ⟨Machine.ofSettings program settings, console⟩

/-- Changes the cell under the pointer by `d`. -/
def addCell (d : Cell) : Session → Outcome
  | ⟨m, c⟩ =>
    match m.tape.resolve m.pointer with
    | .ok i => .ok () ⟨m.bump i d, c⟩
    | .error e => .error (.address e) ⟨m, c⟩

/-- Jumps to `target` if the cell under the pointer is zero, or is not zero, as `zero` says. -/
def jumpIf (zero : Bool) (target : Machine → Nat) : Session → Outcome
  | ⟨m, c⟩ =>
    match m.cell with
    | .ok v => .ok () ⟨if v.isZero = zero then m.jump (target m) else m, c⟩
    | .error e => .error (.address e) ⟨m, c⟩

/-- Fills the cell under the pointer from a line. Everything written so far is flushed first, so
that a prompt can be seen; and the pointer is checked last, when the line is already taken. -/
def readCell : Session → Outcome
  | ⟨m, c⟩ =>
    match c.flush with
    | .error e c => .error (.io e) ⟨m, c⟩
    | .ok () c =>
      match c.readLine with
      | .error e c => .error (.io e) ⟨m, c⟩
      | .ok line c =>
        match m.tape.resolve m.pointer with
        | .ok i => .ok () ⟨m.put i (Cell.ofLineBytes line), c⟩
        | .error e => .error (.address e) ⟨m, c⟩

/-- Writes the cell under the pointer. -/
def printCell : Session → Outcome
  | ⟨m, c⟩ =>
    match m.cell with
    | .error e => .error (.address e) ⟨m, c⟩
    | .ok v =>
      match c.write (m.encoding.encode v) with
      | .error e c => .error (.io e) ⟨m, c⟩
      | .ok () c => .ok () ⟨m, c⟩

/-- What each kind of instruction does to a session. -/
def perform (i : Instruction) (s : Session) : Outcome :=
  match i with
  | .change _ text => s.addCell (Cell.ofInt (delta text))
  | .right => .ok () { s with machine := s.machine.moveTo s.machine.pointer.next }
  | .left => .ok () { s with machine := s.machine.moveTo s.machine.pointer.previous }
  | .loopStart => s.jumpIf true Machine.loopEnd
  | .loopEnd => s.jumpIf false Machine.loopStart
  | .read => s.readCell
  | .print => s.printCell

/-- Carries out the instruction at the counter; past the end of the program nothing happens. -/
def dispatch (s : Session) : Outcome :=
  match s.machine.current? with
  | some i => s.perform i
  | none => .ok () s

/-- Goes on to the next instruction. -/
def advance (s : Session) : Session :=
  { s with machine := s.machine.advance }

/-- Carries out the instruction at the counter and goes on to the next one. After a jump this is
the one behind the target. -/
def step (s : Session) : Outcome :=
  match s.dispatch with
  | .ok () s => .ok () s.advance
  | .error e s => .error e s

/-- The session whose reader delivers one piece more. -/
def supply (s : Session) (bytes : List UInt8) : Session :=
  { s with console := s.console.supply bytes }

/-- The session whose console remembers no calls. -/
def forget (s : Session) : Session :=
  { s with console := s.console.forget }

/-! ### What an instruction leaves alone -/

/-- The session left by an action, whether it failed or not. -/
def left : Outcome → Session
  | .ok _ s => s
  | .error _ s => s

theorem dispatch_of_current? {s : Session} {i : Instruction} (h : s.machine.current? = some i) :
    s.dispatch = s.perform i := by
  rw [dispatch, h]

/-- Past the end of the program nothing happens. -/
theorem dispatch_of_finished {s : Session} (h : s.machine.isFinished = true) :
    s.dispatch = .ok () s := by
  rw [dispatch, (s.machine.current?_eq_none_iff).2 h]

theorem machine_of_addCell_error {d : Cell} {s t : Session} {f : Fault}
    (h : s.addCell d = .error f t) : t.machine = s.machine ∧ t.console = s.console := by
  obtain ⟨m, c⟩ := s
  unfold addCell at h
  simp only at h
  split at h <;> cases h
  exact ⟨rfl, rfl⟩

theorem machine_of_jumpIf_error {zero : Bool} {target : Machine → Nat} {s t : Session} {f : Fault}
    (h : s.jumpIf zero target = .error f t) : t.machine = s.machine ∧ t.console = s.console := by
  obtain ⟨m, c⟩ := s
  unfold jumpIf at h
  simp only at h
  split at h <;> cases h
  exact ⟨rfl, rfl⟩

theorem machine_of_readCell_error {s t : Session} {f : Fault} (h : s.readCell = .error f t) :
    t.machine = s.machine := by
  obtain ⟨m, c⟩ := s
  unfold readCell at h
  simp only at h
  split at h
  · cases h
    rfl
  · split at h
    · cases h
      rfl
    · split at h <;> cases h
      rfl

theorem machine_of_printCell_error {s t : Session} {f : Fault} (h : s.printCell = .error f t) :
    t.machine = s.machine := by
  obtain ⟨m, c⟩ := s
  unfold printCell at h
  simp only at h
  split at h
  · cases h
    rfl
  · split at h <;> cases h
    rfl

/-- **A failing instruction leaves the machine as it was**: tape, pointer and counter are those
before it. -/
theorem machine_of_dispatch_error {s t : Session} {f : Fault} (h : s.dispatch = .error f t) :
    t.machine = s.machine := by
  unfold dispatch at h
  split at h
  next i hi =>
    cases i with
    | change sign text => exact (machine_of_addCell_error h).1
    | right => cases h
    | left => cases h
    | loopStart => exact (machine_of_jumpIf_error h).1
    | loopEnd => exact (machine_of_jumpIf_error h).1
    | read => exact machine_of_readCell_error h
    | print => exact machine_of_printCell_error h
  next => cases h

/-- What every instruction leaves as it was: the program, the encoding, and the size and the
policy of the tape. -/
structure SameSetting (s t : Session) : Prop where
  program : t.machine.program = s.machine.program
  encoding : t.machine.encoding = s.machine.encoding
  size : t.machine.tape.size = s.machine.tape.size
  policy : t.machine.tape.policy = s.machine.tape.policy

theorem SameSetting.of_machine_eq {s t : Session} (h : t.machine = s.machine) :
    SameSetting s t := by
  constructor <;> rw [h]

theorem SameSetting.trans {s t u : Session} (h : SameSetting s t) (h' : SameSetting t u) :
    SameSetting s u where
  program := h'.program.trans h.program
  encoding := h'.encoding.trans h.encoding
  size := h'.size.trans h.size
  policy := h'.policy.trans h.policy

theorem sameSetting_perform (i : Instruction) (s : Session) :
    SameSetting s (left (s.perform i)) := by
  obtain ⟨m, c⟩ := s
  cases i with
  | change sign text =>
    simp only [perform, addCell]
    split
    · constructor <;> simp [left, Machine.bump]
    · exact .of_machine_eq rfl
  | right => constructor <;> rfl
  | left => constructor <;> rfl
  | loopStart =>
    simp only [perform, jumpIf]
    split
    · simp only [left]
      split <;> constructor <;> rfl
    · exact .of_machine_eq rfl
  | loopEnd =>
    simp only [perform, jumpIf]
    split
    · simp only [left]
      split <;> constructor <;> rfl
    · exact .of_machine_eq rfl
  | read =>
    simp only [perform, readCell]
    split
    · exact .of_machine_eq rfl
    · split
      · exact .of_machine_eq rfl
      · split
        · constructor <;> simp [left, Machine.put]
        · exact .of_machine_eq rfl
  | print =>
    simp only [perform, printCell]
    split
    · exact .of_machine_eq rfl
    · split <;> exact .of_machine_eq rfl

theorem sameSetting_dispatch (s : Session) : SameSetting s (left s.dispatch) := by
  unfold dispatch
  split
  · exact sameSetting_perform _ s
  · exact .of_machine_eq rfl

theorem sameSetting_step (s : Session) : SameSetting s (left s.step) := by
  have h := sameSetting_dispatch s
  unfold step
  cases hd : s.dispatch with
  | ok _ t =>
    rw [hd] at h
    exact ⟨h.program, h.encoding, h.size, h.policy⟩
  | error e t =>
    rw [hd] at h
    exact h

end Session

end PhraseTape
