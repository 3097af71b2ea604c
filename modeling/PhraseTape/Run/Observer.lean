import PhraseTape.Machine

/-!
# Observers of a run

A run asks its observer before every instruction. The observer sees the instruction, its index,
the tape and the pointer, all as they are before the instruction, keeps notes of its own, and
answers whether the run goes on.

## Main definitions

* `Moment` : what an observer sees.
* `Observer` : what it answers.
* `Observer.silent`, `Observer.upTo`, `Observer.exceeding`, `Observer.noting` : observers that
  never stop a run, that limit its length in two ways, and that take notes.
* `Observer.also` : two observers, asked in turn.
-/

namespace PhraseTape

/-- What an observer sees before an instruction. -/
structure Moment where
  counter : Nat
  instruction : Instruction
  tape : Tape
  pointer : Address

/-- The cell under the pointer. -/
def Moment.cell (m : Moment) : Except AddressError Cell :=
  m.tape.get m.pointer

/-- The moment before the instruction `i` of a machine. -/
def Machine.moment (m : Machine) (i : Instruction) : Moment :=
  ⟨m.counter, i, m.tape, m.pointer⟩

/-- Whether a run goes on. -/
inductive Verdict where
  | proceed
  | abort
  deriving DecidableEq, Repr

/-- An observer with notes of type `σ`: what it answers, and its notes after that. -/
abbrev Observer (σ : Type) := Moment → σ → Verdict × σ

namespace Observer

variable {σ τ : Type}

/-- The observer that never stops a run. -/
def silent : Observer Unit :=
  fun _ notes => (.proceed, notes)

/-- Counts the instructions it lets through, and stops the run when there are `limit` of them or
when the instruction of index `stop` is next. -/
def upTo (limit : Nat) (stop : Option Nat) : Observer Nat :=
  fun moment count =>
    if count = limit ∨ stop = some moment.counter then (.abort, count) else (.proceed, count + 1)

/-- Counts the instructions it is asked about, the one it refuses included, and stops the run when
there are more than `limit`, if there is a limit. -/
def exceeding (limit : Option Nat) : Observer Nat :=
  fun _ count =>
    if limit.any (· < count + 1) then (.abort, count + 1) else (.proceed, count + 1)

/-- Notes every moment it is asked about. -/
def noting (note : Moment → τ) : Observer (Array τ) :=
  fun moment notes => (.proceed, notes.push (note moment))

/-- Asks `first`, and asks `second` if the first lets the instruction through. -/
def also (first : Observer σ) (second : Observer τ) : Observer (σ × τ) :=
  fun moment (a, b) =>
    match first moment a with
    | (.abort, a) => (.abort, (a, b))
    | (.proceed, a) =>
      match second moment b with
      | (verdict, b) => (verdict, (a, b))

end Observer

end PhraseTape
