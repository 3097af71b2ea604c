import PhraseTape.Console.IoError

/-!
# Calls made to a reader and a writer

What a program does to its console is the sequence of calls it makes. The bytes it has printed are
the bytes accepted by these calls, in order.

## Main definitions

* `Event` : one call, with its answer.
* `Event.accepted`, `Transcript.output` : the bytes accepted.
* `Transcript.flushes` : how often the writer was flushed.
-/

namespace PhraseTape

/-- One call to the console, with its answer. -/
inductive Event where
  /-- The writer accepted these bytes. -/
  | wrote (bytes : List UInt8)
  /-- The writer failed. -/
  | refused (error : IoError)
  /-- The writer was flushed, and failed if there is a failure. -/
  | flushed (failure : Option IoError)
  /-- The reader was asked for a line. -/
  | lineRequested
  deriving DecidableEq, Repr

/-- The bytes accepted by a call. -/
def Event.accepted : Event → List UInt8
  | .wrote bytes => bytes
  | _ => []

/-- Whether the call is a flush. -/
def Event.isFlush : Event → Bool
  | .flushed _ => true
  | _ => false

/-- The calls made, in order. -/
abbrev Transcript := Array Event

namespace Transcript

/-- The bytes accepted by all calls. -/
def output (t : Transcript) : List UInt8 :=
  t.toList.flatMap Event.accepted

/-- The number of flushes. -/
def flushes (t : Transcript) : Nat :=
  t.countP Event.isFlush

@[simp] theorem output_push (t : Transcript) (e : Event) :
    output (t.push e) = output t ++ e.accepted := by
  simp [output]

@[simp] theorem output_append (t : Transcript) (events : List Event) :
    output (t ++ events) = output t ++ events.flatMap Event.accepted := by
  simp [output]

end Transcript

end PhraseTape
