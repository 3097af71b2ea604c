/-!
# Failures of input and output

A reader or a writer fails with a kind and, optionally, a sentence of its own. Programs tell
failures apart by their kind only.

## Main definitions

* `IoErrorKind`, `IoError` : the failures.
* `IoError.text` : the sentence that reports a failure.
* `IoError.sameKind` : whether two failures count as the same.
-/

namespace PhraseTape

/-- The kinds of failure. -/
inductive IoErrorKind where
  | brokenPipe
  | interrupted
  | invalidData
  | notFound
  | other
  | permissionDenied
  | timedOut
  | unexpectedEof
  | wouldBlock
  | writeZero
  deriving DecidableEq, Repr

/-- The sentence for a failure that has none of its own. -/
def IoErrorKind.text : IoErrorKind → String
  | .brokenPipe => "broken pipe"
  | .interrupted => "operation interrupted"
  | .invalidData => "invalid data"
  | .notFound => "entity not found"
  | .other => "other error"
  | .permissionDenied => "permission denied"
  | .timedOut => "timed out"
  | .unexpectedEof => "unexpected end of file"
  | .wouldBlock => "operation would block"
  | .writeZero => "write zero"

/-- A failure of a reader or a writer. -/
structure IoError where
  kind : IoErrorKind
  message : Option String := none
  deriving DecidableEq, Repr

namespace IoError

/-- The sentence that reports a failure. -/
def text (e : IoError) : String :=
  e.message.getD e.kind.text

/-- Whether two failures are of one kind; their sentences do not matter. -/
def sameKind (d e : IoError) : Bool :=
  d.kind == e.kind

/-- An interrupted call is made again. -/
def isInterrupted (e : IoError) : Bool :=
  e.kind == .interrupted

/-- The failure of a writer that takes nothing of what it is offered. -/
def nothingAccepted : IoError where
  kind := .writeZero
  message := some "failed to write whole buffer"

end IoError

end PhraseTape
