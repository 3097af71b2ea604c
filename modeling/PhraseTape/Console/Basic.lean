import PhraseTape.Console.Feed
import PhraseTape.Console.Replies

/-!
# The console

The console of a program is what its reader will deliver, what its writer will answer, and the
calls that the program has made so far. Each operation makes its calls, uses up the answers they
were given, and leaves everything else as it was.

## Main definitions

* `Console` : a reader, a writer and the calls made to them.
* `Console.flush`, `Console.readLine`, `Console.write` : the operations.
* `Console.supply`, `Console.forget` : a reader with one delivery more, and a console whose calls
  have been taken note of.
-/

namespace PhraseTape

/-- A console: the answers it will give and the calls made to it. -/
structure Console where
  /-- What the reader will deliver. -/
  feed : Feed := []
  /-- What the writer will answer when it is offered bytes; then it accepts everything. -/
  replies : List WriteReply := []
  /-- What the writer will answer when it is flushed; then flushing succeeds. -/
  flushes : List (Option IoError) := []
  /-- The calls made so far. -/
  transcript : Transcript := #[]
  deriving DecidableEq, Repr

namespace Console

/-- The console that delivers the given bytes and accepts everything. -/
def ofBytes (bytes : List UInt8) : Console where
  feed := Feed.ofBytes bytes

/-- The bytes accepted so far. -/
def output (c : Console) : List UInt8 :=
  c.transcript.output

/-- The console whose reader delivers one piece more at the end. -/
def supply (c : Console) (bytes : List UInt8) : Console :=
  { c with feed := c.feed.supply bytes }

/-- The console that gives the same answers and remembers no calls. -/
def forget (c : Console) : Console :=
  { c with transcript := #[] }

/-- The answer to the next flush. -/
def nextFlush (c : Console) : Option IoError :=
  c.flushes.head?.join

/-- Flushes the writer. No failure is passed over, not even an interruption. -/
def flush (c : Console) : EStateM.Result IoError Console Unit :=
  let failure := c.nextFlush
  let after := { c with
    flushes := c.flushes.tail
    transcript := c.transcript.push (.flushed failure) }
  match failure with
  | none => .ok () after
  | some e => .error e after

/-- Asks the reader for a line. -/
def readLine (c : Console) : EStateM.Result IoError Console (List UInt8) :=
  match c.feed.readLine [] with
  | .ok line feed => .ok line { c with feed, transcript := c.transcript.push .lineRequested }
  | .error e feed => .error e { c with feed, transcript := c.transcript.push .lineRequested }

/-- Offers bytes to the writer until it has accepted all of them. -/
def write (c : Console) (bytes : List UInt8) : EStateM.Result IoError Console Unit :=
  let o := offer bytes c.replies
  let after := { c with replies := o.replies, transcript := c.transcript ++ o.calls }
  match o.failure with
  | none => .ok () after
  | some e => .error e after

/-! ### What the operations leave -/

/-- The console left by an operation, whether it failed or not. -/
def left {α : Type} : EStateM.Result IoError Console α → Console
  | .ok _ c => c
  | .error _ c => c

@[simp] theorem left_flush (c : Console) : left c.flush =
    { c with
      flushes := c.flushes.tail
      transcript := c.transcript.push (.flushed c.nextFlush) } := by
  rw [flush]
  cases c.nextFlush <;> rfl

@[simp] theorem left_write (c : Console) (bytes : List UInt8) : left (c.write bytes) =
    { c with
      replies := (offer bytes c.replies).replies
      transcript := c.transcript ++ (offer bytes c.replies).calls } := by
  rw [write]
  cases (offer bytes c.replies).failure <;> rfl

/-- Reading a line touches nothing of the writer. -/
theorem left_readLine (c : Console) : ∃ feed, left c.readLine =
    { c with feed, transcript := c.transcript.push .lineRequested } := by
  rw [readLine]
  cases c.feed.readLine [] with
  | ok line feed => exact ⟨feed, rfl⟩
  | error e feed => exact ⟨feed, rfl⟩

end Console

end PhraseTape
