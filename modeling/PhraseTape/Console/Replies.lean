import PhraseTape.Console.Event

/-!
# Output as a sequence of replies

A writer may accept a part of what it is offered, or fail. Bytes are offered again and again, less
what was accepted, until nothing is left; an interruption is passed over, and a writer that accepts
nothing is a failure.

## Main definitions

* `WriteReply` : one answer of a writer.
* `Offer`, `offer` : the calls that offer some bytes until all are accepted or one call fails.

## Main results

* `offer_nil` : a writer without further answers accepts everything at once.
* `offer_accept_zero`, `offer_accept_succ`, `offer_fail` : offering bytes, one call at a time.
* `offer_accepted` : the bytes accepted are a beginning of the bytes offered, and all of them if no
  call fails.
-/

namespace PhraseTape

/-- One answer of a writer. -/
inductive WriteReply where
  /-- At most `count` bytes are accepted. -/
  | accept (count : Nat)
  /-- Nothing is accepted. -/
  | fail (error : IoError)
  deriving DecidableEq, Repr

/-- What came of offering some bytes to a writer. -/
structure Offer where
  /-- The calls made, in order. -/
  calls : List Event
  /-- The answers that the writer has left. -/
  replies : List WriteReply
  /-- The failure that ended the calls, if one did. -/
  failure : Option IoError
  deriving DecidableEq, Repr

/-- The offer with one call made before it. -/
def Offer.behind (call : Event) (o : Offer) : Offer :=
  { o with calls := call :: o.calls }

/-- Offers bytes to a writer that answers with `replies`, and accepts everything when it has no
answer left. -/
def offer (bytes : List UInt8) (replies : List WriteReply) : Offer :=
  if bytes.isEmpty then
    ⟨[], replies, none⟩
  else
    match replies with
    | [] => ⟨[.wrote bytes], [], none⟩
    | .accept 0 :: replies => ⟨[.wrote []], replies, some .nothingAccepted⟩
    | .accept (n + 1) :: replies =>
      (offer (bytes.drop (n + 1)) replies).behind (.wrote (bytes.take (n + 1)))
    | .fail e :: replies =>
      if e.isInterrupted then (offer bytes replies).behind (.refused e)
      else ⟨[.refused e], replies, some e⟩

/-- A writer without further answers accepts everything at once. -/
theorem offer_nil {bytes : List UInt8} (h : bytes ≠ []) :
    offer bytes [] = ⟨[.wrote bytes], [], none⟩ := by
  rw [offer, if_neg (by simpa using h)]

theorem offer_empty (replies : List WriteReply) : offer [] replies = ⟨[], replies, none⟩ := by
  unfold offer
  rfl

theorem offer_accept_zero {bytes : List UInt8} (h : bytes ≠ []) (replies : List WriteReply) :
    offer bytes (.accept 0 :: replies) = ⟨[.wrote []], replies, some .nothingAccepted⟩ := by
  rw [offer, if_neg (by simpa using h)]

theorem offer_accept_succ {bytes : List UInt8} (h : bytes ≠ []) (n : Nat)
    (replies : List WriteReply) : offer bytes (.accept (n + 1) :: replies) =
      (offer (bytes.drop (n + 1)) replies).behind (.wrote (bytes.take (n + 1))) := by
  rw [offer, if_neg (by simpa using h)]

theorem offer_fail {bytes : List UInt8} (h : bytes ≠ []) (e : IoError)
    (replies : List WriteReply) : offer bytes (.fail e :: replies) =
      if e.isInterrupted then (offer bytes replies).behind (.refused e)
      else ⟨[.refused e], replies, some e⟩ := by
  rw [offer, if_neg (by simpa using h)]

/-- The bytes accepted are a beginning of the bytes offered. If no call fails they are all of
them, and otherwise something is left. -/
theorem offer_accepted (bytes : List UInt8) (replies : List WriteReply) :
    ∃ rest, (offer bytes replies).calls.flatMap Event.accepted ++ rest = bytes ∧
      ((offer bytes replies).failure = none ↔ rest = []) := by
  induction replies generalizing bytes with
  | nil =>
    by_cases h : bytes = []
    · exact ⟨[], by simp [h, offer_empty], by simp [h, offer_empty]⟩
    · exact ⟨[], by simp [offer_nil h, Event.accepted], by simp [offer_nil h]⟩
  | cons r replies ih =>
    by_cases h : bytes = []
    · exact ⟨[], by simp [h, offer_empty], by simp [h, offer_empty]⟩
    cases r with
    | accept n =>
      cases n with
      | zero =>
        exact ⟨bytes, by simp [offer_accept_zero h, Event.accepted],
          by simpa [offer_accept_zero h] using h⟩
      | succ n =>
        obtain ⟨rest, h₁, h₂⟩ := ih (bytes.drop (n + 1))
        rw [offer_accept_succ h]
        refine ⟨rest, ?_, h₂⟩
        rw [Offer.behind, List.flatMap_cons, List.append_assoc, h₁, Event.accepted,
          List.take_append_drop]
    | fail e =>
      rw [offer_fail h]
      split
      next he =>
        obtain ⟨rest, h₁, h₂⟩ := ih bytes
        exact ⟨rest, h₁, h₂⟩
      next he => exact ⟨bytes, by simp [Event.accepted], by simpa using h⟩

/-- Offering bytes makes no flush and asks for no line. -/
theorem offer_calls (bytes : List UInt8) (replies : List WriteReply) :
    ∀ call ∈ (offer bytes replies).calls, call.isFlush = false ∧ call ≠ .lineRequested := by
  induction replies generalizing bytes with
  | nil =>
    by_cases h : bytes = []
    · simp [h, offer_empty]
    · simp [offer_nil h, Event.isFlush]
  | cons r replies ih =>
    by_cases h : bytes = []
    · simp [h, offer_empty]
    cases r with
    | accept n =>
      cases n with
      | zero => simp [offer_accept_zero h, Event.isFlush]
      | succ n =>
        rw [offer_accept_succ h]
        exact List.forall_mem_cons.2 ⟨by simp [Event.isFlush], ih _⟩
    | fail e =>
      rw [offer_fail h]
      split
      · exact List.forall_mem_cons.2 ⟨by simp [Event.isFlush], ih _⟩
      · simp [Event.isFlush]

end PhraseTape
