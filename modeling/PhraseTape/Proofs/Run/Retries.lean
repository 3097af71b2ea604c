import PhraseTape.Proofs.Run.Failures
import PhraseTape.Proofs.Run.Printing
import PhraseTape.Proofs.Run.Questions

/-!
# Runs that are taken up again

A run that was ended by a failure of the reader or the writer has left its machine in front of the
instruction that failed, and it can be taken up again from there, on the console as the failure left
it. It is taken up again and again, until it ends in another way.

## Main definitions

* `Console.Reliable` : a console whose writer never fails.
* `Session.Retries` : some runs, each of them but the first taking up the one before it.
* `Session.Resumed` : the end of a run that is taken up again after each failure.

## Main results

* `Session.Resumed.unique` : there is only one such end.
* `Session.Resumed.of_ends`, `Session.Resumed.of_step` : the end of a run that is taken up again,
  behind one of its runs and behind one instruction.
-/

namespace PhraseTape

namespace Console

/-- The writer of the console never fails. -/
structure Reliable (c : Console) : Prop where
  willing : ∀ r ∈ c.replies, r.Willing
  flushes : ∀ f ∈ c.flushes, f = none

variable {c : Console}

theorem Reliable.nextFlush (h : c.Reliable) : c.nextFlush = none := by
  rw [Console.nextFlush]
  cases hc : c.flushes with
  | nil => rfl
  | cons f fs => exact h.flushes f (hc ▸ List.mem_cons_self)

theorem Reliable.flushed (h : c.Reliable) : c.flushed.Reliable :=
  ⟨h.willing, fun f hf => h.flushes f (List.mem_of_mem_tail hf)⟩

theorem Reliable.asked (h : c.Reliable) (rest : Feed) : (c.asked rest).Reliable :=
  ⟨h.willing, h.flushes⟩

/-- A writer that never fails is written all bytes. -/
theorem Reliable.write (h : c.Reliable) (bytes : List UInt8) :
    ∃ d, c.write bytes = .ok () d ∧ d.feed = c.feed ∧ d.output = c.output ++ bytes ∧
      d.Reliable := by
  obtain ⟨d, hd, hfeed, hflushes, houtput, hwilling⟩ := write_of_willing h.willing bytes
  exact ⟨d, hd, hfeed, houtput, hwilling, hflushes ▸ h.flushes⟩

end Console

namespace Session

/-- The run from `s` fails because of its reader or its writer, is taken up again where it failed,
and so on, until it is in `t` and is to be taken up once more. The moments are those at which the
runs failed, where there is none for the flush at the end of the program. -/
inductive Retries : List (Option Moment) → Session → Session → Prop
  | refl (s : Session) : Retries [] s s
  | again {failed : List (Option Moment)} {s t u : Session} {e : IoError}
      (hs : Ends Observer.silent () s (.error (.io e)) () t) (h : Retries failed t u) :
      Retries (t.moment? :: failed) s u

/-- The run from `s`, which is taken up again after each failure of its reader or its writer, ends
with the result `r` and the session `t`. -/
def Resumed (failed : List (Option Moment)) (s : Session) (r : Except Fault Unit) (t : Session) :
    Prop :=
  ∃ u, Retries failed s u ∧ Ends Observer.silent () u r () t ∧ ∀ e, r ≠ .error (.io e)

variable {s t u : Session} {i : Instruction} {r q : Except Fault Unit} {e : IoError}
  {failed failed' : List (Option Moment)}

/-- **A run that is taken up again has only one end.** -/
theorem Resumed.unique (h : Resumed failed s r t) (h' : Resumed failed' s q u) :
    failed' = failed ∧ q = r ∧ u = t := by
  obtain ⟨v, hretries, hends, hr⟩ := h
  obtain ⟨w, hretries', hends', hq⟩ := h'
  induction hretries generalizing failed' with
  | refl s =>
    cases hretries' with
    | refl =>
      obtain ⟨rfl, -, rfl⟩ := hends.unique hends'
      exact ⟨rfl, rfl, rfl⟩
    | again hs' => exact absurd (hs'.unique hends).1 (hr _)
  | again hs _ ih =>
    cases hretries' with
    | refl => exact absurd (hs.unique hends').1 (hq _)
    | again hs' hretries' =>
      obtain ⟨-, -, rfl⟩ := hs.unique hs'
      obtain ⟨rfl, rfl, rfl⟩ := ih hends hretries'
      exact ⟨rfl, rfl, rfl⟩

/-- A run that fails is taken up again. -/
theorem Resumed.of_ends (hs : Ends Observer.silent () s (.error (.io e)) () t)
    (h : Resumed failed t r u) : Resumed (t.moment? :: failed) s r u := by
  obtain ⟨v, hretries, hends, hr⟩ := h
  exact ⟨v, .again hs hretries, hends, hr⟩

/-- A run goes on behind an instruction that succeeds, however often it fails then. -/
theorem Resumed.of_step (hi : s.machine.current? = some i) (hs : s.step = .ok () t)
    (h : Resumed failed t r u) : Resumed failed s r u := by
  obtain ⟨v, hretries, hends, hr⟩ := h
  cases hretries with
  | refl => exact ⟨s, .refl s, .step hi rfl hs hends, hr⟩
  | again hs' hretries => exact ⟨v, .again (.step hi rfl hs hs') hretries, hends, hr⟩

end Session

end PhraseTape
