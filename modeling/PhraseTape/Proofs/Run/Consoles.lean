import PhraseTape.Proofs.Console.Reading
import PhraseTape.Proofs.Run.Lockstep
import PhraseTape.Proofs.Run.Moments

/-!
# The same instruction on two consoles

An instruction makes its calls to the console of its session, and goes on by their results. So two
sessions whose machines are the same up to the encoding carry out an instruction alike if the calls
of the instruction have the same results on their consoles. What the consoles have in common is left
open here: it is any relation that the calls keep.

## Main definitions

* `Console.Alike` : two operations on consoles with the same result.
* `Session.OnConsoles` : two sessions that differ at most in their encodings and their consoles.

## Main results

* `Console.alike_flush`, `Console.alike_readLine` : calls that have the same result.
* `Session.OnConsoles.perform`, `Session.OnConsoles.step` : one instruction on both consoles.
* `Session.perform_of_machine_eq` : an instruction that makes no calls.
-/

namespace PhraseTape

namespace Console

/-- Two operations fail alike or succeed alike, and leave related consoles. -/
def Alike {α : Type} (C : Console → Console → Prop) :
    EStateM.Result IoError Console α → EStateM.Result IoError Console α → Prop
  | .ok x c, .ok y d => y = x ∧ C c d
  | .error e c, .error f d => f = e ∧ C c d
  | _, _ => False

variable {C : Console → Console → Prop} {c d : Console}

theorem Alike.of_ok {α : Type} {x : α} {o : EStateM.Result IoError Console α}
    (h : Alike C (.ok x c) o) : ∃ d, o = .ok x d ∧ C c d := by
  match o, h with
  | .ok y d, h => exact ⟨d, by rw [h.1], h.2⟩

theorem Alike.of_error {α : Type} {e : IoError} {o : EStateM.Result IoError Console α}
    (h : Alike C (.error e c) o) : ∃ d, o = .error e d ∧ C c d := by
  match o, h with
  | .error f d, h => exact ⟨d, by rw [h.1], h.2⟩

/-- Two flushes that have the same answer are alike. -/
theorem alike_flush (hnext : d.nextFlush = c.nextFlush) (h : C c.flushed d.flushed) :
    Alike C c.flush d.flush := by
  cases hc : c.nextFlush with
  | none =>
    rw [flush_of_nextFlush_none hc, flush_of_nextFlush_none (hnext.trans hc)]
    exact ⟨rfl, h⟩
  | some e =>
    rw [flush_of_nextFlush_some hc, flush_of_nextFlush_some (hnext.trans hc)]
    exact ⟨rfl, h⟩

/-- Two lines that the same reader is asked for are alike. -/
theorem alike_readLine (hfeed : d.feed = c.feed)
    (h : ∀ rest, C (c.asked rest) (d.asked rest)) : Alike C c.readLine d.readLine := by
  simp only [Console.readLine, hfeed]
  cases c.feed.readLine [] with
  | ok line rest => exact ⟨rfl, h rest⟩
  | error e rest => exact ⟨rfl, h rest⟩

end Console

namespace Session

/-- The machine of the first session has the encoding `d`, that of the second is the same with the
encoding `e`, and the consoles are related. -/
structure OnConsoles (d e : OutputEncoding) (C : Console → Console → Prop) (s t : Session) :
    Prop where
  encoding : s.machine.encoding = d
  machine : t.machine = { s.machine with encoding := e }
  console : C s.console t.console

variable {d e : OutputEncoding} {C : Console → Console → Prop} {s t : Session} {i : Instruction}

/-- On one encoding the machines are the same. -/
theorem OnConsoles.machine_eq (h : OnConsoles e e C s t) : t.machine = s.machine := by
  rw [h.machine, ← h.encoding]

/-- **An instruction on two consoles** fails or succeeds alike if the calls that it makes do. -/
theorem OnConsoles.perform (h : OnConsoles d e C s t)
    (hflush : i = .read → Console.Alike C s.console.flush t.console.flush)
    (hline : i = .read → ∀ b c, C b c → Console.Alike C b.readLine c.readLine)
    (hwrite : i = .print → ∀ v,
      Console.Alike C (s.console.write (d.encode v)) (t.console.write (e.encode v))) :
    Outcome.Alike (OnConsoles d e C) (s.perform i) (t.perform i) := by
  obtain ⟨m, b⟩ := s
  obtain ⟨m', c⟩ := t
  obtain ⟨rfl, hm, hbc⟩ := h
  obtain rfl : m' = { m with encoding := e } := hm
  have hcell : Machine.cell { m with encoding := e } = m.cell := rfl
  cases i with
  | change sign text =>
    simp only [Session.perform, addCell]
    cases m.tape.resolve m.pointer with
    | ok j => exact ⟨rfl, rfl, hbc⟩
    | error f => exact ⟨rfl, rfl, rfl, hbc⟩
  | right | left => exact ⟨rfl, rfl, hbc⟩
  | loopStart | loopEnd =>
    simp only [Session.perform, jumpIf, hcell]
    cases m.cell with
    | error f => exact ⟨rfl, rfl, rfl, hbc⟩
    | ok v =>
      simp only
      split <;> exact ⟨rfl, rfl, hbc⟩
  | read =>
    have hf : Console.Alike C b.flush c.flush := hflush rfl
    simp only [Session.perform, readCell]
    cases hb : b.flush with
    | error f b₁ =>
      obtain ⟨c₁, hc, h₁⟩ := (hb ▸ hf).of_error
      simp only [hc]
      exact ⟨rfl, rfl, rfl, h₁⟩
    | ok _ b₁ =>
      obtain ⟨c₁, hc, h₁⟩ := (hb ▸ hf).of_ok
      have hl := hline rfl b₁ c₁ h₁
      simp only [hc]
      cases hb₁ : b₁.readLine with
      | error f b₂ =>
        obtain ⟨c₂, hc₁, h₂⟩ := (hb₁ ▸ hl).of_error
        simp only [hc₁]
        exact ⟨rfl, rfl, rfl, h₂⟩
      | ok line b₂ =>
        obtain ⟨c₂, hc₁, h₂⟩ := (hb₁ ▸ hl).of_ok
        simp only [hc₁]
        cases m.tape.resolve m.pointer with
        | ok j => exact ⟨rfl, rfl, h₂⟩
        | error f => exact ⟨rfl, rfl, rfl, h₂⟩
  | print =>
    simp only [Session.perform, printCell, hcell]
    cases m.cell with
    | error f => exact ⟨rfl, rfl, rfl, hbc⟩
    | ok v =>
      have hw : Console.Alike C (b.write (m.encoding.encode v)) (c.write (e.encode v)) :=
        hwrite rfl v
      cases hb : b.write (m.encoding.encode v) with
      | error f b₁ =>
        obtain ⟨c₁, hc, h₁⟩ := (hb ▸ hw).of_error
        simp only [hb, hc]
        exact ⟨rfl, rfl, rfl, h₁⟩
      | ok _ b₁ =>
        obtain ⟨c₁, hc, h₁⟩ := (hb ▸ hw).of_ok
        simp only [hb, hc]
        exact ⟨rfl, rfl, h₁⟩

/-- An instruction that makes no calls does not notice the consoles, and leaves them as they are. -/
theorem perform_of_machine_eq (h : t.machine = s.machine) (hread : i ≠ .read)
    (hprint : i ≠ .print) :
    Outcome.Alike (fun u v => v.machine = u.machine ∧ u.console = s.console ∧
      v.console = t.console) (s.perform i) (t.perform i) := by
  have hconsoles : OnConsoles s.machine.encoding s.machine.encoding
      (fun c d => c = s.console ∧ d = t.console) s t := ⟨rfl, h, rfl, rfl⟩
  exact (hconsoles.perform (absurd · hread) (absurd · hread) (absurd · hprint)).mono
    fun _ _ huv => ⟨huv.machine_eq, huv.console⟩

theorem OnConsoles.advance (h : OnConsoles d e C s t) :
    OnConsoles d e C s.advance t.advance := by
  refine ⟨h.encoding, ?_, h.console⟩
  show t.machine.advance = _
  rw [h.machine]
  rfl

/-- A step on two consoles fails or succeeds alike if its instruction does. -/
theorem OnConsoles.step (h : OnConsoles d e C s t) (hi : s.machine.current? = some i)
    (halike : Outcome.Alike (OnConsoles d e C) (s.perform i) (t.perform i)) :
    Outcome.Alike (OnConsoles d e C) s.step t.step := by
  have hi' : t.machine.current? = some i := by
    rw [h.machine]
    exact hi
  exact alike_step hi hi' (fun _ _ => OnConsoles.advance) halike

/-- The end of a run on two consoles is alike if the flush is. -/
theorem OnConsoles.finish {σ : Type} (h : OnConsoles d e C s t)
    (hflush : Console.Alike C s.console.flush t.console.flush) (a : σ) :
    Report.Alike (OnConsoles d e C) (s.finish a) (t.finish a) := by
  obtain ⟨m, b⟩ := s
  obtain ⟨m', c⟩ := t
  obtain ⟨hd, hm, -⟩ := h
  replace hflush : Console.Alike C b.flush c.flush := hflush
  simp only [Session.finish]
  cases hb : b.flush with
  | error f b₁ =>
    obtain ⟨c₁, hc, h₁⟩ := (hb ▸ hflush).of_error
    simp only [hc]
    exact ⟨rfl, rfl, hd, hm, h₁⟩
  | ok _ b₁ =>
    obtain ⟨c₁, hc, h₁⟩ := (hb ▸ hflush).of_ok
    simp only [hc]
    exact ⟨rfl, rfl, hd, hm, h₁⟩

end Session

end PhraseTape
