import PhraseTape.Proofs.Run.Retries
import PhraseTape.Proofs.Text.FirstCharacter

/-!
# Failures of the writer

A writer may take only a part of the bytes it is offered, or none, and it may fail, also when it is
flushed. A run that it ends can be taken up again, and no harm is done but that the bytes of an
output may have been taken in part before they are offered once more as a whole: an input that fails
in its flush has not asked for its line yet, and everything else is found as it was left. A writer
that has given all its answers accepts everything, so in the end the run comes to the end of the
program as if the writer had never failed.

## Main definitions

* `Session.answersLeft` : the number of answers that a writer has left.
* `Spills`, `Stutters` : what a failed instruction has printed, and what is printed by the
  instructions of a run of which some are tried more than once.
* `Session.Obstructed`, `Session.Attempted` : two sessions, of which the second has a writer that
  never fails, and what an instruction leaves on the first one.
* `Session.Recovers` : a run that is taken up again until it has come to its end.

## Main results

* `Stutters.bytes_eq` : nothing is printed twice if no instruction prints more than one byte.
* `Session.Obstructed.perform` : an instruction succeeds on both sessions, or only the writer of the
  first one fails.
* `Session.Obstructed.recovers` : a run with a writer that fails comes to its end.
* `Session.resumed_of_obstructed` : a run that is taken up again after failures of its writer.
-/

namespace PhraseTape

/-- Offering bytes uses up answers, at least one if the writer fails. -/
theorem length_replies_offer (bytes : List UInt8) (replies : List WriteReply) :
    (offer bytes replies).replies.length ≤ replies.length ∧
      ((offer bytes replies).failure ≠ none →
        (offer bytes replies).replies.length < replies.length) := by
  induction replies generalizing bytes with
  | nil =>
    by_cases h : bytes = []
    · simp [h, offer_empty]
    · simp [offer_nil h]
  | cons r replies ih =>
    by_cases h : bytes = []
    · simp [h, offer_empty]
    cases r with
    | accept n =>
      cases n with
      | zero => simp [offer_accept_zero h]
      | succ n =>
        obtain ⟨hle, -⟩ := ih (bytes.drop (n + 1))
        rw [offer_accept_succ h, Offer.behind, List.length_cons]
        exact ⟨Nat.le_succ_of_le hle, fun _ => Nat.lt_succ_of_le hle⟩
    | fail e =>
      obtain ⟨hle, -⟩ := ih bytes
      rw [offer_fail h]
      split
      · rw [Offer.behind, List.length_cons]
        exact ⟨Nat.le_succ_of_le hle, fun _ => Nat.lt_succ_of_le hle⟩
      · simp

/-! ### Bytes that are printed more than once -/

/-- What the writer has accepted from an instruction at which it failed: a proper beginning of the
bytes of an output, and nothing from an input or from the flush at the end of the program. -/
inductive Spills (encoding : OutputEncoding) : Option Moment → List UInt8 → Prop
  | output {m : Moment} {part rest : List UInt8} (hm : m.instruction = .print)
      (h : part ++ rest = m.printed encoding) (hrest : rest ≠ []) : Spills encoding (some m) part
  | input {m : Moment} (hm : m.instruction = .read) : Spills encoding (some m) []
  | finish : Spills encoding none []

/-- What is printed by instructions with the moments `ms`, and then the flush at the end, if the
writer fails at the moments `failed`: what is spilled by each failure stands in front of the bytes
of the instruction that failed. -/
inductive Stutters (encoding : OutputEncoding) :
    List (Option Moment) → List Moment → List UInt8 → Prop
  | nil : Stutters encoding [] [] []
  | done {failed : List (Option Moment)} {ms : List Moment} {bytes : List UInt8} (m : Moment)
      (h : Stutters encoding failed ms bytes) :
      Stutters encoding failed (m :: ms) (m.printed encoding ++ bytes)
  | again {failed : List (Option Moment)} {ms : List Moment} {part bytes : List UInt8}
      (hpart : Spills encoding ms.head? part) (h : Stutters encoding failed ms bytes) :
      Stutters encoding (ms.head? :: failed) ms (part ++ bytes)

variable {encoding : OutputEncoding} {failed : List (Option Moment)} {ms : List Moment}
  {part bytes : List UInt8}

theorem Spills.eq_nil {m : Moment} (h : Spills encoding (some m) part)
    (hm : (m.printed encoding).length ≤ 1) : part = [] := by
  cases h with
  | @output _ _ rest _ h hrest =>
    have hlength := congrArg List.length h
    have hpos := List.length_pos_iff.2 hrest
    rw [List.length_append] at hlength
    exact List.length_eq_zero_iff.1 (by omega)
  | input => rfl

/-- Nothing is printed twice if no instruction prints more than one byte. -/
theorem Stutters.bytes_eq (h : Stutters encoding failed ms bytes)
    (hms : ∀ m ∈ ms, (m.printed encoding).length ≤ 1) :
    bytes = ms.flatMap (Moment.printed encoding) := by
  induction h with
  | nil => rfl
  | done m _ ih =>
    rw [ih (List.forall_mem_cons.1 hms).2, List.flatMap_cons]
  | @again failed ms part bytes hpart _ ih =>
    have hnil : part = [] := by
      cases ms with
      | nil =>
        cases hpart
        rfl
      | cons m ms => exact hpart.eq_nil (List.forall_mem_cons.1 hms).1
    rw [hnil, List.nil_append, ih hms]

theorem length_printed_byte (m : Moment) : (m.printed .byte).length ≤ 1 := by
  unfold Moment.printed
  split <;> simp

/-- A cell that holds an ASCII character is printed as one byte. -/
theorem length_encode_of_lt {v : Cell} (hv : v < 128) : (encoding.encode v).length = 1 := by
  cases encoding with
  | byte => rfl
  | utf8 =>
    have hlt : v.toNat < 128 := hv
    rw [OutputEncoding.encode, Utf8.encode_oneByte hlt, List.length_singleton]

theorem length_printed_of_lt {m : Moment}
    (h : m.instruction = .print → ∀ v, m.cell = .ok v → v < 128) :
    (m.printed encoding).length ≤ 1 := by
  unfold Moment.printed
  split
  next v hm hv => exact Nat.le_of_eq (length_encode_of_lt (h hm v hv))
  next => exact Nat.zero_le 1

theorem printed_print {m : Machine} {v : Cell} (hv : m.cell = .ok v) :
    (m.moment .print).printed encoding = encoding.encode v := by
  have hcell : (m.moment .print).cell = .ok v := hv
  simp only [Moment.printed, hcell]
  rfl

namespace Session

/-- The number of answers that the writer has left. -/
def answersLeft (s : Session) : Nat :=
  s.console.replies.length + s.console.flushes.length

/-- The sessions agree in their machines and their readers, and the writer of the second never
fails. -/
structure Obstructed (s c : Session) : Prop where
  machine : c.machine = s.machine
  feed : c.console.feed = s.console.feed
  reliable : c.console.Reliable

variable {s t u c d v : Session} {i : Instruction} {e : IoError}

theorem answersLeft_flushed_le (s : Session) :
    answersLeft { s with console := s.console.flushed } ≤ s.answersLeft := by
  show s.console.replies.length + s.console.flushes.tail.length ≤ _
  rw [List.length_tail, answersLeft]
  omega

theorem answersLeft_flushed_of_some (h : s.console.nextFlush = some e) :
    answersLeft { s with console := s.console.flushed } < s.answersLeft := by
  have hne : s.console.flushes ≠ [] := by
    intro hnil
    rw [Console.nextFlush, hnil] at h
    cases h
  have hpos := List.length_pos_iff.2 hne
  show s.console.replies.length + s.console.flushes.tail.length < _
  rw [List.length_tail, answersLeft]
  omega

/-- What is left by an instruction that leads from `c` to `d` with a writer that never fails: it
leads to `d` here too, or the writer fails and the session is still at `c`, with fewer answers than
`n`. -/
def Attempted (n : Nat) (c d : Session) : Outcome → Prop
  | .ok () t => Obstructed t d ∧ t.answersLeft ≤ n
  | .error (.io _) t => Obstructed t c ∧ t.answersLeft < n
  | .error _ _ => False

/-! ### One instruction -/

/-- Where the writer fails in an instruction, it has spilled what it has accepted. -/
theorem spills_of_perform (h : s.perform i = .error (.io e) t) :
    Spills s.machine.encoding (some (s.machine.moment i))
      ((s.calls i).flatMap Event.accepted) := by
  rcases accepted_calls_of_error h with hnil | ⟨_, v, rest, rfl, -, hv, hrest, hsplit⟩
  · rw [hnil]
    rcases (fails_of_perform h).of_io with ⟨rfl, -⟩ | ⟨rfl, -⟩ | ⟨rfl, ⟨v, hv⟩, -⟩
    · exact .input rfl
    · exact .input rfl
    · exact .output rfl (List.nil_append _)
        (by rw [printed_print hv]; exact s.machine.encoding.encode_ne_nil v)
  · exact .output rfl (hsplit.trans (printed_print hv).symm) hrest

theorem Obstructed.perform_read (h : Obstructed s c) (hc : c.perform .read = .ok () d) :
    Attempted s.answersLeft c d (s.perform .read) := by
  obtain ⟨-, line, rest, j, hl, hr, rfl⟩ := perform_read_eq_ok_iff.1 hc
  cases hs : s.console.nextFlush with
  | some e =>
    rw [perform_read_of_nextFlush hs]
    exact ⟨⟨h.machine, h.feed, h.reliable⟩, answersLeft_flushed_of_some hs⟩
  | none =>
    rw [perform_read_eq_ok_iff.2 ⟨hs, line, rest, j, h.feed ▸ hl, h.machine ▸ hr, rfl⟩]
    exact ⟨⟨by rw [h.machine], rfl, h.reliable.flushed.asked rest⟩, answersLeft_flushed_le s⟩

theorem Obstructed.perform_print (h : Obstructed s c) (hc : c.perform .print = .ok () d) :
    Attempted s.answersLeft c d (s.perform .print) := by
  obtain ⟨v, c', hv, hw, rfl⟩ := perform_print_eq_ok_iff.1 hc
  obtain ⟨_, hw', hfeed, -, hreliable⟩ := h.reliable.write (c.machine.encoding.encode v)
  rw [hw] at hw'
  cases hw'
  have hanswers := length_replies_offer (s.machine.encoding.encode v) s.console.replies
  rw [perform_print_of_cell (h.machine ▸ hv)]
  cases he : (offer (s.machine.encoding.encode v) s.console.replies).failure <;>
    rw [Console.left_write]
  · exact ⟨⟨h.machine, hfeed.trans h.feed, hreliable⟩, Nat.add_le_add_right hanswers.1 _⟩
  · exact ⟨⟨h.machine, h.feed, h.reliable⟩,
      Nat.add_lt_add_right (hanswers.2 (by simp [he])) _⟩

/-- **An instruction of a run with a writer that never fails** succeeds with any other writer too,
unless this writer fails; then nothing is changed but that answers of the writer are used up. -/
theorem Obstructed.perform (h : Obstructed s c) (hc : c.perform i = .ok () d) :
    Attempted s.answersLeft c d (s.perform i) := by
  by_cases hread : i = .read
  · subst hread
    exact h.perform_read hc
  by_cases hprint : i = .print
  · subst hprint
    exact h.perform_print hc
  have halike := perform_of_machine_eq h.machine.symm hread hprint
  rw [hc] at halike
  obtain ⟨t, ht, hmachine, hd, hconsole⟩ := halike.of_ok
  rw [ht]
  refine ⟨⟨hmachine.symm, ?_, ?_⟩, ?_⟩
  · rw [hd, hconsole, h.feed]
  · rw [hd]
    exact h.reliable
  · rw [answersLeft, hconsole]
    exact Nat.le_refl _

theorem Obstructed.advance (h : Obstructed s c) : Obstructed s.advance c.advance :=
  ⟨congrArg Machine.advance h.machine, h.feed, h.reliable⟩

/-! ### A run -/

/-- The run from `s`, taken up again after each failure of its writer, carries out instructions with
the moments `ms`, each as often as it takes to succeed, and ends without a fault like a run that is
in `v` at the end of the program. -/
def Recovers (ms : List Moment) (s v : Session) : Prop :=
  ∃ failed u bytes, Resumed failed s (.ok ()) u ∧ failed.length ≤ s.answersLeft ∧
    u.machine = v.machine ∧ u.console.feed = v.console.feed ∧
    u.console.output = s.console.output ++ bytes ∧ Stutters s.machine.encoding failed ms bytes

theorem Recovers.of_step {ms : List Moment} (hi : s.machine.current? = some i)
    (hs : s.step = .ok () t) (hle : t.answersLeft ≤ s.answersLeft) (h : Recovers ms t v) :
    Recovers (s.machine.moment i :: ms) s v := by
  obtain ⟨failed, u, bytes, hu, hlength, hmachine, hfeed, houtput, hstutters⟩ := h
  refine ⟨failed, u, _, hu.of_step hi hs, Nat.le_trans hlength hle, hmachine, hfeed, ?_,
    .done _ ((SameSetting.of_step hs).encoding ▸ hstutters)⟩
  rw [houtput, output_of_step_ok hi hs, List.append_assoc]

theorem Recovers.of_failure {ms : List Moment} {part : List UInt8}
    (hs : Ends Observer.silent () s (.error (.io e)) () t) (hmachine : t.machine = s.machine)
    (hmoment : s.moment? = ms.head?) (hpart : Spills s.machine.encoding ms.head? part)
    (houtput : t.console.output = s.console.output ++ part)
    (hlt : t.answersLeft < s.answersLeft) (h : Recovers ms t v) : Recovers ms s v := by
  obtain ⟨failed, u, bytes, hu, hlength, hmachine', hfeed, houtput', hstutters⟩ := h
  have hmoment' : t.moment? = ms.head? := by rw [moment?, hmachine, ← hmoment, moment?]
  have hu' := hu.of_ends hs
  rw [hmoment'] at hu'
  refine ⟨ms.head? :: failed, u, _, hu', Nat.lt_of_le_of_lt hlength hlt, hmachine', hfeed, ?_,
    .again hpart (hmachine ▸ hstutters)⟩
  rw [houtput', houtput, List.append_assoc]

/-- At the end of the program everything is flushed, if the writer does not fail. -/
theorem Obstructed.recovers_of_finished (h : Obstructed s v) (hv : v.machine.current? = none)
    (ih : ∀ t, Obstructed t v → t.answersLeft < s.answersLeft → Recovers [] t v) :
    Recovers [] s v := by
  have hi : s.machine.current? = none := h.machine ▸ hv
  have hfinish := finish_eq_flushed () s
  cases hs : s.console.nextFlush with
  | none =>
    rw [hs] at hfinish
    refine ⟨[], _, [], ⟨s, .refl s, .finish hi hfinish, by simp⟩, Nat.zero_le _, h.machine.symm,
      h.feed.symm, ?_, .nil⟩
    rw [Console.output_flushed, List.append_nil]
  | some e =>
    rw [hs] at hfinish
    have hlt := answersLeft_flushed_of_some hs
    refine Recovers.of_failure (.finish hi hfinish) rfl ?_ .finish ?_ hlt
      (ih _ ⟨h.machine, h.feed, h.reliable⟩ hlt)
    · rw [moment?, hi]
      rfl
    · rw [Console.output_flushed, List.append_nil]

/-- A run with a writer that never fails is followed by the run with any other writer, taken up
again after each failure. The induction is on the instructions that are still to come and the
answers that are left: an instruction that succeeds is done, and a failure uses up an answer. -/
theorem Obstructed.recovers {ms : List Moment} (h : Obstructed s c)
    (hp : Passes Observer.silent ms () c () v) (hv : v.machine.current? = none) :
    Recovers ms s v := by
  induction hn : ms.length + s.answersLeft using Nat.strongRecOn generalizing s c ms with
  | _ n ih =>
  subst hn
  cases hp with
  | refl =>
    exact h.recovers_of_finished hv fun t ht hlt =>
      ih _ (Nat.add_lt_add_left hlt _) ht (.refl () v) rfl
  | @step ms _ _ _ _ _ _ i hi ho hstep hrest =>
    obtain ⟨d, hd, rfl⟩ := perform_of_step_ok hi hstep
    have hattempt := h.perform hd
    have hi' : s.machine.current? = some i := h.machine ▸ hi
    have hmoment : c.machine.moment i = s.machine.moment i := by rw [h.machine]
    match hs : s.perform i, hattempt with
    | .ok _ t, hattempt =>
      obtain ⟨htd, hle⟩ := hattempt
      have hstep' : s.step = .ok () t.advance := by rw [step_of_current? hi', hs]
      have hms : ms.length < (c.machine.moment i :: ms).length := Nat.lt_succ_self _
      rw [hmoment]
      exact Recovers.of_step hi' hstep' hle
        (ih _ (Nat.add_lt_add_of_lt_of_le hms hle) htd.advance hrest rfl)
    | .error (.io e) t, hattempt =>
      obtain ⟨htc, hlt⟩ := hattempt
      have hstep' : s.step = .error (.io e) t := by rw [step_of_current? hi', hs]
      refine Recovers.of_failure (.fault hi' rfl hstep') (htc.machine.symm.trans h.machine) ?_
        (hmoment ▸ spills_of_perform hs) ?_ hlt
        (ih _ (Nat.add_lt_add_left hlt _) htc (.step hi ho hstep hrest) rfl)
      · rw [moment?, hi', Option.map_some, List.head?_cons, hmoment]
      · rw [Console.output, transcript_of_step_error hi' hstep', Transcript.output_append,
          Console.output]

/-- **Failures of the writer do no harm** but that bytes are printed twice. Let the run with a
writer that never fails end without a fault. With any writer, the run that is taken up again after
each failure ends without a fault as well, and in no other way; the failures are at most as many as
the answers that the writer had to give. It leaves the same machine and the same reader. It prints
the same bytes, but in front of the bytes of each output stand those that failed attempts at it have
spilled, each time a proper beginning of its bytes. Nothing is spilled if the encoding is `byte`, or
if all cells that are printed hold ASCII characters: then the same bytes are printed. -/
theorem resumed_of_obstructed (h : Obstructed s c)
    (hclean : Ends Observer.silent () c (.ok ()) () t) :
    ∃ (ms : List Moment) (v : Session) (failed : List (Option Moment)) (u : Session)
      (bytes : List UInt8),
      Passes Observer.silent ms () c () v ∧ v.machine.current? = none ∧
      t.console.output =
        c.console.output ++ ms.flatMap (Moment.printed s.machine.encoding) ∧
      (∀ failed' r u', Resumed failed' s r u' ↔ failed' = failed ∧ r = .ok () ∧ u' = u) ∧
      failed.length ≤ s.answersLeft ∧
      u.machine = t.machine ∧ u.console.feed = t.console.feed ∧
      u.console.output = s.console.output ++ bytes ∧
      Stutters s.machine.encoding failed ms bytes ∧
      ((s.machine.encoding = .byte ∨
        ∀ m ∈ ms, m.instruction = .print → ∀ x, m.cell = .ok x → x < 128) →
        bytes = ms.flatMap (Moment.printed s.machine.encoding)) := by
  obtain ⟨ms, v, hpasses, hv, rfl⟩ := exists_passes_of_ends_ok hclean
  obtain ⟨failed, u, bytes, hu, hlength, hmachine, hfeed, houtput, hstutters⟩ :=
    h.recovers hpasses hv
  refine ⟨ms, v, failed, u, bytes, hpasses, hv, ?_, fun failed' r u' => ⟨hu.unique, ?_⟩, hlength,
    hmachine, hfeed, houtput, hstutters, fun hbytes => hstutters.bytes_eq fun m hm => ?_⟩
  · rw [Console.output_flushed, hpasses.output_eq, h.machine]
  · rintro ⟨rfl, rfl, rfl⟩
    exact hu
  · rcases hbytes with hbyte | hascii
    · rw [hbyte]
      exact length_printed_byte m
    · exact length_printed_of_lt (hascii m hm)

/-- Prints a cell of two bytes and then asks for a line; the writer fails between the bytes, and in
the flush in front of the line. -/
def failsTwice : Session where
  machine := { program := #[.print, .read], tape := (Tape.new 1 .error).put 0 233 }
  console :=
    { feed := [.piece [65, 10], .piece [66]]
      replies := [.accept 1, .fail ⟨.brokenPipe, none⟩]
      flushes := [some ⟨.brokenPipe, none⟩] }

/-- The first byte is printed twice, and one line is taken. -/
theorem resumed_of_obstructed_failsTwice :
    Obstructed failsTwice failsTwice.accepting ∧
    ∃ failed u, Resumed failed failsTwice (.ok ()) u ∧ failed.length = 2 ∧
      u.machine = (failsTwice.accepting.execute Observer.silent 2 ()).session.machine ∧
      u.console.feed = [.piece [66]] ∧ u.console.output = [195, 195, 169] := by
  have hobstructed : Obstructed failsTwice failsTwice.accepting :=
    ⟨rfl, rfl, by simp [accepting], by simp [accepting]⟩
  have hclean : Ends Observer.silent () failsTwice.accepting (.ok ()) ()
      (failsTwice.accepting.execute Observer.silent 2 ()).session :=
    ends_of_execute (n := 2) rfl
  let first := (failsTwice.execute Observer.silent 2 ()).session
  let second := (first.execute Observer.silent 2 ()).session
  let third := (second.execute Observer.silent 2 ()).session
  have hresumed : Resumed [first.moment?, second.moment?] failsTwice (.ok ()) third :=
    ⟨second, .again (ends_of_execute (n := 2) rfl)
      (.again (ends_of_execute (n := 2) rfl) (.refl _)), ends_of_execute (n := 2) rfl, by simp⟩
  obtain ⟨ms, v, failed, u, bytes, -, -, -, hiff, -, hmachine, -⟩ :=
    resumed_of_obstructed hobstructed hclean
  obtain ⟨rfl, -, rfl⟩ := (hiff _ _ _).1 hresumed
  exact ⟨hobstructed, _, _, hresumed, rfl, hmachine, rfl, rfl⟩

end Session

end PhraseTape
