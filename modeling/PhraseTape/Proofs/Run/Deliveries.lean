import PhraseTape.Proofs.Run.Consoles
import PhraseTape.Proofs.Run.Inputs

/-!
# How the input is delivered

A reader may cut its bytes into pieces in any way and may be interrupted between them. A run does
not notice: its inputs receive the lines of the bytes one after another, each input leaves the
bytes behind its line, and two readers that deliver the same bytes give the same run.

## Main definitions

* `Feed.Recut`, `Session.Recut` : feeds that cut the same bytes in two ways, and sessions that
  differ in nothing else.
* `Session.LeadsReading` : a part of a run, with the number of lines that it reads.
* `Session.Takes` : a part of a run, with the cells that its inputs have stored.

## Main results

* `Session.perform_read_of_smooth` : what an input receives.
* `Session.lockstep_recut` : two runs on the same bytes.
* `Session.leads_iff_reading` : every part of a run reads some number of lines.
* `Session.Takes.lines_eq` : the lines that the inputs of a run have stored, and those that are
  left.
* `Session.reads_lines_in_order` : what the inputs of a run receive.
-/

namespace PhraseTape

variable {σ : Type}

/-- The two feeds deliver the same bytes, cut in different ways, and have no failures but
interruptions. -/
structure Feed.Recut (f g : Feed) : Prop where
  left : f.Smooth
  right : g.Smooth
  bytes : g.bytes = f.bytes

namespace Console

/-- The console with another reader. -/
def withFeed (feed : Feed) (c : Console) : Console :=
  { c with feed }

/-- A flush leaves the reader alone, whether it fails or not. -/
theorem feed_left_flush (c : Console) : (left c.flush).feed = c.feed := by
  rw [left_flush]

theorem feed_left_write (c : Console) (bytes : List UInt8) :
    (left (c.write bytes)).feed = c.feed := by
  rw [left_write]

theorem feed_of_flush_ok {c d : Console} (h : c.flush = .ok () d) : d.feed = c.feed := by
  rw [← c.feed_left_flush, h]
  rfl

theorem feed_of_flush_error {c d : Console} {e : IoError} (h : c.flush = .error e d) :
    d.feed = c.feed := by
  rw [← c.feed_left_flush, h]
  rfl

theorem flush_withFeed (feed : Feed) (c : Console) :
    (c.withFeed feed).flush =
      match c.flush with
      | .ok () d => .ok () (d.withFeed feed)
      | .error e d => .error e (d.withFeed feed) := by
  simp only [flush, withFeed, nextFlush]
  cases c.flushes.head?.join <;> rfl

theorem write_withFeed (feed : Feed) (c : Console) (bytes : List UInt8) :
    (c.withFeed feed).write bytes =
      match c.write bytes with
      | .ok () d => .ok () (d.withFeed feed)
      | .error e d => .error e (d.withFeed feed) := by
  simp only [write, withFeed]
  cases (offer bytes c.replies).failure <;> rfl

end Console

namespace Session

/-- The session with another reader. -/
def withFeed (feed : Feed) (s : Session) : Session :=
  { s with console := s.console.withFeed feed }

/-- The sessions differ at most in how the same bytes are delivered to them. -/
structure Recut (s t : Session) : Prop where
  feed : Feed.Recut s.console.feed t.console.feed
  same : t = s.withFeed t.console.feed

/-- The run from `s` with the notes `a` comes to `t` with the notes `b` by instructions that are let
through and succeed, `k` of which read a line. -/
def LeadsReading (observe : Observer σ) (k : Nat) (a : σ) (s : Session) (b : σ) (t : Session) :
    Prop :=
  ∃ ms, ms.countP (·.instruction == .read) = k ∧ Passes observe ms a s b t

/-- The run from `s` with the notes `a` comes to `t` with the notes `b` by instructions that are let
through and succeed. The cells `vs` are those that its inputs have stored under the pointer, one
after another. -/
def Takes (observe : Observer σ) (vs : List Cell) (a : σ) (s : Session) (b : σ) (t : Session) :
    Prop :=
  ∃ stored, stored.flatten = vs.map .ok ∧
    Course observe (fun _ _ i t => if i = .read then [t.machine.cell] else []) stored a s b t

variable {s t : Session} {i : Instruction} {observe : Observer σ}

/-! ### One instruction -/

/-- From a smooth feed an input receives the first line of its bytes, and leaves those behind it. -/
theorem perform_read_of_smooth (h : s.console.feed.Smooth) {c : Console}
    (hc : s.console.flush = .ok () c) :
    ∃ left : Feed, left.Smooth ∧ left.bytes = (firstLine s.console.feed.bytes).2 ∧
      s.perform .read =
        match s.machine.tape.resolve s.machine.pointer with
        | .ok j =>
          .ok () ⟨s.machine.put j (Cell.ofLineBytes (firstLine s.console.feed.bytes).1),
            { c with feed := left, transcript := c.transcript.push .lineRequested }⟩
        | .error e =>
          .error (.address e) ⟨s.machine,
            { c with feed := left, transcript := c.transcript.push .lineRequested }⟩ := by
  obtain ⟨rest, hline, hsmooth, hbytes⟩ := h.exists_handsOut
  cases hf : s.console.nextFlush with
  | none =>
    rw [Console.flush_of_nextFlush_none hf] at hc
    cases hc
    exact ⟨rest, hsmooth, hbytes, perform_read_of_handsOut hf hline⟩
  | some e =>
    rw [Console.flush_of_nextFlush_some hf] at hc
    cases hc

/-- An instruction that is no input leaves the reader alone, and does not depend on it. -/
theorem perform_withFeed (hi : i ≠ .read) (feed : Feed) (s : Session) :
    Outcome.Alike (fun u v => v = u.withFeed feed ∧ u.console.feed = s.console.feed)
      (s.perform i) ((s.withFeed feed).perform i) := by
  have hs : OnConsoles s.machine.encoding s.machine.encoding
      (fun c d => d = c.withFeed feed ∧ c.feed = s.console.feed) s (s.withFeed feed) :=
    ⟨rfl, rfl, rfl, rfl⟩
  refine (hs.perform (absurd · hi) (absurd · hi) fun _ v => ?_).mono ?_
  · have hleft := s.console.feed_left_write (s.machine.encoding.encode v)
    have hwith := s.console.write_withFeed feed (s.machine.encoding.encode v)
    show Console.Alike _ _ ((s.console.withFeed feed).write _)
    rw [hwith]
    match s.console.write (s.machine.encoding.encode v), hleft with
    | .ok _ d, hleft => exact ⟨rfl, rfl, hleft⟩
    | .error e d, hleft => exact ⟨rfl, rfl, hleft⟩
  · rintro u ⟨m, c⟩ h
    obtain ⟨rfl, hfeed⟩ := h.console
    obtain rfl := h.machine_eq
    exact ⟨rfl, hfeed⟩

/-- An input fails or succeeds alike on the same bytes. -/
theorem Recut.perform_read (h : Recut s t) :
    Outcome.Alike Recut (s.perform .read) (t.perform .read) := by
  obtain ⟨⟨hs, ht, hbytes⟩, hsame⟩ := h
  generalize t.console.feed = g at ht hbytes hsame
  subst hsame
  have hwith := s.console.flush_withFeed g
  cases hflush : s.console.flush with
  | error f d =>
    rw [hflush] at hwith
    have hfeed := Console.feed_of_flush_error hflush
    simp only [perform, readCell, withFeed, hflush, hwith]
    exact ⟨rfl, ⟨⟨hfeed ▸ hs, ht, hfeed ▸ hbytes⟩, rfl⟩⟩
  | ok _ c =>
    rw [hflush] at hwith
    obtain ⟨l, hl, hlbytes, hp⟩ := perform_read_of_smooth hs hflush
    obtain ⟨l', hl', hlbytes', hp'⟩ :=
      perform_read_of_smooth (s := s.withFeed g) (c := c.withFeed g) ht hwith
    have hfeed : (s.withFeed g).console.feed.bytes = s.console.feed.bytes := hbytes
    rw [hfeed] at hp' hlbytes'
    rw [hp, hp']
    have hbytes' : l'.bytes = l.bytes := hlbytes'.trans hlbytes.symm
    show Outcome.Alike Recut _ (match s.machine.tape.resolve s.machine.pointer with
      | .ok j => _
      | .error e => _)
    cases s.machine.tape.resolve s.machine.pointer with
    | ok j => exact ⟨⟨hl, hl', hbytes'⟩, rfl⟩
    | error e => exact ⟨rfl, ⟨hl, hl', hbytes'⟩, rfl⟩

/-- An instruction fails or succeeds alike on the same bytes. -/
theorem Recut.perform (h : Recut s t) (i : Instruction) :
    Outcome.Alike Recut (s.perform i) (t.perform i) := by
  by_cases hi : i = .read
  · subst hi
    exact h.perform_read
  · have halike := perform_withFeed hi t.console.feed s
    rw [← h.same] at halike
    refine halike.mono ?_
    rintro u v ⟨rfl, hu⟩
    exact ⟨⟨hu ▸ h.feed.left, h.feed.right, hu ▸ h.feed.bytes⟩, rfl⟩

/-! ### Runs on the same bytes -/

theorem Recut.machine_eq (h : Recut s t) : t.machine = s.machine := by
  rw [h.same]
  rfl

theorem Recut.advance (h : Recut s t) : Recut s.advance t.advance := by
  refine ⟨h.feed, ?_⟩
  rw [h.same]
  rfl

/-- A step fails or succeeds alike on the same bytes. -/
theorem Recut.step (h : Recut s t) (hi : s.machine.current? = some i) :
    Outcome.Alike Recut s.step t.step := by
  have hi' : t.machine.current? = some i := h.machine_eq ▸ hi
  exact alike_step hi hi' (fun _ _ => Recut.advance) (h.perform i)

/-- The flush at the end of a run fails or succeeds alike on the same bytes. -/
theorem Recut.finish (h : Recut s t) (a : σ) : Report.Alike Recut (s.finish a) (t.finish a) := by
  obtain ⟨hfeed, hsame⟩ := h
  generalize t.console.feed = g at hfeed hsame
  subst hsame
  obtain ⟨m, c⟩ := s
  simp only [Session.finish, withFeed, c.flush_withFeed g]
  cases hflush : c.flush with
  | ok _ d => exact ⟨rfl, rfl, ⟨Console.feed_of_flush_ok hflush ▸ hfeed, rfl⟩⟩
  | error f d => exact ⟨rfl, rfl, ⟨Console.feed_of_flush_error hflush ▸ hfeed, rfl⟩⟩

/-- **A run does not depend on how its input is cut**: no observer sees the reader, and no step
depends on more than the bytes. -/
theorem lockstep_recut (observe : Observer σ) :
    Lockstep observe observe Recut fun _ _ => True where
  current h := by rw [h.machine_eq]
  verdict _ h _ := by rw [h.machine_eq]
  step h hi _ _ := h.step hi
  finish a h := h.finish a

/-! ### The lines of a run -/

variable {a b : σ}

/-- A step that is no input leaves the reader alone. -/
theorem feed_of_step (hi : s.machine.current? = some i) (hne : i ≠ .read)
    (hs : s.step = .ok () t) : t.console.feed = s.console.feed := by
  have halike := perform_withFeed hne s.console.feed s
  obtain ⟨u, hp, rfl⟩ := perform_of_step_ok hi hs
  rw [hp] at halike
  obtain ⟨v, -, -, hfeed⟩ := halike.of_ok
  exact hfeed

/-- From a smooth feed an input that succeeds has stored the first line, and leaves the bytes behind
it. -/
theorem taken_of_step_read (hsmooth : s.console.feed.Smooth)
    (hi : s.machine.current? = some .read) (hs : s.step = .ok () t) :
    t.machine.cell = .ok (Cell.ofLineBytes (firstLine s.console.feed.bytes).1) ∧
      t.console.feed.Smooth ∧ t.console.feed.bytes = (firstLine s.console.feed.bytes).2 := by
  obtain ⟨line, rest, hline, hcell, hconsole⟩ := cell_of_step_read hi hs
  obtain ⟨rfl, hrest, hbytes⟩ := hline.of_smooth hsmooth
  rw [hconsole]
  exact ⟨hcell, hrest, hbytes⟩

/-- Every place to which a run leads comes with a number of lines that were read on the way. -/
theorem leads_iff_reading : (∃ n, Leads observe n a s b t) ↔ ∃ k, LeadsReading observe k a s b t :=
  ⟨fun ⟨_, ms, _, h⟩ => ⟨_, ms, rfl, h⟩, fun ⟨_, ms, _, h⟩ => ⟨_, ms, rfl, h⟩⟩

theorem Takes.refl (a : σ) (s : Session) : Takes observe [] a s a s :=
  ⟨[], rfl, .refl a s⟩

theorem Takes.read {v : Cell} {vs : List Cell} {c : σ} {u : Session}
    (hi : s.machine.current? = some .read) (ho : observe (s.machine.moment .read) a = (.proceed, b))
    (hs : s.step = .ok () t) (hv : t.machine.cell = .ok v) (h : Takes observe vs b t c u) :
    Takes observe (v :: vs) a s c u := by
  obtain ⟨stored, hstored, hcourse⟩ := h
  refine ⟨_, ?_, .step hi ho hs hcourse⟩
  rw [List.flatten_cons, if_pos rfl, hstored, hv, List.singleton_append, List.map_cons]

theorem Takes.other {vs : List Cell} {c : σ} {u : Session} (hi : s.machine.current? = some i)
    (hne : i ≠ .read) (ho : observe (s.machine.moment i) a = (.proceed, b))
    (hs : s.step = .ok () t) (h : Takes observe vs b t c u) : Takes observe vs a s c u := by
  obtain ⟨stored, hstored, hcourse⟩ := h
  refine ⟨_, ?_, .step hi ho hs hcourse⟩
  rw [List.flatten_cons, if_neg hne, hstored, List.nil_append]

/-- In every part of a run each line that was read has been stored. -/
theorem Passes.exists_takes {ms : List Moment} (h : Passes observe ms a s b t) :
    ∃ vs, vs.length = ms.countP (·.instruction == .read) ∧ Takes observe vs a s b t := by
  induction h with
  | refl a s => exact ⟨[], rfl, .refl a s⟩
  | @step ms a b c s t u i hi ho hs _ ih =>
    obtain ⟨vs, hlength, hvs⟩ := ih
    by_cases hread : i = .read
    · subst hread
      obtain ⟨line, rest, -, hcell, -⟩ := cell_of_step_read hi hs
      refine ⟨_ :: vs, ?_, .read hi ho hs hcell hvs⟩
      rw [List.length_cons, hlength]
      exact (List.countP_cons_of_pos rfl).symm
    · refine ⟨vs, hlength.trans (List.countP_cons_of_neg ?_).symm, .other hi hread ho hs hvs⟩
      exact fun h => hread (eq_of_beq h)

/-- **The lines of a run.** The inputs of a run store the lines of its bytes in order, and empty
lines when these are used up; the lines that are left are those that no input has taken. The
induction goes along the run, and each input takes the first of the lines that are left. -/
theorem Takes.lines_eq {vs : List Cell} (h : Takes observe vs a s b t)
    (hs : s.console.feed.Smooth) : t.console.feed.Smooth ∧
      lines t.console.feed.bytes = (lines s.console.feed.bytes).drop vs.length ∧
      ∀ k v, vs[k]? = some v →
        v = Cell.ofLineBytes ((lines s.console.feed.bytes).getD k []) := by
  obtain ⟨stored, hstored, hcourse⟩ := h
  induction hcourse generalizing vs with
  | refl a s =>
    obtain rfl : vs = [] := List.map_eq_nil_iff.1 hstored.symm
    exact ⟨hs, List.drop_zero.symm, nofun⟩
  | @step stored a b c s t u i hi ho hstep _ ih =>
    rw [List.flatten_cons] at hstored
    by_cases hread : i = .read
    · subst hread
      rw [if_pos rfl, List.singleton_append] at hstored
      obtain ⟨hcell, hsmooth, hbytes⟩ := taken_of_step_read hs hi hstep
      cases vs with
      | nil => cases hstored
      | cons v vs =>
        obtain ⟨hv, hstored⟩ := List.cons.inj hstored
        obtain ⟨hsmooth', hlines, hvs⟩ := ih hsmooth hstored
        rw [hbytes, lines_firstLine] at hlines hvs
        refine ⟨hsmooth', ?_, fun k w hk => ?_⟩
        · rw [hlines, List.drop_drop, List.length_cons, Nat.add_comm]
        · cases k with
          | zero =>
            obtain rfl : v = w := Option.some.inj hk
            rw [getD_lines_zero]
            exact Except.ok.inj (hv.symm.trans hcell)
          | succ k =>
            have hw := hvs k w hk
            rwa [List.getD_eq_getElem?_getD, List.getElem?_drop, Nat.add_comm,
              ← List.getD_eq_getElem?_getD] at hw
    · rw [if_neg hread, List.nil_append] at hstored
      have hfeed := feed_of_step hi hread hstep
      rw [← hfeed] at hs ⊢
      exact ih hs hstored

/-- In the course of a run the lines that are left are the lines that no input has taken. -/
theorem LeadsReading.lines_eq {k : Nat} (h : LeadsReading observe k a s b t)
    (hs : s.console.feed.Smooth) : t.console.feed.Smooth ∧
      lines t.console.feed.bytes = (lines s.console.feed.bytes).drop k := by
  obtain ⟨ms, rfl, hpasses⟩ := h
  obtain ⟨vs, hlength, hvs⟩ := hpasses.exists_takes
  obtain ⟨hsmooth, hlines, -⟩ := hvs.lines_eq hs
  exact ⟨hsmooth, hlength ▸ hlines⟩

/-- **Inputs and lines.** Let the reader of a session deliver its bytes in pieces that are not
empty, with no failures but interruptions. When `k` lines have been read in a run, the bytes of the
other lines are left. An input whose flush succeeds then receives line number `k`, counted from
zero, or an empty line if there is none: it removes one line feed from the end of it and at most one
carriage return before that, leaves the bytes of the lines behind it, and stores the first character
of what remains, or fails if the pointer names no cell. And a run on other pieces of the same bytes
has the same status and the same notes, and leaves the same session, except that the bytes that are
left may again be cut in other ways. -/
theorem reads_lines_in_order (observe : Observer σ) (a : σ) (s : Session)
    (h : s.console.feed.Smooth) :
    (∀ k b t, LeadsReading observe k a s b t →
      t.console.feed.bytes = ((lines s.console.feed.bytes).drop k).flatten ∧
      ∀ c, t.machine.current? = some .read → t.console.flush = .ok () c →
        ∃ (content : List UInt8) (left : Feed),
          Bare ((lines s.console.feed.bytes).getD k []) content ∧
          left.bytes = ((lines s.console.feed.bytes).drop (k + 1)).flatten ∧
          t.step =
            match t.machine.tape.resolve t.machine.pointer with
            | .ok j =>
              .ok () ⟨(t.machine.put j (Cell.ofLine (Utf8.decode content))).advance,
                { c with feed := left, transcript := c.transcript.push .lineRequested }⟩
            | .error e =>
              .error (.address e) ⟨t.machine,
                { c with feed := left, transcript := c.transcript.push .lineRequested }⟩) ∧
    ∀ t, Recut s t → ∀ fuel,
      (t.execute observe fuel a).status = (s.execute observe fuel a).status ∧
      (t.execute observe fuel a).notes = (s.execute observe fuel a).notes ∧
        Recut (s.execute observe fuel a).session (t.execute observe fuel a).session := by
  refine ⟨?_, ?_⟩
  · intro k b t hleads
    obtain ⟨hsmooth, hlines⟩ := hleads.lines_eq h
    refine ⟨by rw [← hlines, flatten_lines], ?_⟩
    intro c hi hc
    obtain ⟨left, -, hbytes, hp⟩ := perform_read_of_smooth hsmooth hc
    have hfirst : (firstLine t.console.feed.bytes).1 = (lines s.console.feed.bytes).getD k [] := by
      rw [← getD_lines_zero, hlines, List.getD_eq_getElem?_getD, List.getElem?_drop,
        List.getD_eq_getElem?_getD, Nat.add_zero]
    have hrest : left.bytes = ((lines s.console.feed.bytes).drop (k + 1)).flatten := by
      rw [hbytes, ← flatten_lines (firstLine t.console.feed.bytes).2, lines_firstLine, hlines,
        List.drop_drop]
    have hbare := bare_stripTerminator (firstLine t.console.feed.bytes).1
    rw [hfirst] at hbare
    refine ⟨_, left, hbare, hrest, ?_⟩
    rw [step_of_current? hi, hp, hfirst]
    cases t.machine.tape.resolve t.machine.pointer <;> rfl
  · intro t ht fuel
    obtain ⟨hstatus, hnotes, hsession⟩ := (lockstep_recut observe).execute_alike ht fuel a
    exact ⟨hstatus, hnotes, hsession⟩

/-- Reads two lines into one cell, the first of them from three deliveries. -/
def twoReads : Session where
  machine := { program := #[.read, .read], tape := Tape.new 1 .error }
  console := { feed := [.piece [65], .failure ⟨.interrupted, none⟩, .piece [13, 10, 66]] }

/-- The first input stores `A` and leaves the second line, and the run is the same on one piece. -/
theorem reads_lines_in_order_twoReads :
    twoReads.console.feed.Smooth ∧ Recut twoReads (twoReads.withFeed [.piece [65, 13, 10, 66]]) ∧
      (∃ (content : List UInt8) (left : Feed), Bare [65, 13, 10] content ∧ left.bytes = [66] ∧
        twoReads.step =
          .ok () ⟨(twoReads.machine.put 0 (Cell.ofLine (Utf8.decode content))).advance,
            { feed := left, transcript := #[.flushed none, .lineRequested] }⟩) ∧
      ((twoReads.withFeed [.piece [65, 13, 10, 66]]).execute Observer.silent 2 ()).status =
        (twoReads.execute Observer.silent 2 ()).status := by
  have hsmooth : twoReads.console.feed.Smooth :=
    Feed.smooth_cons.2 ⟨List.cons_ne_nil _ _, Feed.smooth_cons.2 ⟨rfl,
      Feed.smooth_ofBytes (List.cons_ne_nil _ _)⟩⟩
  have hrecut : Recut twoReads (twoReads.withFeed [.piece [65, 13, 10, 66]]) :=
    ⟨⟨hsmooth, Feed.smooth_ofBytes (by decide), rfl⟩, rfl⟩
  have h := reads_lines_in_order Observer.silent () twoReads hsmooth
  exact ⟨hsmooth, hrecut, (h.1 0 () twoReads ⟨[], rfl, .refl ..⟩).2 _ rfl rfl, (h.2 _ hrecut 2).1⟩

end Session

end PhraseTape
