import PhraseTape.Proofs.Console.Lines
import PhraseTape.Proofs.Console.Mending
import PhraseTape.Proofs.Run.Failures
import PhraseTape.Proofs.Text.FirstCharacter

/-!
# What an input stores

An input stores what the first character of its line is worth. The bytes behind this character have
no influence, whether they are well-formed or not, and there are no bytes that make an input fail:
if the writer is flushed, the reader does not fail and the pointer names a cell, it succeeds.

## Main results

* `Cell.ofLineBytes_eq` : the cell that is filled from a line.
* `Session.step_read_of_handsOut` : an input that succeeds.
* `Session.step_read_first_character` : an input depends on the first character of its line.
-/

namespace PhraseTape

/-- The cell that is filled from a line, by the first character of what is left of the line without
its terminator. -/
theorem Cell.ofLineBytes_eq {line content : List UInt8} {v : Nat} (hline : Bare line content)
    (hv : FirstCharacter content v) : Cell.ofLineBytes line = UInt8.ofNat v := by
  rw [Cell.ofLineBytes, hline.stripTerminator_eq, ← hv.ofLine_eq, UInt8.ofNat_toNat]

/-- A line has something left without its terminator, and this is worth something. -/
theorem exists_bare_firstCharacter (line : List UInt8) :
    ∃ content v, Bare line content ∧ FirstCharacter content v := by
  obtain ⟨v, hv⟩ := exists_firstCharacter (stripTerminator line)
  exact ⟨_, v, bare_stripTerminator line, hv⟩

/-- Lines that begin with the same character fill a cell alike. -/
theorem Cell.ofLineBytes_congr {c : Char} {line line' behind behind' : List UInt8}
    (h : Bare line (String.utf8EncodeChar c ++ behind))
    (h' : Bare line' (String.utf8EncodeChar c ++ behind')) :
    Cell.ofLineBytes line' = Cell.ofLineBytes line := by
  rw [Cell.ofLineBytes_encode_append h.stripTerminator_eq,
    Cell.ofLineBytes_encode_append h'.stripTerminator_eq]

namespace Feed

/-- From a feed without failures a line is read. -/
theorem exists_handsOut_of_failures_eq_zero {feed : Feed} (h : feed.failures = 0) :
    ∃ line rest, HandsOut line feed rest := by
  rcases feed.handsOut_or_breaks with hline | ⟨lost, e, left, hbreaks⟩
  · exact hline
  · rw [hbreaks.failures_eq] at h
    cases h

/-- From a smooth feed the first line of its bytes is read. -/
theorem Smooth.exists_handsOut {feed : Feed} (h : feed.Smooth) :
    ∃ rest, HandsOut (firstLine feed.bytes).1 feed rest ∧ rest.Smooth ∧
      rest.bytes = (firstLine feed.bytes).2 := by
  obtain ⟨rest, hread, hrest, hbytes⟩ := readLine_of_smooth h []
  exact ⟨rest, readLine_eq_ok_iff.1 hread, hrest, hbytes⟩

/-- No other line is read from a smooth feed. -/
theorem HandsOut.of_smooth {line : List UInt8} {feed rest : Feed} (h : HandsOut line feed rest)
    (hsmooth : feed.Smooth) :
    line = (firstLine feed.bytes).1 ∧ rest.Smooth ∧ rest.bytes = (firstLine feed.bytes).2 := by
  obtain ⟨rest', hline, hrest, hbytes⟩ := hsmooth.exists_handsOut
  cases h.readLine.symm.trans hline.readLine
  exact ⟨rfl, hrest, hbytes⟩

end Feed

namespace Session

variable {s t : Session} {j : Nat}

/-- An input whose flush succeeds stores the line that the feed hands out, if the pointer names a
cell. -/
theorem step_read_of_handsOut (hi : s.machine.current? = some .read)
    (hf : s.console.nextFlush = none) (hj : s.machine.tape.resolve s.machine.pointer = .ok j)
    {line : List UInt8} {rest : Feed} (hline : Feed.HandsOut line s.console.feed rest) :
    s.step = .ok () ⟨(s.machine.put j (Cell.ofLineBytes line)).advance,
      s.console.flushed.asked rest⟩ := by
  rw [step_of_current? hi, perform_read_of_handsOut hf hline, hj]
  rfl

/-- An input that succeeds has stored the line that the feed hands out, and the cell under the
pointer holds it. -/
theorem cell_of_step_read (hi : s.machine.current? = some .read) (hs : s.step = .ok () t) :
    ∃ line rest, Feed.HandsOut line s.console.feed rest ∧
      t.machine.cell = .ok (Cell.ofLineBytes line) ∧ t.console = s.console.flushed.asked rest := by
  obtain ⟨u, hu, rfl⟩ := perform_of_step_ok hi hs
  obtain ⟨-, line, rest, j, hline, hj, rfl⟩ := perform_read_eq_ok_iff.1 hu
  refine ⟨line, rest, hline, ?_, rfl⟩
  show (s.machine.tape.put j (Cell.ofLineBytes line)).get s.machine.pointer = _
  rw [Tape.get, Tape.resolve_put, hj, Except.map, Tape.cell_put, if_pos ⟨rfl, Tape.resolve_lt hj⟩]

/-- **An input depends on the first character of its line.** Let an input be next, whose flush
succeeds, and let the pointer name a cell. Whatever line the reader hands out, with or without a
line feed at its end, something is left of it without the terminator and this is worth something by
its first character; the input stores that, and leaves what stands behind the line. So the input
succeeds, unless the reader fails. From a reader that does not fail, and whose pieces are not empty,
the first line of its bytes is read. The bytes behind the first character have no influence, and a
carriage return that ends the input is stored as it is. -/
theorem step_read_first_character (s : Session) (hi : s.machine.current? = some .read)
    (hf : s.console.nextFlush = none) (hj : s.machine.tape.resolve s.machine.pointer = .ok j) :
    (∀ (line content : List UInt8) (rest : Feed) (v : Nat),
      Feed.HandsOut line s.console.feed rest → Bare line content → FirstCharacter content v →
      s.step = .ok () ⟨(s.machine.put j (UInt8.ofNat v)).advance,
        s.console.flushed.asked rest⟩) ∧
    (∀ line, ∃ content v, Bare line content ∧ FirstCharacter content v) ∧
    (s.console.feed.failures = 0 → ∃ t, s.step = .ok () t) ∧
    (s.console.feed.Smooth → ∃ rest,
      Feed.HandsOut (firstLine s.console.feed.bytes).1 s.console.feed rest ∧ rest.Smooth ∧
      rest.bytes = (firstLine s.console.feed.bytes).2) ∧
    (∀ (c : Char) (line line' behind behind' : List UInt8),
      Bare line (String.utf8EncodeChar c ++ behind) →
      Bare line' (String.utf8EncodeChar c ++ behind') →
      Cell.ofLineBytes line' = Cell.ofLineBytes line) ∧
    ∀ rest, Feed.HandsOut [carriageReturn] s.console.feed rest →
      s.step = .ok () ⟨(s.machine.put j 13).advance, s.console.flushed.asked rest⟩ := by
  have hstores (line content : List UInt8) (rest : Feed) (v : Nat)
      (hline : Feed.HandsOut line s.console.feed rest) (hbare : Bare line content)
      (hv : FirstCharacter content v) : s.step =
        .ok () ⟨(s.machine.put j (UInt8.ofNat v)).advance, s.console.flushed.asked rest⟩ := by
    rw [step_read_of_handsOut hi hf hj hline, Cell.ofLineBytes_eq hbare hv]
  refine ⟨hstores, exists_bare_firstCharacter, fun hzero => ?_, Feed.Smooth.exists_handsOut,
    fun c line line' behind behind' => Cell.ofLineBytes_congr, fun rest hline => ?_⟩
  · obtain ⟨line, rest, hline⟩ := Feed.exists_handsOut_of_failures_eq_zero hzero
    exact ⟨_, step_read_of_handsOut hi hf hj hline⟩
  · have hreturn : FirstCharacter (String.utf8EncodeChar '\r' ++ []) ('\r'.toNat % 256) :=
      .basic (by decide) []
    exact hstores _ _ rest _ hline (.unended (by decide)) hreturn

/-- Reads a line into the only cell. -/
def readsFrom (bytes : List UInt8) : Session where
  machine := { program := #[.read], tape := Tape.new 1 .error }
  console := { feed := .ofBytes bytes }

/-- The euro sign is stored by the lower byte of its code point, whatever is behind it in the line; a
surrogate is not well-formed; and a carriage return can be the whole line. -/
theorem step_read_first_character_readsFrom :
    (∃ t, (readsFrom [0xe2, 0x82, 0xac, 0xff, 13, 10, 66]).step = .ok () t ∧
      t.machine.cell = .ok 0xac ∧ t.console.feed.bytes = [66]) ∧
    (∃ t, (readsFrom [0xed, 0xa0, 0x80]).step = .ok () t ∧ t.machine.cell = .ok 0xfd) ∧
    ∃ t, (readsFrom [13]).step = .ok () t ∧ t.machine.cell = .ok 13 := by
  have hsmooth {bytes : List UInt8} (h : bytes ≠ []) : (readsFrom bytes).console.feed.Smooth :=
    Feed.smooth_ofBytes h
  obtain ⟨heuro, -, -, hread, -⟩ := step_read_first_character
    (readsFrom [0xe2, 0x82, 0xac, 0xff, 13, 10, 66]) (j := 0) rfl rfl rfl
  obtain ⟨hsurrogate, -, -, hread', -⟩ := step_read_first_character
    (readsFrom [0xed, 0xa0, 0x80]) (j := 0) rfl rfl rfl
  obtain ⟨-, -, -, hread'', -, hreturn⟩ := step_read_first_character
    (readsFrom [13]) (j := 0) rfl rfl rfl
  obtain ⟨rest, hline, -, hbytes⟩ := hread (hsmooth (List.cons_ne_nil _ _))
  obtain ⟨rest', hline', -⟩ := hread' (hsmooth (List.cons_ne_nil _ _))
  obtain ⟨rest'', hline'', -⟩ := hread'' (hsmooth (List.cons_ne_nil _ _))
  have hvalue : FirstCharacter [0xe2, 0x82, 0xac, 0xff] 0xac :=
    .basic (c := '€') (by decide) [0xff]
  have hvalue' : FirstCharacter [0xed, 0xa0, 0x80] 0xfd :=
    firstCharacter_iff.2 (by rw [Utf8.decode_cons]; rfl)
  exact ⟨⟨_, heuro _ _ rest _ hline (.crlf [0xe2, 0x82, 0xac, 0xff]) hvalue, rfl, hbytes⟩,
    ⟨_, hsurrogate _ _ rest' _ hline' (.unended (by decide)) hvalue', rfl⟩,
    ⟨_, hreturn rest'' hline'', rfl⟩⟩

end Session

end PhraseTape
