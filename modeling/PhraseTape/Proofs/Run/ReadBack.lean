import PhraseTape.Proofs.Run.Deliveries

/-!
# Reading back what was printed

When cells are printed and each of them is followed by a line terminator, the inputs of a run that
reads this get the cells back, one after another, and nothing is left over. The terminators
themselves are excepted, since a line feed or a carriage return is not seen in a line. In the
encoding by bytes a cell that holds no ASCII character is no well-formed line; it comes back as the
replacement character, and the cells behind it are not affected.

## Main definitions

* `Terminator`, `OutputEncoding.stream` : the ends of lines, and printed cells with an end of line
  behind each.
* `OutputEncoding.readBack` : what a printed cell is read as.

## Main results

* `OutputEncoding.lines_stream`, `OutputEncoding.ofLineBytes_encode` : the lines of printed cells,
  and what they store.
* `Session.Takes.stream_eq` : what the inputs of a run have stored, and what is left.
* `Session.takes_printed` : printed cells are read back.
-/

namespace PhraseTape

variable {σ : Type}

/-- What ends a line. -/
inductive Terminator where
  | lf
  | crlf
  deriving DecidableEq, Repr

/-- The bytes of a terminator. -/
def Terminator.bytes : Terminator → List UInt8
  | .lf => [lineFeed]
  | .crlf => [carriageReturn, lineFeed]

/-- Behind a line without a line feed its terminator ends the first line. -/
theorem firstLine_terminator {line : List UInt8} (h : lineFeed ∉ line) (terminator : Terminator)
    (rest : List UInt8) :
    firstLine (line ++ terminator.bytes ++ rest) = (line ++ terminator.bytes, rest) := by
  have hlf {line : List UInt8} (h : lineFeed ∉ line) :
      firstLine (line ++ lineFeed :: rest) = (line ++ [lineFeed], rest) := by
    have hdrop := List.dropWhile_eq_nil_iff.2 (Feed.bne_lineFeed h)
    rw [firstLine_append_of_dropWhile_nil _ hdrop, firstLine_cons_lineFeed]
  cases terminator with
  | lf =>
    rw [List.append_assoc]
    exact hlf h
  | crlf =>
    have hline : lineFeed ∉ line ++ [carriageReturn] := by simpa using ⟨h, by decide⟩
    have hfirst := hlf hline
    simpa [Terminator.bytes] using hfirst

namespace OutputEncoding

/-- The cells as they are printed, each with a terminator behind it. -/
def stream (e : OutputEncoding) (terminator : Terminator) (values : List Cell) : List UInt8 :=
  values.flatMap fun v => e.encode v ++ terminator.bytes

/-- What a printed cell is read as. In UTF-8 this is the cell; a byte is no well-formed character
unless it is an ASCII character. -/
def readBack : OutputEncoding → Cell → Cell
  | .utf8, v => v
  | .byte, v => if v < 0x80 then v else 0xfd

variable {e : OutputEncoding} {v b : Cell} {terminator : Terminator} {values : List Cell}

/-! ### One cell -/

/-- An ASCII character is printed as it is, and the bytes of any other one are no ASCII
characters. -/
theorem eq_or_le_of_mem_encode (h : b ∈ e.encode v) : b = v ∨ 0x80 ≤ b.toNat := by
  cases e with
  | byte => exact .inl (List.mem_singleton.1 h)
  | utf8 =>
    by_cases hascii : v.toNat < 0x80
    · rw [encode, Utf8.encode_oneByte hascii] at h
      exact .inl (List.mem_singleton.1 h)
    · have hlt : v.toNat < 256 := v.toNat_lt
      have hv : (Char.ofNat v.toNat).val.toNat = v.toNat :=
        Utf8.toNat_val_ofNat (.inl (by omega))
      rw [encode] at h
      unfold String.utf8EncodeChar at h
      simp only [hv] at h
      rw [if_neg (by omega), if_pos (by omega)] at h
      right
      rcases List.mem_pair.1 h with rfl | rfl <;> rw [UInt8.toNat_ofNat'] <;> omega

theorem notMem_encode (hb : b.toNat < 0x80) (hv : v ≠ b) : b ∉ e.encode v := by
  intro h
  rcases eq_or_le_of_mem_encode h with rfl | hle
  · exact hv rfl
  · omega

/-- Without its terminator the line of a cell is the printed cell. -/
theorem bare_encode (hv : v ≠ carriageReturn) (terminator : Terminator) :
    Bare (e.encode v ++ terminator.bytes) (e.encode v) := by
  cases terminator with
  | lf => exact .lf fun hlast => notMem_encode (by decide) hv (List.mem_of_getLast? hlast)
  | crlf => exact .crlf _

/-- A byte that is no ASCII character does not form a character alone. -/
theorem not_encodeChar_isPrefix_singleton (hv : 0x80 ≤ v.toNat) (c : Char) :
    ¬ String.utf8EncodeChar c <+: [v] := by
  intro h
  have hlength := h.length_le
  rw [String.length_utf8EncodeChar, List.length_singleton] at hlength
  have hsize : c.utf8Size = 1 := Nat.le_antisymm hlength c.utf8Size_pos
  have hval : c.val.toNat ≤ 127 := UInt32.le_iff_toNat_le.1 (Char.utf8Size_eq_one_iff.1 hsize)
  rw [String.utf8EncodeChar_eq_singleton hsize] at h
  obtain ⟨rfl, -⟩ := List.cons_prefix_cons.1 h
  rw [UInt32.toNat_toUInt8] at hv
  omega

/-- What a printed cell is worth as a line. -/
theorem firstCharacter_encode (e : OutputEncoding) (v : Cell) :
    FirstCharacter (e.encode v) (e.readBack v).toNat := by
  have hlt : v.toNat < 256 := v.toNat_lt
  have hbasic : FirstCharacter (String.utf8EncodeChar (Char.ofNat v.toNat)) v.toNat := by
    have hv : (Char.ofNat v.toNat).toNat = v.toNat := Utf8.toNat_val_ofNat (.inl (by omega))
    have h := FirstCharacter.basic (c := Char.ofNat v.toNat) (by omega) []
    rwa [List.append_nil, hv, Nat.mod_eq_of_lt hlt] at h
  cases e with
  | utf8 => exact hbasic
  | byte =>
    rw [readBack, encode_byte]
    split
    next hascii => rwa [Utf8.encode_oneByte hascii] at hbasic
    next hascii =>
      exact .malformed (List.cons_ne_nil v [])
        (not_encodeChar_isPrefix_singleton (Nat.not_lt.1 hascii))

/-- The line of a printed cell stores what the cell is read as. -/
theorem ofLineBytes_encode (hv : v ≠ carriageReturn) (terminator : Terminator) :
    Cell.ofLineBytes (e.encode v ++ terminator.bytes) = e.readBack v := by
  rw [Cell.ofLineBytes_eq (bare_encode hv terminator) (e.firstCharacter_encode v),
    UInt8.ofNat_toNat]

/-! ### Many cells -/

/-- The first line of printed cells is that of the first cell. -/
theorem firstLine_stream (hv : v ≠ lineFeed) (values : List Cell) :
    firstLine (e.stream terminator (v :: values)) =
      (e.encode v ++ terminator.bytes, e.stream terminator values) := by
  rw [stream, List.flatMap_cons]
  exact firstLine_terminator (notMem_encode (by decide) hv) terminator _

/-- The lines of printed cells are those of the single cells. -/
theorem lines_stream (hvalues : ∀ v ∈ values, v ≠ lineFeed) (terminator : Terminator) :
    lines (e.stream terminator values) = values.map fun v => e.encode v ++ terminator.bytes := by
  induction values with
  | nil => rfl
  | cons v values ih =>
    obtain ⟨hv, hvalues⟩ := List.forall_mem_cons.1 hvalues
    have hne : e.stream terminator (v :: values) ≠ [] := by
      cases terminator <;> simp [stream, Terminator.bytes]
    rw [lines_eq_firstLine_cons hne, firstLine_stream hv, ih hvalues, List.map_cons]

theorem map_readBack_utf8 (values : List Cell) : values.map utf8.readBack = values :=
  List.map_id values

theorem map_readBack_byte (h : ∀ v ∈ values, v < 0x80) : values.map byte.readBack = values := by
  refine (List.map_congr_left fun v hv => ?_).trans (List.map_id values)
  exact if_pos (h v hv)

end OutputEncoding

namespace Session

variable {observe : Observer σ} {s t : Session} {a b : σ} {e : OutputEncoding}
  {terminator : Terminator} {values vs : List Cell}

/-- **What the inputs of a run have stored, and what is left.** Each input has taken the first of the
printed cells that were left. When none are left the inputs go on with empty lines. -/
theorem Takes.stream_eq (h : Takes observe vs a s b t)
    (hvalues : ∀ v ∈ values, v ≠ lineFeed ∧ v ≠ carriageReturn) (hs : s.console.feed.Smooth)
    (hbytes : s.console.feed.bytes = e.stream terminator values) :
    t.console.feed.Smooth ∧
      t.console.feed.bytes = e.stream terminator (values.drop vs.length) ∧
      vs.take values.length = (values.map e.readBack).take vs.length := by
  obtain ⟨hsmooth, hlines, hvs⟩ := h.lines_eq hs
  rw [hbytes, OutputEncoding.lines_stream fun v hv => (hvalues v hv).1] at hlines hvs
  refine ⟨hsmooth, ?_, List.ext_getElem (by simp [Nat.min_comm]) fun k hk hk' => ?_⟩
  · rw [← flatten_lines t.console.feed.bytes, hlines, ← List.map_drop]
    rfl
  · rw [List.length_take] at hk hk'
    have hkvs : k < vs.length := by omega
    have hkvalues : k < values.length := by omega
    have hk := hvs k vs[k] (List.getElem?_eq_getElem hkvs)
    rw [List.getElem_take, List.getElem_take, List.getElem_map, hk, List.getD_eq_getElem?_getD,
      List.getElem?_map, List.getElem?_eq_getElem hkvalues]
    exact OutputEncoding.ofLineBytes_encode (hvalues _ (List.getElem_mem hkvalues)).2 terminator

/-- **Printed cells are read back.** Let the reader of a session deliver some printed cells, each
with a terminator behind it, in pieces that are not empty and with no failures but interruptions;
none of the cells is a line feed or a carriage return. In a run, the inputs store what the cells are
read as, in order, and leave the bytes of the other cells. When there have been as many inputs as
there are cells, they have stored all of them and nothing is left. An input that is next, while
there are cells left, stores the next one, if its flush succeeds and the pointer names a cell.

In UTF-8 every cell is read as itself. In the encoding by bytes so is every ASCII character, and any
other cell is read as `0xFD`. -/
theorem takes_printed (observe : Observer σ) (a : σ) (s : Session) (e : OutputEncoding)
    (terminator : Terminator) (values : List Cell)
    (hvalues : ∀ v ∈ values, v ≠ lineFeed ∧ v ≠ carriageReturn) (hs : s.console.feed.Smooth)
    (hbytes : s.console.feed.bytes = e.stream terminator values) :
    (∀ n b t, Leads observe n a s b t → ∃ vs, Takes observe vs a s b t) ∧
    (∀ vs b t, Takes observe vs a s b t →
      t.console.feed.bytes = e.stream terminator (values.drop vs.length) ∧
      vs.take values.length = (values.map e.readBack).take vs.length ∧
      (vs.length = values.length →
        vs = values.map e.readBack ∧ t.console.feed.bytes = []) ∧
      ∀ v j, values[vs.length]? = some v → t.machine.current? = some .read →
        t.console.nextFlush = none → t.machine.tape.resolve t.machine.pointer = .ok j →
        ∃ rest, rest.bytes = e.stream terminator (values.drop (vs.length + 1)) ∧
          t.step = .ok () ⟨(t.machine.put j (e.readBack v)).advance,
            t.console.flushed.asked rest⟩) ∧
    values.map OutputEncoding.utf8.readBack = values ∧
    ((∀ v ∈ values, v < 0x80) → values.map OutputEncoding.byte.readBack = values) ∧
    ∀ v, 0x80 ≤ v → OutputEncoding.byte.readBack v = 0xfd := by
  refine ⟨fun n b t ⟨ms, _, hpasses⟩ => ?_, fun vs b t htakes => ?_,
    OutputEncoding.map_readBack_utf8 values, OutputEncoding.map_readBack_byte,
    fun v hv => if_neg (Nat.not_lt.2 hv)⟩
  · obtain ⟨vs, -, hvs⟩ := hpasses.exists_takes
    exact ⟨vs, hvs⟩
  obtain ⟨hsmooth, hleft, htaken⟩ := htakes.stream_eq hvalues hs hbytes
  refine ⟨hleft, htaken, fun hlength => ⟨?_, ?_⟩, fun v j hv hi hf hj => ?_⟩
  · rwa [← hlength, List.take_length, hlength, ← List.length_map (f := e.readBack),
      List.take_length] at htaken
  · rw [hleft, hlength, List.drop_length]
    rfl
  · obtain ⟨rest, hline, -, hrest⟩ := hsmooth.exists_handsOut
    obtain ⟨hlf, hcr⟩ := hvalues v (List.mem_of_getElem? hv)
    have hdrop : values.drop vs.length = v :: values.drop (vs.length + 1) := by
      obtain ⟨hlt, rfl⟩ := List.getElem?_eq_some_iff.1 hv
      exact List.drop_eq_getElem_cons hlt
    rw [hleft, hdrop, OutputEncoding.firstLine_stream hlf] at hline hrest
    refine ⟨rest, hrest, ?_⟩
    rw [step_read_of_handsOut hi hf hj hline, OutputEncoding.ofLineBytes_encode hcr]

/-- Two printed cells, delivered in pieces that cut a character and a terminator, are read back into
one cell, and nothing is left; the first of two bytes is no ASCII character. -/
theorem takes_printed_twoReads :
    (∃ t u, (twoReads.withFeed [.piece [0xc3], .piece [0xa9, 13], .piece [10, 0, 13, 10]]).step =
        .ok () t ∧ t.machine.cell = .ok 0xe9 ∧
      t.step = .ok () u ∧ u.machine.cell = .ok 0 ∧ u.console.feed.bytes = []) ∧
    ∃ t u, (twoReads.withFeed [.piece [0xe9, 10, 65, 10]]).step = .ok () t ∧
      t.machine.cell = .ok 0xfd ∧ t.step = .ok () u ∧ u.machine.cell = .ok 65 := by
  have hpieces : Feed.Smooth [.piece [0xc3], .piece [0xa9, 13], .piece [10, 0, 13, 10]] := by
    simp [Feed.Smooth]
  constructor
  · obtain ⟨-, htakes, -⟩ := takes_printed Observer.silent () (twoReads.withFeed _) .utf8 .crlf
      [0xe9, 0] (by simp [lineFeed, carriageReturn]) hpieces (by decide)
    obtain ⟨-, -, -, hfirst⟩ := htakes [] () _ (.refl ..)
    obtain ⟨rest, -, hstep⟩ := hfirst 0xe9 0 rfl rfl rfl rfl
    obtain ⟨-, -, -, hsecond⟩ := htakes [0xe9] () _ (.read rfl rfl hstep rfl (.refl ..))
    obtain ⟨rest', hrest', hstep'⟩ := hsecond 0 0 rfl rfl rfl rfl
    exact ⟨_, _, hstep, rfl, hstep', rfl, hrest'⟩
  · obtain ⟨-, htakes, -⟩ := takes_printed Observer.silent ()
      (twoReads.withFeed [.piece [0xe9, 10, 65, 10]]) .byte .lf [0xe9, 65]
      (by simp [lineFeed, carriageReturn]) (Feed.smooth_ofBytes (List.cons_ne_nil _ _)) (by decide)
    obtain ⟨-, -, -, hfirst⟩ := htakes [] () _ (.refl ..)
    obtain ⟨rest, -, hstep⟩ := hfirst 0xe9 0 rfl rfl rfl rfl
    obtain ⟨-, -, -, hsecond⟩ := htakes [0xfd] () _ (.read rfl rfl hstep rfl (.refl ..))
    obtain ⟨rest', -, hstep'⟩ := hsecond 65 0 rfl rfl rfl rfl
    exact ⟨_, _, hstep, rfl, hstep', rfl⟩

end Session

end PhraseTape
