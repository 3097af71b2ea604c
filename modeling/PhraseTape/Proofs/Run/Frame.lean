import PhraseTape.Proofs.Run.Calls
import PhraseTape.Proofs.Run.Failures
import PhraseTape.Proofs.Text.FirstCharacter

/-!
# What an instruction changes

An instruction that succeeds changes little. A change of a cell is made to the cell under the
pointer, a move changes the pointer, and a loop instruction changes the counter, which it takes
forward over a zero and back from anything else. An input fills the cell under the pointer, after
one flush, and takes a line from the reader; an output hands one or two bytes to the writer. All
the rest stays, and so does every cell that the pointer does not name.

## Main definitions

* `Machine.DiffersAt` : two machines that differ at most in one cell.
* `Session.Frame` : what each kind of instruction changes.

## Main results

* `OutputEncoding.length_encode` : a cell is printed by one byte or by two.
* `Session.perform_change_eq_ok_iff`, `Session.jumpIf_eq_ok_iff` : how a change and a loop
  instruction succeed.
* `Session.frame_of_perform` : an instruction that succeeds changes what its kind changes.
* `Session.dispatch_frame` : the instruction at the counter of a session.
-/

namespace PhraseTape

/-- A cell is printed by two bytes if the encoding is UTF-8 and the cell is no ASCII character, and
otherwise by one. -/
theorem OutputEncoding.length_encode (encoding : OutputEncoding) (v : Cell) :
    (encoding.encode v).length = if encoding = .utf8 ∧ 128 ≤ v.toNat then 2 else 1 := by
  cases encoding with
  | byte => simp
  | utf8 =>
    have hv := v.toNat_lt
    by_cases hascii : v.toNat < 0x80
    · rw [encode, Utf8.encode_oneByte hascii, if_neg (by omega), List.length_singleton]
    · have hval : (Char.ofNat v.toNat).val.toNat = v.toNat :=
        Utf8.toNat_val_ofNat (.inl (by omega))
      rw [encode, String.length_utf8EncodeChar, Char.utf8Size, if_neg, if_pos,
        if_pos ⟨rfl, by omega⟩]
      all_goals simp only [UInt32.le_iff_toNat_le, hval]
      · show v.toNat ≤ 0x7ff
        omega
      · show ¬ v.toNat ≤ 0x7f
        omega

/-- The machine `n` differs from the machine `m` at most in the cell of index `j`. -/
structure Machine.DiffersAt (j : Nat) (m n : Machine) : Prop where
  components : n = { m with tape := n.tape }
  size : n.tape.size = m.tape.size
  policy : n.tape.policy = m.tape.policy
  cell : ∀ k, k ≠ j → n.tape.cell k = m.tape.cell k

theorem Machine.differsAt_put (m : Machine) (j : Nat) (v : Cell) : m.DiffersAt j (m.put j v) where
  components := rfl
  size := Tape.size_put ..
  policy := rfl
  cell k hk := by
    have hne : ¬ (j = k ∧ j < m.tape.size) := fun h => hk h.1.symm
    rw [Machine.put, Tape.cell_put, if_neg hne]

theorem Machine.cell_put_self {m : Machine} {a : Address} {j : Nat}
    (hj : m.tape.resolve a = .ok j) (v : Cell) : (m.put j v).tape.cell j = v := by
  rw [Machine.put, Tape.cell_put, if_pos ⟨rfl, Tape.resolve_lt hj⟩]

namespace Session

/-- What the instruction `i` changes in the session `s`, of which it makes the session `t`. What is
not mentioned stays as it was. -/
def Frame (s t : Session) : Instruction → Prop
  | .change _ text => t.console = s.console ∧
    ∃ j, s.machine.tape.resolve s.machine.pointer = .ok j ∧ s.machine.DiffersAt j t.machine ∧
      ((t.machine.tape.cell j).toNat : Int) = ((s.machine.tape.cell j).toNat + delta text) % 256
  | .right => t = { s with machine := { s.machine with pointer := t.machine.pointer } } ∧
    t.machine.pointer.toInt = (s.machine.pointer.toInt + 1).bmod Int64.size
  | .left => t = { s with machine := { s.machine with pointer := t.machine.pointer } } ∧
    t.machine.pointer.toInt = (s.machine.pointer.toInt - 1).bmod Int64.size
  | .loopStart => t = { s with machine := { s.machine with counter := t.machine.counter } } ∧
    s.machine.counter ≤ t.machine.counter ∧
    ∃ v, s.machine.cell = .ok v ∧ (v ≠ 0 → t.machine.counter = s.machine.counter)
  | .loopEnd => t = { s with machine := { s.machine with counter := t.machine.counter } } ∧
    t.machine.counter ≤ s.machine.counter ∧
    ∃ v, s.machine.cell = .ok v ∧ (v = 0 → t.machine.counter = s.machine.counter)
  | .read => ∃ j line rest, s.machine.tape.resolve s.machine.pointer = .ok j ∧
    s.machine.DiffersAt j t.machine ∧ t.machine.tape.cell j = Cell.ofLineBytes line ∧
    Feed.HandsOut line s.console.feed rest ∧
    t.console = { s.console with
      feed := rest
      flushes := s.console.flushes.tail
      transcript := (s.console.transcript.push (.flushed none)).push .lineRequested }
  | .print => t.machine = s.machine ∧ t.console.feed = s.console.feed ∧
    t.console.flushes = s.console.flushes ∧
    (∃ calls : List Event, t.console.transcript = s.console.transcript ++ calls ∧
      ∀ call ∈ calls, call.isFlush = false ∧ call ≠ .lineRequested) ∧
    ∃ v bytes, s.machine.cell = .ok v ∧ bytes = s.machine.encoding.encode v ∧
      (bytes.length = 1 ∨ bytes.length = 2) ∧ t.console.output = s.console.output ++ bytes

variable {s t : Session} {i : Instruction}

/-! ### How instructions succeed -/

/-- A change that succeeds has added to the cell that the pointer names. -/
theorem perform_change_eq_ok_iff {sign : Sign} {text : String} :
    s.perform (.change sign text) = .ok () t ↔
      ∃ j, s.machine.tape.resolve s.machine.pointer = .ok j ∧
        t = ⟨s.machine.put j (s.machine.tape.cell j + Cell.ofInt (delta text)), s.console⟩ := by
  simp only [perform, addCell, Machine.bump, Tape.bump_eq_put, Machine.put]
  cases hr : s.machine.tape.resolve s.machine.pointer with
  | error e => simp
  | ok j => simp [eq_comm]

/-- A loop instruction that succeeds has found a cell under the pointer, and has jumped if the cell
is as it looks for. -/
theorem jumpIf_eq_ok_iff {zero : Bool} {target : Machine → Nat} :
    s.jumpIf zero target = .ok () t ↔ ∃ v, s.machine.cell = .ok v ∧
      t = ⟨if v.isZero = zero then s.machine.jump (target s.machine) else s.machine,
        s.console⟩ := by
  simp only [jumpIf]
  cases hcell : s.machine.cell with
  | error e => simp
  | ok v => simp [eq_comm]

/-! ### What they change -/

theorem frame_of_change {sign : Sign} {text : String}
    (h : s.perform (.change sign text) = .ok () t) : Frame s t (.change sign text) := by
  obtain ⟨j, hj, rfl⟩ := perform_change_eq_ok_iff.1 h
  refine ⟨rfl, j, hj, s.machine.differsAt_put j _, ?_⟩
  rw [Machine.cell_put_self hj, Cell.toNat_add_ofInt]

theorem frame_of_loopStart (hi : s.machine.current? = some .loopStart)
    (h : s.perform .loopStart = .ok () t) : Frame s t .loopStart := by
  have hbounds := Machine.loopEnd_bounds (Machine.counter_lt_of_current? hi)
  obtain ⟨v, hv, rfl⟩ := jumpIf_eq_ok_iff.1 h
  by_cases hzero : v.isZero = true
  · rw [if_pos hzero]
    exact ⟨rfl, hbounds.1, v, hv, fun hne => absurd ((Cell.isZero_iff v).1 hzero) hne⟩
  · rw [if_neg hzero]
    exact ⟨rfl, Nat.le_refl _, v, hv, fun _ => rfl⟩

theorem frame_of_loopEnd (h : s.perform .loopEnd = .ok () t) : Frame s t .loopEnd := by
  obtain ⟨v, hv, rfl⟩ := jumpIf_eq_ok_iff.1 h
  by_cases hzero : v.isZero = false
  · rw [if_pos hzero]
    refine ⟨rfl, s.machine.loopStart_le, v, hv, ?_⟩
    rintro rfl
    cases hzero
  · rw [if_neg hzero]
    exact ⟨rfl, Nat.le_refl _, v, hv, fun _ => rfl⟩

theorem frame_of_read (h : s.perform .read = .ok () t) : Frame s t .read := by
  obtain ⟨hf, line, rest, j, hline, hj, rfl⟩ := perform_read_eq_ok_iff.1 h
  refine ⟨j, line, rest, hj, s.machine.differsAt_put j _, Machine.cell_put_self hj _, hline, ?_⟩
  rw [Console.asked, Console.flushed, hf]

theorem frame_of_print (h : s.perform .print = .ok () t) : Frame s t .print := by
  obtain ⟨v, c, hv, hc, rfl⟩ := perform_print_eq_ok_iff.1 h
  have hlength := s.machine.encoding.length_encode v
  have hleft := Console.left_write s.console (s.machine.encoding.encode v)
  rw [hc] at hleft
  obtain rfl : c = _ := hleft
  obtain ⟨rest, haccepted, hnone⟩ := offer_accepted (s.machine.encoding.encode v) s.console.replies
  rw [hnone.1 (Console.failure_of_write_ok hc), List.append_nil] at haccepted
  refine ⟨rfl, rfl, rfl, ⟨_, rfl, offer_calls _ _⟩, v, _, hv, rfl, ?_, ?_⟩
  · split at hlength <;> omega
  · simp only [Console.output, Transcript.output_append, haccepted]

theorem frame_of_perform (hi : s.machine.current? = some i) (h : s.perform i = .ok () t) :
    Frame s t i := by
  cases i with
  | change sign text => exact frame_of_change h
  | right =>
    cases h
    exact ⟨rfl, Address.toInt_next _⟩
  | left =>
    cases h
    exact ⟨rfl, Address.toInt_previous _⟩
  | loopStart => exact frame_of_loopStart hi h
  | loopEnd => exact frame_of_loopEnd h
  | read => exact frame_of_read h
  | print => exact frame_of_print h

/-- Every cell that the pointer does not name keeps its value. -/
theorem Frame.cell_eq (h : Frame s t i) {k : Nat}
    (hk : s.machine.tape.resolve s.machine.pointer ≠ .ok k) :
    t.machine.tape.cell k = s.machine.tape.cell k := by
  cases i with
  | change sign text =>
    obtain ⟨-, j, hj, hdiffers, -⟩ := h
    exact hdiffers.cell k fun hkj => hk (hkj ▸ hj)
  | right | left | loopStart | loopEnd | print => rw [h.1]
  | read =>
    obtain ⟨j, -, -, hj, hdiffers, -⟩ := h
    exact hdiffers.cell k fun hkj => hk (hkj ▸ hj)

/-- **What each kind of instruction changes.** Let there be an instruction at the counter. A move
always succeeds. If the instruction succeeds, every cell that the pointer does not name keeps its
value, and:

* a change adds its amount, modulo `256`, to the cell that the pointer names, and changes nothing
  else;
* a move changes the pointer by one, wrapped to the range of the addresses, and nothing else,
  whatever the tape is;
* a loop start changes at most the counter, which does not go back, and only if the cell under the
  pointer is zero; a loop end changes at most the counter, which does not go forward, and only if
  the cell is not zero;
* an input fills the cell that the pointer names from the line that the reader hands out, flushes
  the writer once, and changes nothing else;
* an output writes the one or two bytes of the cell, makes no other calls, and changes nothing but
  the writer. -/
theorem dispatch_frame (s : Session) {i : Instruction} (hi : s.machine.current? = some i) :
    (i = .right ∨ i = .left → ∃ t, s.dispatch = .ok () t) ∧
    ∀ t, s.dispatch = .ok () t → Frame s t i ∧
      ∀ k, s.machine.tape.resolve s.machine.pointer ≠ .ok k →
        t.machine.tape.cell k = s.machine.tape.cell k := by
  rw [dispatch_of_current? hi]
  refine ⟨?_, fun t h => ?_⟩
  · rintro (rfl | rfl) <;> exact ⟨_, rfl⟩
  · have hframe := frame_of_perform hi h
    exact ⟨hframe, fun k hk => hframe.cell_eq hk⟩

/-- Moves to the left from the least address there is. -/
def leftOfLeast : Session where
  machine := { program := #[.left], tape := Tape.new 1 .error, pointer := Int64.minValue }
  console := {}

/-- The move succeeds, far outside the tape, and takes the pointer to the greatest address. -/
theorem dispatch_frame_leftOfLeast : leftOfLeast.machine.current? = some .left ∧
    ∃ t, leftOfLeast.dispatch = .ok () t ∧ t.machine.pointer.toInt = Int64.maxValue.toInt ∧
      t.machine.tape.cell 0 = leftOfLeast.machine.tape.cell 0 := by
  have hi : leftOfLeast.machine.current? = some .left := rfl
  obtain ⟨hmove, hframe⟩ := dispatch_frame leftOfLeast hi
  obtain ⟨t, ht⟩ := hmove (.inr rfl)
  obtain ⟨⟨-, hpointer⟩, hcell⟩ := hframe t ht
  exact ⟨hi, t, ht, hpointer.trans (by decide), hcell 0 nofun⟩

end Session

end PhraseTape
