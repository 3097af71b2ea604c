import PhraseTape.Proofs.Run.Frame
import PhraseTape.Proofs.Run.Policy
import PhraseTape.Proofs.Source.RoundTrip

/-!
# The amounts of the changes in a source text

A change is read as a phrase of its direction, and when it is carried out its amount is read off its
text, without regard to the direction. The two agree: in a program that was read from a source text
the amount of a change is the number of the glyphs between the opening of its phrase and the closing
marker, in the direction of the change. That number may be of any size, and only its remainder
modulo `256` matters to the cell.

## Main results

* `Program.spelled_of_parse` : how a change in a program that was read is spelled.
* `Program.delta_of_parse` : what a change in a program that was read adds to a cell.
-/

namespace PhraseTape

namespace Program

/-- A change in a program that was read is spelled by its opening, at least one glyph of its
direction, and its closing marker, and by nothing else. -/
theorem spelled_of_parse {source : String} {p : Program} (h : parse source = .ok p) {sign : Sign}
    {text : String} (hi : .change sign text ∈ p) :
    4 ≤ text.length ∧
      text = String.ofList (Instruction.changeText sign (text.length - 3)) := by
  obtain ⟨-, hp⟩ := parse_eq_ok_iff.1 h
  obtain ⟨n, hn, rfl⟩ :=
    phrase_text_iff.1 (phrase_of_spells hp _ (Array.mem_toList_iff.2 hi)) sign text rfl
  have hlength : (String.ofList (Instruction.changeText sign n)).length = n + 3 := by
    rw [String.length_ofList, Instruction.length_changeText]
  rw [hlength, Nat.add_sub_cancel]
  exact ⟨by omega, rfl⟩

open Session in
/-- **The amount of a change that was read.** The text of a change in a program that was read from
a source text has at least four characters: the opening, one or more glyphs of the direction of the
change, and the closing marker of that direction. The amount read off the text is the number of
those glyphs, however many they are, in the direction of the change. So carrying it out, with a
pointer that is inside the tape or on a circle, succeeds and adds that number to the cell or
subtracts it, modulo `256`, and the cell is as it was exactly when `256` divides the number. -/
theorem delta_of_parse {source : String} {p : Program} (h : parse source = .ok p) {sign : Sign}
    {text : String} (hi : .change sign text ∈ p) :
    4 ≤ text.length ∧
    text.toList = Instruction.opening ++ List.replicate (text.length - 3) sign.glyph ++
      [sign.close] ∧
    delta text = sign.unit * (text.length - 3 : Nat) ∧
    ∀ s : Session, s.machine.current? = some (.change sign text) →
      s.machine.tape.policy = .wrap ∨ s.machine.tape.Inside s.machine.pointer →
      ∃ j t, s.machine.tape.resolve s.machine.pointer = .ok j ∧ s.dispatch = .ok () t ∧
        ((t.machine.tape.cell j).toNat : Int) =
          ((s.machine.tape.cell j).toNat + sign.unit * (text.length - 3 : Nat)) % 256 ∧
        (t.machine.tape.cell j = s.machine.tape.cell j ↔ 256 ∣ text.length - 3) := by
  obtain ⟨hlength, htext⟩ := spelled_of_parse h hi
  generalize hn : text.length - 3 = n at htext ⊢
  have hdelta : delta text = sign.unit * n := by
    rw [htext, delta_changeText, Int.mul_comm]
  refine ⟨hlength, by rw [htext, String.toList_ofList, Instruction.changeText], hdelta, ?_⟩
  intro s hcurrent hpointer
  obtain ⟨j, hj⟩ : ∃ j, s.machine.tape.resolve s.machine.pointer = .ok j := by
    rcases hpointer with hwrap | hinside
    · exact ⟨_, Tape.resolve_wrap hwrap _⟩
    · exact ⟨_, Tape.resolve_of_inside hinside⟩
  have hdispatch : s.dispatch = .ok () _ :=
    (dispatch_of_current? hcurrent).trans (perform_change_eq_ok_iff.2 ⟨j, hj, rfl⟩)
  refine ⟨j, _, hj, hdispatch, ?_, ?_⟩
  · rw [Machine.cell_put_self hj, Cell.toNat_add_ofInt, hdelta]
  · rw [Machine.cell_put_self hj, Cell.add_ofInt_eq_self_iff, hdelta]
    cases sign <;> simp only [Sign.unit] <;> omega

/-- A source that takes `256` from a cell. -/
def takeAway256 : String :=
  String.ofList (Instruction.changeText .minus 256)

/-- Its only instruction, at the start of a run on a circle of zeros. -/
def takingAway256 : Session :=
  Session.ofSettings #[.change .minus takeAway256] ⟨1, .wrap, .utf8⟩ {}

/-- It is read as one change by `-256`, which leaves the cell a zero. -/
theorem delta_of_parse_takeAway256 : parse takeAway256 = .ok #[.change .minus takeAway256] ∧
    delta takeAway256 = -256 ∧
    ∃ t, takingAway256.dispatch = .ok () t ∧ t.machine.tape.cell 0 = 0 := by
  have hlength : takeAway256.length - 3 = 256 := by
    rw [takeAway256, String.length_ofList, Instruction.length_changeText]
  have hphrase : Phrase (.change .minus takeAway256) takeAway256.toList :=
    phrase_change_iff.2 ⟨rfl, 256, by omega, rfl⟩
  have hspells : Spells [] (takeAway256.toList ++ []) [.change .minus takeAway256] :=
    .phrase hphrase .done
  rw [List.append_nil] at hspells
  have hparse := parse_eq_ok_iff.2 ⟨by simp, hspells⟩
  obtain ⟨-, -, hdelta, hdispatch⟩ := delta_of_parse hparse (Array.mem_singleton_self _)
  obtain ⟨j, t, hj, ht, -, hcell⟩ := hdispatch takingAway256 rfl (.inl rfl)
  cases hj
  rw [hlength] at hdelta hcell
  exact ⟨hparse, hdelta, t, ht, hcell.2 (by decide)⟩

end Program

end PhraseTape
