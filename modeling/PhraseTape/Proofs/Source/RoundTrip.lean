import PhraseTape.CommandLine.Launch
import PhraseTape.Proofs.Source.Grammar

/-!
# Programs written out and read back

A program written with one phrase on each line is read back as itself exactly when there is an
instruction and every change has a text that the grammar allows. A program that was read from a
source text has both properties, so the text printed for it can take the place of the source.

## Main results

* `Program.spells_text` : the text of a program spells its instructions.
* `phrase_of_spells` : whatever is spelled is spelled by phrases.
* `Program.parse_text_of_parse` : a program that was read is read back.
* `CommandLine.stdout_launch_of_tokens`, `CommandLine.load_stdout_tokens` : what is printed for a
  program, and that it is loaded as the program.
* `Program.parse_text_iff_changes_spelled` : the round trip, exactly.
-/

namespace PhraseTape

/-! ### Writing a program -/

namespace Program

theorem toList_foldl_text (p : List Instruction) (written : String) :
    (p.foldl (fun written i => written ++ i.text ++ "\n") written).toList =
      written.toList ++ p.flatMap fun i => i.text.toList ++ ['\n'] := by
  induction p generalizing written with
  | nil => simp
  | cons i p ih =>
    have hbreak : "\n".toList = ['\n'] := rfl
    rw [List.foldl_cons, ih, String.toList_append, String.toList_append, List.flatMap_cons, hbreak]
    simp only [List.append_assoc]

theorem toList_text (p : Program) :
    p.text.toList = p.toList.flatMap fun i => i.text.toList ++ ['\n'] := by
  rw [text, ← Array.foldl_toList, toList_foldl_text]
  rfl

/-- Phrases on lines of their own spell their instructions. -/
theorem spells_flatMap {p : List Instruction} (h : ∀ i ∈ p, Phrase i i.text.toList) :
    Spells [] (p.flatMap fun i => i.text.toList ++ ['\n']) p := by
  induction p with
  | nil => exact .done
  | cons i p ih =>
    obtain ⟨hi, hp⟩ := List.forall_mem_cons.1 h
    have hbreak : Separator ['\n'] (p.flatMap fun i => i.text.toList ++ ['\n']) :=
      .blank (by decide)
    rw [List.flatMap_cons, List.append_assoc]
    exact .phrase hi (.separator hbreak (ih hp))

/-- The text of a program whose instructions are written as phrases spells the program. -/
theorem spells_text {p : Program} (h : ∀ i ∈ p, Phrase i i.text.toList) :
    Spells [] p.text.toList p.toList := by
  rw [toList_text]
  exact spells_flatMap fun i hi => h i (Array.mem_toList_iff.1 hi)

end Program

/-! ### Which programs are spelled -/

/-- Whatever a text spells is spelled by phrases. -/
theorem phrase_of_spells {rest s : List Char} {p : List Instruction} (h : Spells rest s p) :
    ∀ i ∈ p, Phrase i i.text.toList := by
  induction h with
  | done => nofun
  | separator _ _ ih => exact ih
  | phrase hw _ ih => exact List.forall_mem_cons.2 ⟨hw.eq_text ▸ hw, ih⟩

/-- The text of an instruction is a phrase unless it is a change with another text than those
written for an amount. -/
theorem phrase_text_iff {i : Instruction} : Phrase i i.text.toList ↔
    ∀ sign text, i = .change sign text →
      ∃ n, 1 ≤ n ∧ text = String.ofList (Instruction.changeText sign n) := by
  constructor
  · rintro h sign text rfl
    exact (phrase_change_iff.1 h).2
  · intro h
    cases i with
    | change sign text => exact phrase_change_iff.2 ⟨rfl, h sign text rfl⟩
    | right => exact .right
    | left => exact .left
    | loopStart => exact .loopStart
    | loopEnd => exact .loopEnd
    | read => exact .read
    | print => exact .print

namespace Program

/-- A program is read back exactly when it has an instruction and all of them are written as
phrases. -/
theorem parse_text_iff {p : Program} :
    parse p.text = .ok p ↔ p ≠ #[] ∧ ∀ i ∈ p, Phrase i i.text.toList := by
  rw [parse_eq_ok_iff]
  refine and_congr_right fun _ => ⟨fun h i hi => ?_, spells_text⟩
  exact phrase_of_spells h i (Array.mem_toList_iff.2 hi)

/-- A program that was read is read back. -/
theorem parse_text_of_parse {source : String} {p : Program} (h : parse source = .ok p) :
    parse p.text = .ok p := by
  obtain ⟨hne, hp⟩ := parse_eq_ok_iff.1 h
  exact parse_text_iff.2 ⟨hne, fun i hi => phrase_of_spells hp i (Array.mem_toList_iff.2 hi)⟩

end Program

/-! ### Printing and loading -/

theorem toList_loop_eq (b : ByteArray) (i : Nat) (r : List UInt8) :
    ByteArray.toList.loop b i r = r.reverse ++ b.data.toList.drop i := by
  fun_induction ByteArray.toList.loop b i r with
  | case1 i r hi ih =>
    have hi : i < b.data.size := hi
    have hget : b.get! i = b.data.toList[i] := getElem!_pos b.data i hi
    rw [ih, List.drop_eq_getElem_cons hi, hget, List.reverse_cons, List.append_assoc]
    rfl
  | case2 i r hi =>
    rw [List.drop_eq_nil_of_le (Nat.not_lt.1 hi), List.append_nil]

/-- Bytes listed and put together again are the same bytes. -/
theorem mk_toList_toArray (b : ByteArray) : ByteArray.mk b.toList.toArray = b := by
  rw [ByteArray.toList, toList_loop_eq]
  rfl

theorem fromUTF8?_toUTF8 (s : String) : String.fromUTF8? s.toUTF8 = some s := by
  rw [String.fromUTF8?, String.toUTF8_eq_toByteArray, dif_pos s.isValidUTF8]
  rfl

namespace CommandLine

/-- The program in a file that holds a source text. -/
theorem load_toUTF8 {source : String} {p : Program} (h : Program.parse source = .ok p) :
    load (.bytes source.toUTF8) = .ok p := by
  rw [load, fromUTF8?_toUTF8]
  simp only [h]

/-- A launch depends on the program in its file only. -/
theorem launch_congr {f g : FileContent} {p : Program} (hf : load f = .ok p)
    (hg : load g = .ok p) (fuel : Nat) (o : Options) (stdin : List UInt8) :
    launch fuel o f stdin = launch fuel o g stdin := by
  rw [launch, launch, hf, hg]

/-- A launch that shows the program in its file prints the text of the program. -/
theorem stdout_launch_of_tokens {source : String} {p : Program}
    (h : Program.parse source = .ok p) {o : Options} (ho : o.mode = .tokens) (fuel : Nat)
    (stdin : List UInt8) :
    (launch fuel o (.bytes source.toUTF8) stdin).stdout = p.text.toUTF8.toList := by
  rw [launch, load_toUTF8 h]
  simp only [ho]

/-- The bytes printed for the program in a file are a file with the same program. -/
theorem load_stdout_tokens {source : String} {p : Program} (h : Program.parse source = .ok p)
    {o : Options} (ho : o.mode = .tokens) (fuel : Nat) (stdin : List UInt8) :
    load (.bytes ⟨(launch fuel o (.bytes source.toUTF8) stdin).stdout.toArray⟩) = .ok p := by
  rw [stdout_launch_of_tokens h ho, mk_toList_toArray]
  exact load_toUTF8 (Program.parse_text_of_parse h)

end CommandLine

namespace Program

open CommandLine

/-- **The round trip of a program.** A program, with any texts in its changes, is read back as
itself exactly when it is not empty and the text of every change is its opening, at least one of
its glyphs and its closing marker. So every program that was read from a source text is read back.
What the command line prints for that source, if it is asked for the tokens, is the text of the
program, and this can be launched in place of the source, with any options and on any input. -/
theorem parse_text_iff_changes_spelled (p : Program) :
    (parse p.text = .ok p ↔ p ≠ #[] ∧ ∀ sign text, .change sign text ∈ p →
      ∃ n, 1 ≤ n ∧ text = String.ofList (Instruction.changeText sign n)) ∧
    ∀ source, parse source = .ok p → parse p.text = .ok p ∧
      ∀ (o : Options) (fuel : Nat) (stdin : List UInt8), o.mode = .tokens →
        (launch fuel o (.bytes source.toUTF8) stdin).stdout = p.text.toUTF8.toList ∧
        ∀ (o' : Options) (fuel' : Nat) (stdin' : List UInt8),
          launch fuel' o' (.bytes ⟨(launch fuel o (.bytes source.toUTF8) stdin).stdout.toArray⟩)
              stdin' =
            launch fuel' o' (.bytes source.toUTF8) stdin' := by
  refine ⟨?_, fun source h => ⟨parse_text_of_parse h, fun o fuel stdin ho =>
    ⟨stdout_launch_of_tokens h ho fuel stdin, fun o' fuel' stdin' => ?_⟩⟩⟩
  · rw [parse_text_iff]
    refine and_congr_right fun _ => ⟨fun h sign text hi => ?_, fun h i hi => ?_⟩
    · exact phrase_text_iff.1 (h _ hi) sign text rfl
    · exact phrase_text_iff.2 fun sign text heq => h sign text (heq ▸ hi)
  · exact launch_congr (load_stdout_tokens h ho fuel stdin) (load_toUTF8 h) fuel' o' stdin'

end Program

end PhraseTape
