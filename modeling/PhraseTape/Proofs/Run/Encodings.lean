import PhraseTape.Proofs.Run.Consoles
import PhraseTape.Proofs.Run.Printing
import PhraseTape.Proofs.Run.Questions
import PhraseTape.Proofs.Source.RoundTrip
import PhraseTape.Proofs.Text.FirstCharacter

/-!
# The two encodings of the output

How cells are printed has no influence on a run. If the writer accepts all bytes in the end, a run
that prints its cells as code points and a run that prints them as they are ask the same questions,
leave the same machine and the same reader, and come to the same end. What the first prints is the
text, in UTF-8, whose code points are the bytes that the second prints.

## Main definitions

* `textOfBytes` : the text whose code points are given bytes.
* `Console.Transcoded` : two consoles, of which the first shows in UTF-8 what the second shows.
* `Session.withEncoding` : a session with another encoding.

## Main results

* `toList_toUTF8_textOfBytes` : the bytes of such a text, byte by byte.
* `Session.lockstep_encodings` : two runs with the two encodings.
* `Session.execute_encodings_agree` : the two runs and their outputs, compared.
-/

namespace PhraseTape

variable {σ : Type}

/-- The text whose code points are the given bytes. -/
def textOfBytes (bytes : List UInt8) : String :=
  String.ofList (bytes.map fun b => Char.ofNat b.toNat)

/-! ### The text of some bytes -/

theorem toUTF8_textOfBytes (bytes : List UInt8) : (textOfBytes bytes).toUTF8 =
    ⟨(bytes.flatMap OutputEncoding.utf8.encode).toArray⟩ := by
  apply ByteArray.ext
  rw [textOfBytes, String.toUTF8_eq_toByteArray, String.toByteArray_ofList, List.utf8Encode,
    List.data_toByteArray, List.flatMap_map]
  rfl

/-- The text is written by printing its bytes as cells. -/
theorem toList_toUTF8_textOfBytes (bytes : List UInt8) : (textOfBytes bytes).toUTF8.toList =
    bytes.flatMap OutputEncoding.utf8.encode := by
  rw [toUTF8_textOfBytes, ByteArray.toList, toList_loop_eq]
  rfl

theorem map_toNat_textOfBytes (bytes : List UInt8) :
    (textOfBytes bytes).toList.map Char.toNat = bytes.map UInt8.toNat := by
  rw [textOfBytes, String.toList_ofList, List.map_map]
  refine List.map_congr_left fun b _ => ?_
  exact Utf8.toNat_val_ofNat (.inl (Nat.lt_trans b.toNat_lt (by decide)))

/-- Read as UTF-8 the bytes are well-formed, and they are the text. -/
theorem fromUTF8?_textOfBytes (bytes : List UInt8) :
    String.fromUTF8? ⟨(bytes.flatMap OutputEncoding.utf8.encode).toArray⟩ =
      some (textOfBytes bytes) := by
  rw [← toUTF8_textOfBytes, fromUTF8?_toUTF8]

/-! ### The console -/

namespace Console

/-- The two consoles agree in their readers and in their flushes, and their writers accept all bytes
in the end. Behind the bytes `before`, the first shows in UTF-8 what the second shows. -/
structure Transcoded (before : List UInt8) (c d : Console) : Prop where
  feed : d.feed = c.feed
  flushes : d.flushes = c.flushes
  willing : ∀ r ∈ c.replies, r.Willing
  willing' : ∀ r ∈ d.replies, r.Willing
  output : ∃ printed : List UInt8, d.output = before ++ printed ∧
    c.output = before ++ printed.flatMap OutputEncoding.utf8.encode

variable {before : List UInt8} {c d : Console}

theorem transcoded_self (h : ∀ r ∈ c.replies, r.Willing) : Transcoded c.output c c :=
  ⟨rfl, rfl, h, h, [], (List.append_nil _).symm, (List.append_nil _).symm⟩

theorem Transcoded.flush (h : Transcoded before c d) :
    Alike (Transcoded before) c.flush d.flush := by
  refine alike_flush (by rw [nextFlush, nextFlush, h.flushes])
    ⟨h.feed, congrArg List.tail h.flushes, h.willing, h.willing', ?_⟩
  rw [output_flushed, output_flushed]
  exact h.output

theorem Transcoded.readLine (h : Transcoded before c d) :
    Alike (Transcoded before) c.readLine d.readLine := by
  refine alike_readLine h.feed fun rest => ⟨rfl, h.flushes, h.willing, h.willing', ?_⟩
  rw [output_asked, output_asked]
  exact h.output

/-- What the first console is written for a cell is the code point of what the second is. -/
theorem Transcoded.write (h : Transcoded before c d) (v : Cell) :
    Alike (Transcoded before) (c.write (OutputEncoding.utf8.encode v))
      (d.write (OutputEncoding.byte.encode v)) := by
  obtain ⟨printed, hd, hc⟩ := h.output
  obtain ⟨c', hcw, hcfeed, hcflushes, hcoutput, hcwilling⟩ :=
    write_of_willing h.willing (OutputEncoding.utf8.encode v)
  obtain ⟨d', hdw, hdfeed, hdflushes, hdoutput, hdwilling⟩ :=
    write_of_willing h.willing' (OutputEncoding.byte.encode v)
  rw [hcw, hdw]
  refine ⟨rfl, by rw [hcfeed, hdfeed, h.feed], by rw [hcflushes, hdflushes, h.flushes], hcwilling,
    hdwilling, printed ++ [v], ?_, ?_⟩
  · rw [hdoutput, hd, List.append_assoc, OutputEncoding.encode_byte]
  · rw [hcoutput, hc, List.append_assoc, List.flatMap_append, List.flatMap_cons, List.flatMap_nil,
      List.append_nil]

end Console

namespace Session

/-- The session with another encoding. -/
def withEncoding (e : OutputEncoding) (s : Session) : Session :=
  { s with machine := { s.machine with encoding := e } }

/-- The sessions differ at most in their encodings, in what they show behind the bytes `before`, and
in how their writers accept it. -/
abbrev Transcoded (before : List UInt8) : Session → Session → Prop :=
  OnConsoles .utf8 .byte (Console.Transcoded before)

variable {observe : Observer σ} {before : List UInt8} {s t : Session}

theorem transcoded_withEncoding (h : ∀ r ∈ s.console.replies, r.Willing) :
    Transcoded s.console.output (s.withEncoding .utf8) (s.withEncoding .byte) :=
  ⟨rfl, rfl, Console.transcoded_self h⟩

/-- A step fails or succeeds alike with the two encodings. -/
theorem Transcoded.step {i : Instruction} (h : Transcoded before s t)
    (hi : s.machine.current? = some i) : Outcome.Alike (Transcoded before) s.step t.step :=
  OnConsoles.step h hi <| OnConsoles.perform h (fun _ => h.console.flush)
    (fun _ _ _ hcd => hcd.readLine) fun _ v => h.console.write v

/-- **A run does not depend on the encoding of its output**: no observer sees it, and no step
depends on what was printed. -/
theorem lockstep_encodings (before : List UInt8) (observe : Observer σ) :
    Lockstep observe observe (Transcoded before) fun _ _ => True where
  current h := by
    rw [h.machine]
    rfl
  verdict a h _ := by
    rw [h.machine]
    rfl
  step h hi _ _ := Transcoded.step h hi
  finish a h := h.finish h.console.flush a

/-- **The two encodings.** Let the writer of a session accept all bytes in the end, in whatever
portions, and let the session run under each of the two encodings. For every observer and every
number of instructions the runs ask the same questions, have the same status and the same notes, and
leave the same machine up to the encoding and the same reader. What the run in UTF-8 prints is well
formed and is the text whose code points are the bytes that the other run prints. -/
theorem execute_encodings_agree (observe : Observer σ) (fuel : Nat) (a : σ) (s : Session)
    (h : ∀ r ∈ s.console.replies, r.Willing) :
    let utf8 := (s.withEncoding .utf8).execute observe fuel a
    let byte := (s.withEncoding .byte).execute observe fuel a
    (s.withEncoding .utf8).questions observe fuel a =
      (s.withEncoding .byte).questions observe fuel a ∧
    utf8.status = byte.status ∧ utf8.notes = byte.notes ∧
    byte.session.machine = { utf8.session.machine with encoding := .byte } ∧
    utf8.session.console.feed = byte.session.console.feed ∧
    ∃ (printed encoded : List UInt8) (text : String),
      byte.session.console.output = s.console.output ++ printed ∧
      utf8.session.console.output = s.console.output ++ encoded ∧
      encoded = text.toUTF8.toList ∧ text.toList.map Char.toNat = printed.map UInt8.toNat ∧
      String.fromUTF8? ⟨encoded.toArray⟩ = some text := by
  intro utf8 byte
  have hstart := transcoded_withEncoding h
  have halike := (lockstep_encodings _ observe).execute_alike hstart fuel a
  have hasked :=
    ((lockstep_encodings _ observe.recording).execute_alike hstart fuel (#[], a)).notes
  obtain ⟨printed, hbyte, hutf8⟩ := halike.session.console.output
  exact ⟨(congrArg Prod.fst hasked).symm, halike.status.symm, halike.notes.symm,
    halike.session.machine, halike.session.console.feed.symm, printed, _, textOfBytes printed,
    hbyte, hutf8, (toList_toUTF8_textOfBytes printed).symm, map_toNat_textOfBytes printed,
    fromUTF8?_textOfBytes printed⟩

/-- Prints a cell of two bytes in UTF-8 and a cell of one. -/
def printsTwo : Session where
  machine :=
    { program := #[.print, .right, .print], tape := ((Tape.new 2 .error).put 0 233).put 1 65 }
  console := { replies := [.accept 1] }

/-- The writer takes the first byte of the text alone. -/
theorem execute_encodings_agree_printsTwo :
    (∀ r ∈ printsTwo.console.replies, r.Willing) ∧
      ((printsTwo.withEncoding .byte).execute Observer.silent 3 ()).session.console.output =
        [233, 65] ∧
      ((printsTwo.withEncoding .utf8).execute Observer.silent 3 ()).session.console.output =
        [195, 169, 65] ∧
      ∃ text : String, text.toUTF8.toList = [195, 169, 65] ∧
        text.toList.map Char.toNat = [233, 65] ∧
        String.fromUTF8? ⟨#[195, 169, 65]⟩ = some text := by
  have hwilling : ∀ r ∈ printsTwo.console.replies, r.Willing := by decide
  have hbyte : ((printsTwo.withEncoding .byte).execute
      Observer.silent 3 ()).session.console.output = [233, 65] := by decide
  have hutf8 : ((printsTwo.withEncoding .utf8).execute
      Observer.silent 3 ()).session.console.output = [195, 169, 65] := by decide
  obtain ⟨-, -, -, -, -, printed, encoded, text, hprinted, hencoded, htext, hcodes, hdecoded⟩ :=
    execute_encodings_agree Observer.silent 3 () printsTwo hwilling
  obtain rfl : printed = [233, 65] := hprinted.symm.trans hbyte
  obtain rfl : encoded = [195, 169, 65] := hencoded.symm.trans hutf8
  exact ⟨hwilling, hbyte, hutf8, text, htext.symm, hcodes, hdecoded⟩

end Session

end PhraseTape
