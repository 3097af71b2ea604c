import PhraseTape.Instruction

/-!
# Lexemes

A source text is a sequence of lexemes: blanks, comments and phrases. Nothing has to stand between
two phrases. Reading takes lexemes off the front of the text as long as one fits, and keeps the
text of everything it takes, so that the lexemes and the rest together are the text.

## Main definitions

* `Lexeme`, `Lexeme.spelling` : the lexemes and their texts.
* `Lexeme.next?` : the lexeme at the front of a text, with the text behind it.
* `Lexeme.scan` : the lexemes that can be read, with the text at which reading stops.
* `Lexeme.misfit` : the part of an unreadable text that is shown to its author.

## Main results

* `Lexeme.next?_spelling`, `Lexeme.scan_spelling` : no text is lost.
* `Lexeme.next?_scan_rest` : reading stops only where no lexeme fits.
-/

namespace PhraseTape

/-- One item of a source text. -/
inductive Lexeme where
  /-- A single blank character. -/
  | blank (c : Char)
  /-- A comment with the text behind its two slashes, up to the end of the line. -/
  | comment (text : List Char)
  /-- The phrase of an instruction. -/
  | phrase (i : Instruction)
  deriving DecidableEq, Repr

namespace Lexeme

/-- The text of a lexeme. -/
def spelling : Lexeme → List Char
  | .blank c => [c]
  | .comment text => '/' :: '/' :: text
  | .phrase i => i.text.toList

/-- The instruction of a phrase. -/
def instruction? : Lexeme → Option Instruction
  | .phrase i => some i
  | _ => none

/-- Space, tab, carriage return, line feed and form feed are blank, and nothing else is. -/
def isBlank (c : Char) : Bool :=
  c == ' ' || c == '\t' || c == '\r' || c == '\n' || c == '\x0c'

/-! ### Readers

A reader takes one kind of lexeme off the front of a text. -/

/-- Reads a blank. -/
def blank? : List Char → Option (Lexeme × List Char)
  | [] => none
  | c :: rest => if isBlank c then some (.blank c, rest) else none

/-- Reads a comment, which ends before the next line feed. -/
def comment? : List Char → Option (Lexeme × List Char)
  | '/' :: '/' :: rest => some (.comment (rest.takeWhile (· != '\n')), rest.dropWhile (· != '\n'))
  | _ => none

/-- Reads a phrase that is fixed. -/
def fixed? (s : List Char) : Option (Lexeme × List Char) :=
  Instruction.fixed.findSome? fun i =>
    (i.text.toList.isPrefixOf? s).map fun rest => (.phrase i, rest)

/-- Reads a phrase that changes a cell: the opening, at least one glyph of the given direction,
and its closing marker. -/
def change? (sign : Sign) (s : List Char) : Option (Lexeme × List Char) :=
  match Instruction.opening.isPrefixOf? s with
  | none => none
  | some body =>
    match body.takeWhile (· == sign.glyph), body.dropWhile (· == sign.glyph) with
    | _ :: run, c :: rest =>
      if c = sign.close then
        some (.phrase (.change sign
          (String.ofList (Instruction.changeText sign (run.length + 1)))), rest)
      else
        none
    | _, _ => none

/-- All readers. At most one of them fits a given text. -/
def readers : List (List Char → Option (Lexeme × List Char)) :=
  [blank?, comment?, fixed?, change? .plus, change? .minus]

/-- The lexeme at the front of a text, and the text behind it. -/
def next? (s : List Char) : Option (Lexeme × List Char) :=
  readers.findSome? fun reader => reader s

/-! ### No text is lost -/

theorem isPrefixOf?_cons_cons (c d : Char) (s t : List Char) :
    (c :: s).isPrefixOf? (d :: t) = if c == d then s.isPrefixOf? t else none :=
  rfl

theorem append_of_isPrefixOf? {s t rest : List Char} (h : s.isPrefixOf? t = some rest) :
    s ++ rest = t := by
  induction s generalizing t with
  | nil => exact (Option.some.inj h).symm
  | cons c s ih =>
    cases t with
    | nil => cases h
    | cons d t =>
      rw [isPrefixOf?_cons_cons] at h
      split at h
      next hcd => rw [List.cons_append, ih h, eq_of_beq hcd]
      next => cases h

theorem isPrefixOf?_append (s t : List Char) : s.isPrefixOf? (s ++ t) = some t := by
  induction s with
  | nil => rfl
  | cons c s ih => rw [List.cons_append, isPrefixOf?_cons_cons, ih, beq_self_eq_true, if_pos rfl]

theorem blank?_spelling {s rest : List Char} {l : Lexeme} (h : blank? s = some (l, rest)) :
    l.spelling ++ rest = s ∧ l.spelling ≠ [] := by
  cases s with
  | nil => cases h
  | cons c s =>
    rw [blank?] at h
    split at h
    · cases h
      simp [spelling]
    · cases h

theorem comment?_spelling {s rest : List Char} {l : Lexeme} (h : comment? s = some (l, rest)) :
    l.spelling ++ rest = s ∧ l.spelling ≠ [] := by
  unfold comment? at h
  split at h
  · cases h
    simp [spelling, List.takeWhile_append_dropWhile]
  · cases h

theorem fixed?_spelling {s rest : List Char} {l : Lexeme} (h : fixed? s = some (l, rest)) :
    l.spelling ++ rest = s ∧ l.spelling ≠ [] := by
  obtain ⟨i, hi, h⟩ := List.exists_of_findSome?_eq_some h
  obtain ⟨r, hr, h⟩ := Option.map_eq_some_iff.1 h
  cases h
  refine ⟨append_of_isPrefixOf? hr, ?_⟩
  simp only [Instruction.fixed, List.mem_cons, List.not_mem_nil, or_false] at hi
  rcases hi with rfl | rfl | rfl | rfl | rfl | rfl <;> decide

theorem takeWhile_beq_eq_replicate (g : Char) (s : List Char) :
    s.takeWhile (· == g) = List.replicate (s.takeWhile (· == g)).length g := by
  rw [List.eq_replicate_iff]
  refine ⟨rfl, fun c hc => ?_⟩
  induction s with
  | nil => cases hc
  | cons d s ih =>
    rw [List.takeWhile_cons] at hc
    split at hc
    next hd =>
      rcases List.mem_cons.1 hc with rfl | hc
      · exact eq_of_beq hd
      · exact ih hc
    next => cases hc

theorem change?_spelling {sign : Sign} {s rest : List Char} {l : Lexeme}
    (h : change? sign s = some (l, rest)) : l.spelling ++ rest = s ∧ l.spelling ≠ [] := by
  unfold change? at h
  split at h
  next => cases h
  next body hbody =>
    split at h
    next g run c tail hrun htail =>
      split at h
      next hc =>
        cases h
        have hlen : (body.takeWhile (· == sign.glyph)).length = run.length + 1 := by
          rw [hrun, List.length_cons]
        refine ⟨?_, ?_⟩
        · rw [spelling, Instruction.text, String.toList_ofList, Instruction.changeText, ← hlen,
            ← takeWhile_beq_eq_replicate, ← hc, List.append_assoc, List.append_assoc,
            List.singleton_append, ← htail, List.takeWhile_append_dropWhile]
          exact append_of_isPrefixOf? hbody
        · simp [spelling, Instruction.text, Instruction.changeText]
      next => cases h
    next => cases h

/-- A lexeme and the text behind it are the text it was read from, and a lexeme is never empty. -/
theorem next?_spelling {s rest : List Char} {l : Lexeme} (h : next? s = some (l, rest)) :
    l.spelling ++ rest = s ∧ l.spelling ≠ [] := by
  obtain ⟨reader, hr, h⟩ := List.exists_of_findSome?_eq_some h
  simp only [readers, List.mem_cons, List.not_mem_nil, or_false] at hr
  rcases hr with rfl | rfl | rfl | rfl | rfl
  · exact blank?_spelling h
  · exact comment?_spelling h
  · exact fixed?_spelling h
  · exact change?_spelling h
  · exact change?_spelling h

theorem length_lt_of_next? {s rest : List Char} {l : Lexeme} (h : next? s = some (l, rest)) :
    rest.length < s.length := by
  obtain ⟨hs, hl⟩ := next?_spelling h
  rw [← hs, List.length_append]
  have := List.length_pos_iff.2 hl
  omega

/-! ### Reading a whole text -/

/-- Reads lexemes as long as one fits. The second component is the text at which none fits; it is
empty exactly when all of the text was read. -/
def scan (s : List Char) : List Lexeme × List Char :=
  match _read : next? s with
  | none => ([], s)
  | some (l, rest) =>
    let (lexemes, stop) := scan rest
    (l :: lexemes, stop)
termination_by s.length
decreasing_by exact length_lt_of_next? _read

theorem scan_of_next?_eq_none {s : List Char} (h : next? s = none) : scan s = ([], s) := by
  rw [scan]
  split
  next => rfl
  next h' => rw [h] at h'; cases h'

theorem scan_of_next?_eq_some {s rest : List Char} {l : Lexeme} (h : next? s = some (l, rest)) :
    scan s = (l :: (scan rest).1, (scan rest).2) := by
  rw [scan]
  split
  next h' => rw [h] at h'; cases h'
  next h' => rw [h] at h'; cases h'; rfl

/-- The lexemes read and the text at which reading stops are the whole text. -/
theorem scan_spelling (s : List Char) : (scan s).1.flatMap spelling ++ (scan s).2 = s := by
  cases h : next? s with
  | none => rw [scan_of_next?_eq_none h]; rfl
  | some p =>
    obtain ⟨l, rest⟩ := p
    rw [scan_of_next?_eq_some h, List.flatMap_cons, List.append_assoc, scan_spelling rest]
    exact (next?_spelling h).1
termination_by s.length
decreasing_by exact length_lt_of_next? h

/-- Reading stops only where no lexeme fits. -/
theorem next?_scan_rest (s : List Char) : next? (scan s).2 = none := by
  cases h : next? s with
  | none => rw [scan_of_next?_eq_none h]; exact h
  | some p =>
    obtain ⟨l, rest⟩ := p
    rw [scan_of_next?_eq_some h]
    exact next?_scan_rest rest
termination_by s.length
decreasing_by exact length_lt_of_next? h

/-! ### Unreadable text -/

/-- The part of an unreadable text that is shown to its author. A change whose glyphs are not
closed by their marker is shown with all of its glyphs, and any other text by its first
character. -/
def misfit (s : List Char) : List Char :=
  match Instruction.opening.isPrefixOf? s with
  | some (c :: rest) =>
    if c = Sign.plus.glyph ∨ c = Sign.minus.glyph then
      Instruction.opening ++ c :: rest.takeWhile (· == c)
    else
      s.take 1
  | _ => s.take 1

end Lexeme

end PhraseTape
