import PhraseTape.Proofs.Source.Apart

/-!
# Texts written below each other

No lexeme and nothing that is shown of an unreadable text reaches across a line break, so a text
written below another one is read as if it stood alone, only further down. What is reported of both
is the report of the upper text if that is unreadable, then the report of the lower one with its
line moved down, and otherwise the two programs are joined.

## Main definitions

* `stacked` : what two texts give together, by what each of them gives.

## Main results

* `Spells.append`, `Spells.append_newline` : a text in front of a text, and of a line break.
* `Program.parse_append_newline_of_upper`, `Program.parse_append_newline_of_lower` : the report of
  two texts.
* `Program.parse_append_newline` : the program of two texts below each other.
-/

namespace PhraseTape

open Lexeme

/-- What two texts give together when the lower one begins `n` lines below the start of the upper
one. The upper text is reported first, and a text without instructions adds none. -/
def stacked (n : Nat) (upper lower : Except ParseError Program) : Except ParseError Program :=
  match upper, lower with
  | .error (.unrecognized place text), _ => .error (.unrecognized place text)
  | _, .error (.unrecognized place text) =>
    .error (.unrecognized ⟨place.line + n, place.column⟩ text)
  | .error .emptyProgram, .error .emptyProgram => .error .emptyProgram
  | .error .emptyProgram, .ok q => .ok q
  | .ok p, .error .emptyProgram => .ok p
  | .ok p, .ok q => .ok (p ++ q)

/-! ### Texts in front of texts -/

/-- What is spelled in front of a text, and in that text, is spelled one after the other. -/
theorem Spells.append {rest s t : List Char} {p q : List Instruction} (hs : Spells t s p)
    (ht : Spells rest t q) : Spells rest s (p ++ q) := by
  induction hs with
  | done => exact ht
  | separator hw _ ih => exact .separator hw ih
  | phrase hw _ ih => exact .phrase hw ih

/-- A line break can follow wherever a text can end, also behind a comment. -/
theorem Separator.append_newline {w s : List Char} (h : Separator w s) (t : List Char) :
    Separator w (s ++ '\n' :: t) := by
  cases h with
  | blank hc => exact .blank hc
  | comment ht hs =>
    refine .comment ht (.inr ?_)
    rcases hs with rfl | ⟨s, rfl⟩
    · exact ⟨t, rfl⟩
    · exact ⟨s ++ '\n' :: t, by simp⟩

theorem Spells.append_newline {rest s : List Char} {p : List Instruction} (h : Spells rest s p)
    (t : List Char) : Spells (rest ++ '\n' :: t) (s ++ '\n' :: t) p := by
  induction h with
  | done => exact .done
  | separator hw _ ih =>
    rw [List.append_assoc]
    exact .separator (hw.append_newline t) ih
  | phrase hw _ ih =>
    rw [List.append_assoc]
    exact .phrase hw ih

/-! ### Places further down -/

/-- Moving the start of a text down moves every place of it down. -/
theorem Location.through_below (l : Location) (n : Nat) (s : List Char) :
    (⟨l.line + n, l.column⟩ : Location).through s =
      ⟨(l.through s).line + n, (l.through s).column⟩ := by
  induction s generalizing l with
  | nil => rfl
  | cons c s ih =>
    have hnext : (⟨l.line + n, l.column⟩ : Location).next c =
        ⟨(l.next c).line + n, (l.next c).column⟩ := by
      unfold next
      split
      · exact congrArg (Location.mk · 1) (Nat.add_right_comm ..)
      · rfl
    show ((⟨l.line + n, l.column⟩ : Location).next c).through s = _
    rw [hnext, ih]
    rfl

/-- The places of a text below a line break are the places of the text alone, moved down. -/
theorem Location.after_append_newline (s t : List Char) : after (s ++ '\n' :: t) =
    ⟨(after t).line + (1 + s.count '\n'), (after t).column⟩ := by
  have hstart : (⟨(after s).line + 1, 1⟩ : Location) =
      ⟨start.line + (1 + s.count '\n'), start.column⟩ := by
    rw [line_after]
    exact congrArg (Location.mk · 1) (by simp only [start]; omega)
  rw [after_append, through_newline, hstart, through_below]
  rfl

namespace Program

/-! ### Reading two texts -/

theorem toList_append_newline (upper lower : String) :
    (upper ++ "\n" ++ lower).toList = upper.toList ++ '\n' :: lower.toList := by
  rw [String.toList_append, String.toList_append, List.append_assoc]
  rfl

/-- A text that stops is reported in the same way with a text below it. -/
theorem parse_append_newline_of_upper {upper : String} {k : Nat} (h : StopsAt upper.toList k)
    (lower : String) : parse (upper ++ "\n" ++ lower) = parse upper := by
  rw [String.append_assoc]
  refine parse_append_of_stopsAt h ?_
  rw [String.toList_append]
  exact apart_newline lower.toList

/-- A text that can be read lets through what is spelled below it. -/
theorem spells_append_newline {upper lower : String} {p q : List Instruction} {rest : List Char}
    (hp : Spells [] upper.toList p) (hq : Spells rest lower.toList q) :
    Spells rest (upper ++ "\n" ++ lower).toList (p ++ q) := by
  have hbreak : Spells rest ('\n' :: lower.toList) q :=
    .separator (w := ['\n']) (.blank (by decide)) hq
  rw [toList_append_newline]
  exact (hp.append_newline lower.toList).append hbreak

/-- A text that stops below one that can be read is reported further down. -/
theorem parse_append_newline_of_lower {upper lower : String} {p : List Instruction} {k : Nat}
    (hp : Spells [] upper.toList p) (h : StopsAt lower.toList k) :
    parse (upper ++ "\n" ++ lower) = .error (.unrecognized
      ⟨(Location.after (lower.toList.take k)).line + (1 + upper.toList.count '\n'),
        (Location.after (lower.toList.take k)).column⟩
      (String.ofList (misfit (lower.toList.drop k)))) := by
  obtain ⟨-, hnext, q, hs⟩ := stopsAt_iff_spells.1 h
  have hsplit : (upper ++ "\n" ++ lower).toList =
      (upper.toList ++ '\n' :: lower.toList.take k) ++ lower.toList.drop k := by
    rw [toList_append_newline, List.append_assoc, List.cons_append, List.take_append_drop]
  rw [parse_of_stop (spells_append_newline hp hs) hnext h.drop_ne_nil hsplit,
    Location.after_append_newline]

theorem exists_stopsAt_of_not_spells {source : String} (h : ¬ ∃ p, Spells [] source.toList p) :
    ∃ k, StopsAt source.toList k := by
  obtain ⟨place, text, he⟩ := parse_of_not_spells (not_exists.1 h)
  exact exists_stopsAt he

/-- **Reading goes line by line.** A text that consists of two texts with a line break between them
gives what the two texts give each by itself: the report of the upper one, if it cannot be read;
else the report of the lower one, further down by as many lines as the upper one has; and else the
instructions of both, or no instruction if there are none in either. -/
theorem parse_append_newline (upper lower : String) :
    parse (upper ++ "\n" ++ lower) =
      stacked (1 + upper.toList.count '\n') (parse upper) (parse lower) := by
  by_cases hupper : ∃ p, Spells [] upper.toList p
  · obtain ⟨p, hp⟩ := hupper
    by_cases hlower : ∃ q, Spells [] lower.toList q
    · obtain ⟨q, hq⟩ := hlower
      rw [parse_of_spells hp, parse_of_spells hq, parse_of_spells (spells_append_newline hp hq)]
      by_cases hnil : p = [] <;> by_cases hnil' : q = [] <;> simp [stacked, hnil, hnil']
    · obtain ⟨k, hk⟩ := exists_stopsAt_of_not_spells hlower
      rw [parse_append_newline_of_lower hp hk, parse_of_stopsAt hk, parse_of_spells hp]
      by_cases hnil : p = [] <;> simp [stacked, hnil]
  · obtain ⟨k, hk⟩ := exists_stopsAt_of_not_spells hupper
    rw [parse_append_newline_of_upper hk, parse_of_stopsAt hk]
    rfl

end Program

end PhraseTape
