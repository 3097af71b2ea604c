import Mathlib.Data.List.Forall2
import PhraseTape.Proofs.Source.LineBreak

/-!
# Text behind the ends of lines

Blanks may be put behind any line of a source text, and a comment behind them, and the text is read
as before: as the same program, as one without instructions, or as unreadable at the same place with
the same part of it shown. This is clear of a line that can be read. On a line that cannot, what is
put behind it might complete a phrase, lengthen or close a run of glyphs, or make a comment of a
slash. It does not, because a blank comes first, and because no phrase ends with a blank or has a
slash in it. A text is read line by line, so it may be changed in all of its lines at once.

## Main definitions

* `Trailing` : what may be put behind a line.
* `Trailed` : two texts of which the second has something behind each line of the first.
* `withReturns` : a text with a carriage return in front of each line break.

## Main results

* `Trailing.apart` : what may be put behind a line stands apart from it.
* `Program.parse_append_of_trailing` : one line.
* `Program.parse_append_newline_congr` : two texts below each other give what each of them gives.
* `Program.parse_of_trailed` : all lines.
-/

namespace PhraseTape

open Lexeme

/-- What may be put behind a line: characters that are blank inside a line, and behind at least one
of them a comment. -/
inductive Trailing : List Char → Prop
  | blanks {b : List Char} (hb : ∀ c ∈ b, c ∈ [' ', '\t', '\r', '\x0c']) : Trailing b
  | comment {b t : List Char} (hb : ∀ c ∈ b, c ∈ [' ', '\t', '\r', '\x0c']) (hne : b ≠ [])
      (ht : '\n' ∉ t) : Trailing (b ++ '/' :: '/' :: t)

/-- The second text has the lines of the first, and behind each of them something that may be put
there. -/
def Trailed (s t : List Char) : Prop :=
  List.Forall₂ (fun line longer => ∃ w, Trailing w ∧ longer = line ++ w)
    (s.splitOn '\n') (t.splitOn '\n')

/-- The text with a carriage return in front of each line break. -/
def withReturns (s : List Char) : List Char :=
  s.flatMap fun c => if c = '\n' then ['\r', '\n'] else [c]

/-! ### What stands behind a line -/

/-- No phrase ends with a blank. -/
theorem Phrase.getLast?_notMem {i : Instruction} {w : List Char} (h : Phrase i w) :
    ∀ c ∈ w.getLast?, c ∉ [' ', '\t', '\r', '\x0c'] := by
  cases h with
  | raise _ h => rw [h, List.getLast?_append]; rintro c ⟨⟩; decide
  | lower _ h => rw [h, List.getLast?_append]; rintro c ⟨⟩; decide
  | _ => rintro c ⟨⟩; decide

/-- Whatever a phrase ends with has a character that is not blank. -/
theorem Phrase.exists_mem_of_append {i : Instruction} {u v : List Char} (h : Phrase i (u ++ v))
    (hne : v ≠ []) : ∃ c ∈ v, c ∉ [' ', '\t', '\r', '\x0c'] := by
  have hlast : v.getLast? = some (v.getLast hne) := List.getLast?_eq_some_getLast hne
  refine ⟨v.getLast hne, List.getLast_mem hne, h.getLast?_notMem _ ?_⟩
  rw [List.getLast?_append, hlast]
  rfl

namespace Trailing

variable {w : List Char}

theorem newline_notMem (h : Trailing w) : '\n' ∉ w := by
  have hblank : ∀ {b : List Char}, (∀ c ∈ b, c ∈ [' ', '\t', '\r', '\x0c']) → '\n' ∉ b :=
    fun hb hmem => absurd (hb _ hmem) (by decide)
  cases h with
  | blanks hb => exact hblank hb
  | comment hb _ ht => simp [hblank hb, ht]

theorem isTrivia (h : Trailing w) : IsTrivia w := by
  cases h with
  | blanks hb => exact ⟨w, [], by simp, hb, .inl rfl⟩
  | @comment b t hb _ _ => exact ⟨b, '/' :: '/' :: t, rfl, hb, .inr ⟨t, rfl⟩⟩

theorem head?_mem (h : Trailing w) : ∀ c ∈ w.head?, c ∈ [' ', '\t', '\r', '\x0c'] := by
  intro c hc
  cases h with
  | blanks hb => exact hb c (List.mem_of_mem_head? hc)
  | comment hb hne _ =>
    rw [List.head?_append_of_ne_nil _ hne] at hc
    exact hb c (List.mem_of_mem_head? hc)

/-- As long as no slash comes, there are only blanks. -/
theorem mem_of_isPrefix (h : Trailing w) {v : List Char} (hv : v <+: w) (hslash : '/' ∉ v) :
    ∀ c ∈ v, c ∈ [' ', '\t', '\r', '\x0c'] := by
  intro c hc
  cases h with
  | blanks hb => exact hb c (hv.subset hc)
  | @comment b t hb _ _ =>
    have hfirst : b ++ ['/'] <+: b ++ '/' :: '/' :: t := ⟨'/' :: t, by simp⟩
    rcases List.prefix_or_prefix_of_prefix hv hfirst with h | h
    · rcases List.prefix_concat_iff.1 h with rfl | h
      · exact absurd (by simp) hslash
      · exact hb c (h.subset hc)
    · exact absurd (h.subset (by simp)) hslash

/-- What may be put behind a line stands apart from it. The end of a phrase has no slash and is not
all blank, but what is put behind a line is all blank up to its first slash. -/
theorem apart (h : Trailing w) : Apart w where
  blank c hc := mem_blanks_iff.2 (.inr (h.head?_mem c hc))
  phrase := by
    intro i u v hphrase hv
    by_contra hne
    obtain ⟨c, hc, hblank⟩ := hphrase.exists_mem_of_append hne
    have hslash : '/' ∉ v := fun hmem => hphrase.notMem.2 (List.mem_append_right u hmem)
    exact hblank (h.mem_of_isPrefix hv hslash c hc)

end Trailing

/-- A text that is spelled spells the same with something behind its last line; if that ends in a
comment, the comment becomes longer. -/
theorem Spells.append_trailing {s w : List Char} {p : List Instruction} (h : Spells [] s p)
    (hw : Trailing w) : Spells [] (s ++ w) p := by
  induction h with
  | done =>
    have hdone : Spells [] (w ++ []) [] :=
      Spells.done.trivia hw.isTrivia hw.newline_notMem (.inl rfl)
    rwa [List.append_nil] at hdone
  | phrase hphrase _ ih =>
    rw [List.append_assoc]
    exact .phrase hphrase ih
  | @separator v s p hv hs ih =>
    rw [List.append_assoc]
    cases hv with
    | blank hc => exact .separator (.blank hc) ih
    | @comment t _ ht hend =>
      rcases hend with rfl | ⟨r, rfl⟩
      · have hlonger : '\n' ∉ t ++ w := by simp [ht, hw.newline_notMem]
        have hcomment := Spells.separator (.comment hlonger (.inl rfl)) hs
        rwa [List.append_nil] at hcomment
      · exact .separator (.comment ht (.inr ⟨r ++ w, rfl⟩)) ih

namespace Program

/-! ### Reading the lines -/

/-- **One line.** What may be put behind a line changes nothing behind the last line of a text. -/
theorem parse_append_of_trailing (source : String) {behind : String}
    (h : Trailing behind.toList) : parse (source ++ behind) = parse source := by
  by_cases hs : ∃ p, Spells [] source.toList p
  · obtain ⟨p, hp⟩ := hs
    have hboth : Spells [] (source ++ behind).toList p := by
      rw [String.toList_append]
      exact hp.append_trailing h
    rw [parse_of_spells hboth, parse_of_spells hp]
  · obtain ⟨k, hk⟩ := exists_stopsAt_of_not_spells hs
    exact parse_append_of_stopsAt hk h.apart

/-- A text that is read as another one which can be read whole spells the same instructions. -/
theorem spells_of_parse_eq {source other : String} {p : List Instruction}
    (hp : Spells [] source.toList p) (h : parse other = parse source) :
    Spells [] other.toList p := by
  rw [parse_of_spells hp] at h
  by_cases hother : ∃ q, Spells [] other.toList q
  · obtain ⟨q, hq⟩ := hother
    rw [parse_of_spells hq] at h
    have hqp : q = p := by
      by_cases hp : p = [] <;> by_cases hq : q = [] <;> simp_all
    rwa [← hqp]
  · obtain ⟨place, text, he⟩ := parse_of_not_spells (not_exists.1 hother)
    rw [he] at h
    split at h <;> cases h

/-- What two texts below each other give depends on nothing but what each of them gives, and on the
number of lines of the upper one. -/
theorem parse_append_newline_congr {upper upper' lower lower' : String}
    (hupper : parse upper' = parse upper)
    (hcount : upper'.toList.count '\n' = upper.toList.count '\n')
    (hlower : parse lower' = parse lower) :
    parse (upper' ++ "\n" ++ lower') = parse (upper ++ "\n" ++ lower) := by
  by_cases hu : ∃ p, Spells [] upper.toList p
  · obtain ⟨p, hp⟩ := hu
    have hp' := spells_of_parse_eq hp hupper
    by_cases hl : ∃ q, Spells [] lower.toList q
    · obtain ⟨q, hq⟩ := hl
      have hq' := spells_of_parse_eq hq hlower
      rw [parse_of_spells (spells_append_newline hp' hq'),
        parse_of_spells (spells_append_newline hp hq)]
    · obtain ⟨k, hk⟩ := exists_stopsAt_of_not_spells hl
      obtain ⟨j, hj⟩ := exists_stopsAt (hlower.trans (parse_of_stopsAt hk))
      have hreport := (parse_of_stopsAt hj).symm.trans (hlower.trans (parse_of_stopsAt hk))
      obtain ⟨hplace, hshown⟩ := ParseError.unrecognized.inj (Except.error.inj hreport)
      rw [parse_append_newline_of_lower hp' hj, parse_append_newline_of_lower hp hk, hcount,
        hplace, hshown]
  · obtain ⟨k, hk⟩ := exists_stopsAt_of_not_spells hu
    obtain ⟨j, hj⟩ := exists_stopsAt (hupper.trans (parse_of_stopsAt hk))
    rw [parse_append_newline_of_upper hj, parse_append_newline_of_upper hk, hupper]

/-- Lines with something behind each of them are read as the lines alone. -/
theorem parse_intercalate {lines longer : List (List Char)}
    (h : List.Forall₂ (fun line longer => ∃ w, Trailing w ∧ longer = line ++ w) lines longer) :
    parse (String.ofList (['\n'].intercalate longer)) =
      parse (String.ofList (['\n'].intercalate lines)) := by
  induction h with
  | nil => rfl
  | @cons line _ lines longer hline hlines ih =>
    obtain ⟨w, hw, rfl⟩ := hline
    have hone : parse (String.ofList (line ++ w)) = parse (String.ofList line) := by
      rw [String.ofList_append]
      exact parse_append_of_trailing _ (by rwa [String.toList_ofList])
    cases hlines with
    | nil => simpa only [List.intercalate_singleton] using hone
    | cons _ _ =>
      simp only [List.intercalate_cons_cons, String.ofList_append]
      refine parse_append_newline_congr ?_ ?_ ih
      · rwa [← String.ofList_append]
      · simp [List.count_eq_zero.2 hw.newline_notMem]

end Program

/-! ### Carriage returns -/

/-- A character that breaks no line becomes the first of the first line. -/
theorem Trailed.cons {c : Char} {s t : List Char} (hc : c ≠ '\n') (h : Trailed s t) :
    Trailed (c :: s) (c :: t) := by
  have hc : ¬ (c == '\n') = true := by simpa using hc
  unfold Trailed at h ⊢
  rw [List.splitOn_cons_eq_if_modifyHead, List.splitOn_cons_eq_if_modifyHead, if_neg hc, if_neg hc]
  generalize s.splitOn '\n' = lines at h ⊢
  generalize t.splitOn '\n' = longer at h ⊢
  cases h with
  | nil => exact .nil
  | cons hline hlines =>
    obtain ⟨w, hw, rfl⟩ := hline
    exact .cons ⟨w, hw, rfl⟩ hlines

theorem trailed_withReturns (s : List Char) : Trailed s (withReturns s) := by
  induction s with
  | nil => exact List.Forall₂.cons ⟨[], .blanks nofun, rfl⟩ .nil
  | cons c s ih =>
    by_cases hc : c = '\n'
    · subst hc
      have hreturns : withReturns ('\n' :: s) = '\r' :: '\n' :: withReturns s := rfl
      rw [hreturns, Trailed, List.splitOn_cons_eq_if_modifyHead, if_pos (by decide),
        List.splitOn_cons_eq_if_modifyHead, if_neg (by decide),
        List.splitOn_cons_eq_if_modifyHead, if_pos (by decide)]
      exact List.Forall₂.cons ⟨['\r'], .blanks (by simp), rfl⟩ ih
    · have hreturns : withReturns (c :: s) = c :: withReturns s := by simp [withReturns, hc]
      rw [hreturns]
      exact ih.cons hc

namespace Program

/-- **The ends of lines do not matter.** Behind every line of a text, the last one included, let
blanks be put, and a comment behind them if there is a blank. Then the text gives what it gave
before: the same program, or no instructions, or the same report with the same line, column and
text. In particular nothing changes with a carriage return in front of every line break. -/
theorem parse_of_trailed (source : String) :
    (∀ edited : String, Trailed source.toList edited.toList → parse edited = parse source) ∧
    parse (String.ofList (withReturns source.toList)) = parse source := by
  have hall : ∀ edited : String, Trailed source.toList edited.toList →
      parse edited = parse source := by
    intro edited h
    have hlines := parse_intercalate h
    rwa [List.intercalate_splitOn, List.intercalate_splitOn, String.ofList_toList,
      String.ofList_toList] at hlines
  refine ⟨hall, hall _ ?_⟩
  rw [String.toList_ofList]
  exact trailed_withReturns source.toList

/-- A loop start, and below it a phrase that is not complete. -/
def brokenOff : String :=
  "신\n이국"

/-- The same with a carriage return behind the loop start, and behind the phrase a comment that has
the rest of it. -/
def brokenOffBefore : String :=
  "신\r\n이국 // 왤캐 고수임?"

/-- The phrase is reported in both texts at the start of the second line. -/
theorem parse_of_trailed_brokenOff : Trailed brokenOff.toList brokenOffBefore.toList ∧
    parse brokenOff = .error (.unrecognized ⟨2, 1⟩ "이") ∧
    parse brokenOffBefore = .error (.unrecognized ⟨2, 1⟩ "이") := by
  have htrailed : Trailed brokenOff.toList brokenOffBefore.toList := by
    have hlines : brokenOff.toList.splitOn '\n' = [['신'], ['이', '국']] := by decide +kernel
    have hlonger : brokenOffBefore.toList.splitOn '\n' =
        [['신'] ++ ['\r'], ['이', '국'] ++ ([' '] ++ '/' :: '/' :: " 왤캐 고수임?".toList)] := by
      decide +kernel
    rw [Trailed, hlines, hlonger]
    exact .cons ⟨_, .blanks (by simp), rfl⟩
      (.cons ⟨_, .comment (by simp) (by simp) (by decide), rfl⟩ .nil)
  have hparse : parse brokenOff = .error (.unrecognized ⟨2, 1⟩ "이") := by
    have hsplit : brokenOff.toList = ['신'] ++ (['\n'] ++ ['이', '국']) := by decide +kernel
    have hspells : Spells ['이', '국'] brokenOff.toList [.loopStart] := by
      rw [hsplit]
      exact .phrase .loopStart (.separator (.blank (by decide)) .done)
    exact parse_of_stop (u := ['신', '\n']) hspells rfl (by decide) hsplit
  exact ⟨htrailed, hparse, ((parse_of_trailed brokenOff).1 _ htrailed).trans hparse⟩

end Program

end PhraseTape
