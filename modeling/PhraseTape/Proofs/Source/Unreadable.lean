import Mathlib.Data.List.DropRight
import PhraseTape.Proofs.Source.Grammar

/-!
# Where reading stops

A text that is no program because of its form is reported at one place: everything in front of it
is blanks, phrases and whole comments, and neither a separator nor a phrase begins there. The place
is counted in lines and characters. What is shown of the text is a single character, except that
the glyphs of a change whose closing marker is missing are shown together with their opening.

## Main definitions

* `Readable u` : `u` consists of blanks, phrases, and comments with a line break behind them in `u`.
* `StopsAt s k` : the text `s` is readable up to its character of index `k`, and not from there on.
* `OpenRun`, `Shows` : the glyphs of a change that is not closed, and what is shown of a text.

## Main results

* `Lexeme.next?_eq_none_iff` : no lexeme fits where neither a separator nor a phrase begins.
* `stopsAt_iff_spells` : stopping, and the grammar of what is in front.
* `Location.column_after_eq` : the column is counted from the last line break.
* `shows_iff_misfit` : what is shown, by the grammar and by the reader.
* `Program.parse_unrecognized_iff_stopsAt` : the report of a text that cannot be read.
-/

namespace PhraseTape

open Lexeme

/-- A part of a source text that ends with the end of a lexeme: blanks, phrases, and comments, each
of them with a line break of the part directly behind it. -/
inductive Readable : List Char → Prop
  | nil : Readable []
  | blank {c : Char} {s : List Char} (hc : c ∈ [' ', '\t', '\r', '\n', '\x0c']) (h : Readable s) :
      Readable (c :: s)
  | phrase {i : Instruction} {w s : List Char} (hw : Phrase i w) (h : Readable s) :
      Readable (w ++ s)
  | comment {t s : List Char} (ht : '\n' ∉ t) (h : Readable ('\n' :: s)) :
      Readable ('/' :: '/' :: t ++ '\n' :: s)

/-- The text `s` can be read up to its character of index `k`, where neither a separator nor a
phrase begins. -/
structure StopsAt (s : List Char) (k : Nat) : Prop where
  lt : k < s.length
  readable : Readable (s.take k)
  not_separator : ∀ w t, s.drop k = w ++ t → ¬ Separator w t
  not_phrase : ∀ i w t, s.drop k = w ++ t → ¬ Phrase i w

/-- The text `s` begins with `w`, which is the opening of a change and all of the glyphs behind it,
one at least, and the closing marker does not follow. -/
def OpenRun (glyph close : Char) (s w : List Char) : Prop :=
  ∃ n t, 1 ≤ n ∧ w = "이구".toList ++ List.replicate n glyph ∧ s = w ++ t ∧
    t.head? ≠ some glyph ∧ t.head? ≠ some close

/-- What is shown of an unreadable text: a run of glyphs that is not closed, with its opening, and
of any other text the first character. -/
inductive Shows (s : List Char) : List Char → Prop
  | raise {w : List Char} (h : OpenRun '우' '욱' s w) : Shows s w
  | lower {w : List Char} (h : OpenRun '구' '국' s w) : Shows s w
  | single {c : Char} {t : List Char} (hs : s = c :: t) (hr : ∀ w, ¬ OpenRun '우' '욱' s w)
      (hl : ∀ w, ¬ OpenRun '구' '국' s w) : Shows s [c]

/-! ### Stopping -/

/-- No lexeme fits exactly where neither a separator nor a phrase begins. -/
theorem Lexeme.next?_eq_none_iff {s : List Char} : next? s = none ↔
    (∀ w t, s = w ++ t → ¬ Separator w t) ∧ ∀ i w t, s = w ++ t → ¬ Phrase i w := by
  constructor
  · intro h
    refine ⟨?_, ?_⟩
    · rintro w t rfl hw
      obtain ⟨l, hl, -⟩ := next?_of_separator hw
      exact absurd (h.symm.trans hl) nofun
    · rintro i w t rfl hw
      exact absurd (h.symm.trans (next?_of_phrase hw t)) nofun
  · rintro ⟨hsep, hphrase⟩
    by_contra hne
    obtain ⟨⟨l, t⟩, h⟩ := Option.ne_none_iff_exists'.1 hne
    have hs : s = l.spelling ++ t := (next?_spelling h).1.symm
    rcases grammar_of_next? h with ⟨-, hw⟩ | ⟨i, -, hw⟩
    · exact hsep _ _ hs hw
    · exact hphrase i _ _ hs hw

/-- What is readable spells instructions in front of any text. -/
theorem Readable.spells {u : List Char} (h : Readable u) :
    ∃ p, ∀ rest, Spells rest (u ++ rest) p := by
  induction h with
  | nil => exact ⟨[], fun rest => .done⟩
  | @blank c s hc _ ih =>
    obtain ⟨p, hp⟩ := ih
    refine ⟨p, fun rest => ?_⟩
    show Spells rest ([c] ++ (s ++ rest)) p
    exact .separator (.blank hc) (hp rest)
  | @phrase i w s hw _ ih =>
    obtain ⟨p, hp⟩ := ih
    refine ⟨i :: p, fun rest => ?_⟩
    rw [List.append_assoc]
    exact .phrase hw (hp rest)
  | @comment t s ht _ ih =>
    obtain ⟨p, hp⟩ := ih
    refine ⟨p, fun rest => ?_⟩
    rw [List.append_assoc]
    exact .separator (.comment ht (.inr ⟨s ++ rest, rfl⟩)) (hp rest)

/-- What is spelled in front of a text that no line break begins is readable: a comment in it
cannot reach up to its end. -/
theorem Spells.exists_readable {c : Char} {r s : List Char} {p : List Instruction}
    (hc : c ≠ '\n') (h : Spells (c :: r) s p) : ∃ u, s = u ++ c :: r ∧ Readable u := by
  induction h with
  | done => exact ⟨[], rfl, .nil⟩
  | phrase hw _ ih =>
    obtain ⟨u, rfl, hu⟩ := ih
    exact ⟨_ ++ u, (List.append_assoc ..).symm, .phrase hw hu⟩
  | separator hw _ ih =>
    obtain ⟨u, rfl, hu⟩ := ih
    cases hw with
    | blank hb => exact ⟨_ :: u, rfl, .blank hb hu⟩
    | @comment t _ ht hs =>
      -- What is behind the comment is not empty, so a line break ends the comment. It belongs to
      -- the readable part, for the rest begins with `c`.
      rcases hs with hnil | ⟨v, hv⟩
      · exact absurd hnil (by simp)
      · match u with
        | [] => exact absurd (List.cons.inj hv).1.symm hc
        | d :: u =>
          obtain rfl : '\n' = d := (List.cons.inj hv).1
          exact ⟨'/' :: '/' :: t ++ '\n' :: u, by simp, .comment ht hu⟩

/-- A text stops at `k` exactly when it is spelled up to there and no lexeme fits there. -/
theorem stopsAt_iff_spells {s : List Char} {k : Nat} : StopsAt s k ↔
    k < s.length ∧ next? (s.drop k) = none ∧ ∃ p, Spells (s.drop k) s p := by
  constructor
  · intro h
    obtain ⟨p, hp⟩ := h.readable.spells
    have hs := hp (s.drop k)
    rw [List.take_append_drop] at hs
    exact ⟨h.lt, next?_eq_none_iff.2 ⟨h.not_separator, h.not_phrase⟩, p, hs⟩
  · rintro ⟨hlt, hnext, p, hs⟩
    have hnone := next?_eq_none_iff.1 hnext
    have hdrop := List.drop_eq_getElem_cons hlt
    have hc : s[k] ≠ '\n' := by
      intro heq
      refine hnone.1 [s[k]] _ hdrop (.blank ?_)
      rw [heq]
      decide
    rw [hdrop] at hs
    obtain ⟨u, hu, hread⟩ := hs.exists_readable hc
    rw [← hdrop] at hu
    have htake : s.take k = u :=
      List.append_cancel_right ((List.take_append_drop k s).trans hu)
    exact ⟨hlt, htake ▸ hread, hnone.1, hnone.2⟩

theorem StopsAt.drop_ne_nil {s : List Char} {k : Nat} (h : StopsAt s k) : s.drop k ≠ [] := by
  rw [List.drop_eq_getElem_cons h.lt]
  exact List.cons_ne_nil _ _

/-- A text stops at one place at most. -/
theorem StopsAt.unique {s : List Char} {j k : Nat} (hj : StopsAt s j) (hk : StopsAt s k) :
    j = k := by
  obtain ⟨hj, hnj, p, hp⟩ := stopsAt_iff_spells.1 hj
  obtain ⟨hk, hnk, q, hq⟩ := stopsAt_iff_spells.1 hk
  have hrest : s.drop j = s.drop k := (hp.scan_eq hnj).2.symm.trans (hq.scan_eq hnk).2
  have hlen := congrArg List.length hrest
  rw [List.length_drop, List.length_drop] at hlen
  omega

/-! ### The place -/

/-- The column is one more than the number of characters since the last line break. -/
theorem Location.column_after_eq (s : List Char) :
    (Location.after s).column = 1 + (s.rtakeWhile (· ≠ '\n')).length := by
  have hfree : '\n' ∉ s.rtakeWhile (· ≠ '\n') := fun h => by
    simpa using List.mem_rtakeWhile_imp h
  have hlast : s.rdropWhile (· ≠ '\n') = [] ∨
      (s.rdropWhile (· ≠ '\n')).getLast? = some '\n' := by
    by_cases hnil : s.rdropWhile (· ≠ '\n') = []
    · exact .inl hnil
    · have hnot := List.rdropWhile_last_not (· ≠ '\n') s hnil
      exact .inr (by rw [List.getLast?_eq_some_getLast hnil]; simpa using hnot)
  have hsplit : s.rdropWhile (· ≠ '\n') ++ s.rtakeWhile (· ≠ '\n') = s :=
    List.rdropWhile_append_rtakeWhile ..
  have hcol := column_after hfree hlast
  rwa [hsplit] at hcol

/-! ### The text -/

/-- The glyphs behind the opening of a change form a run, which is closed or open. -/
theorem exists_run (glyph : Char) (t : List Char) : ∃ n r, 1 ≤ n ∧
    glyph :: t = List.replicate n glyph ++ r ∧ r.head? ≠ some glyph := by
  refine ⟨(t.takeWhile (· == glyph)).length + 1, t.dropWhile (· == glyph), by omega, ?_, ?_⟩
  · rw [List.replicate_succ, ← takeWhile_beq_eq_replicate, List.cons_append,
      List.takeWhile_append_dropWhile]
  · intro h
    have hnot := List.head?_dropWhile_not (· == glyph) t
    rw [h] at hnot
    simp at hnot

/-- The reader shows an open run with its opening. -/
theorem misfit_of_openRun (sign : Sign) {close : Char} {s w : List Char}
    (h : OpenRun sign.glyph close s w) : misfit s = w := by
  obtain ⟨n, t, hn, rfl, rfl, ht, -⟩ := h
  obtain ⟨n, rfl⟩ := Nat.exists_eq_add_of_le' hn
  have hrest : (List.replicate n sign.glyph ++ t).takeWhile (· == sign.glyph) =
      List.replicate n sign.glyph := by
    rw [List.takeWhile_append_of_pos (by simp)]
    match t, ht with
    | [], _ => simp
    | c :: t, ht => rw [List.takeWhile_cons_of_neg (by simpa using ht), List.append_nil]
  have hbody : Instruction.opening.isPrefixOf?
      ("이구".toList ++ List.replicate (n + 1) sign.glyph ++ t) =
        some (sign.glyph :: (List.replicate n sign.glyph ++ t)) := by
    rw [List.append_assoc, List.replicate_succ]
    exact isPrefixOf?_append ..
  have hglyph : sign.glyph = Sign.plus.glyph ∨ sign.glyph = Sign.minus.glyph := by
    cases sign
    · exact .inl rfl
    · exact .inr rfl
  simp only [misfit, hbody, if_pos hglyph, hrest]
  rfl

/-- The reader shows the first character of a text that does not begin with the opening of a
change and one of its glyphs. -/
theorem misfit_of_no_run {s : List Char}
    (h : ∀ (sign : Sign) t, s ≠ "이구".toList ++ sign.glyph :: t) : misfit s = s.take 1 := by
  unfold misfit
  split
  next c rest hs =>
    have heq : "이구".toList ++ c :: rest = s := append_of_isPrefixOf? hs
    rw [if_neg]
    rintro (rfl | rfl)
    · exact h .plus rest heq.symm
    · exact h .minus rest heq.symm
  next => rfl

/-- Where no phrase begins, the glyphs behind the opening of a change are an open run. -/
theorem exists_openRun {sign : Sign} {t : List Char}
    (h : next? ("이구".toList ++ sign.glyph :: t) = none) :
    ∃ w, OpenRun sign.glyph sign.close ("이구".toList ++ sign.glyph :: t) w := by
  obtain ⟨n, r, hn, hrun, hr⟩ := exists_run sign.glyph t
  refine ⟨_, n, r, hn, rfl, ?_, hr, ?_⟩
  · rw [hrun, List.append_assoc]
  · intro hclose
    obtain ⟨r, rfl⟩ : ∃ r', r = sign.close :: r' := List.head?_eq_some_iff.1 hclose
    have htext : "이구".toList ++ sign.glyph :: t = Instruction.changeText sign n ++ r := by
      rw [hrun, Instruction.changeText, List.append_assoc, List.append_assoc,
        List.singleton_append]
      rfl
    exact (next?_eq_none_iff.1 h).2 _ _ r htext
      (phrase_change_iff.2 ⟨String.toList_ofList.symm, n, hn, rfl⟩)

theorem shows_of_openRun {sign : Sign} {s w : List Char}
    (h : OpenRun sign.glyph sign.close s w) : Shows s w := by
  cases sign
  · exact .raise h
  · exact .lower h

theorem not_openRun_of_no_run (sign : Sign) {close : Char} {s : List Char}
    (h : ∀ (sign : Sign) t, s ≠ "이구".toList ++ sign.glyph :: t) (w : List Char) :
    ¬ OpenRun sign.glyph close s w := by
  rintro ⟨n, t, hn, rfl, rfl, -, -⟩
  obtain ⟨n, rfl⟩ := Nat.exists_eq_add_of_le' hn
  exact h sign (List.replicate n sign.glyph ++ t) (by rw [List.replicate_succ]; simp)

/-- Where no lexeme fits, the reader shows what is to be shown. -/
theorem shows_iff_misfit {s w : List Char} (h : next? s = none) (hne : s ≠ []) :
    Shows s w ↔ w = misfit s := by
  by_cases hrun : ∃ (sign : Sign) (t : List Char), s = "이구".toList ++ sign.glyph :: t
  · obtain ⟨sign, t, rfl⟩ := hrun
    obtain ⟨v, hv⟩ := exists_openRun h
    constructor
    · rintro (hw | hw | ⟨-, hr, hl⟩)
      · exact (misfit_of_openRun .plus hw).symm
      · exact (misfit_of_openRun .minus hw).symm
      · cases sign
        · exact absurd hv (hr v)
        · exact absurd hv (hl v)
    · rintro rfl
      rw [misfit_of_openRun sign hv]
      exact shows_of_openRun hv
  · have hno : ∀ (sign : Sign) t, s ≠ "이구".toList ++ sign.glyph :: t := by
      intro sign t hs
      exact hrun ⟨sign, t, hs⟩
    rw [misfit_of_no_run hno]
    constructor
    · rintro (hw | hw | ⟨rfl, -, -⟩)
      · exact absurd hw (not_openRun_of_no_run .plus hno w)
      · exact absurd hw (not_openRun_of_no_run .minus hno w)
      · rfl
    · rintro rfl
      obtain ⟨c, t, rfl⟩ := List.exists_cons_of_ne_nil hne
      exact .single rfl (not_openRun_of_no_run .plus hno)
        (not_openRun_of_no_run .minus hno)

/-- What is shown has no line break, unless the text begins with one. -/
theorem Shows.newline_notMem {s w : List Char} (h : Shows s w) (hs : s.head? ≠ some '\n') :
    '\n' ∉ w := by
  rcases h with h | h | ⟨rfl, -, -⟩
  · obtain ⟨n, t, -, rfl, -, -, -⟩ := h
    simp
  · obtain ⟨n, t, -, rfl, -, -, -⟩ := h
    simp
  · simpa [eq_comm] using hs

/-- What is shown is a beginning of the text, and not empty. -/
theorem Shows.isPrefix {s w : List Char} (h : Shows s w) : w <+: s ∧ w ≠ [] := by
  rcases h with h | h | ⟨rfl, -, -⟩
  · obtain ⟨n, t, -, rfl, rfl, -, -⟩ := h
    exact ⟨List.prefix_append .., by simp⟩
  · obtain ⟨n, t, -, rfl, rfl, -, -⟩ := h
    exact ⟨List.prefix_append .., by simp⟩
  · exact ⟨⟨_, rfl⟩, List.cons_ne_nil _ _⟩

namespace Program

/-! ### The report -/

/-- A text is reported at the place up to which it is spelled, if no lexeme fits there. -/
theorem parse_of_stop {source : String} {u rest : List Char} {p : List Instruction}
    (hs : Spells rest source.toList p) (hnext : next? rest = none) (hne : rest ≠ [])
    (hu : source.toList = u ++ rest) : parse source =
      .error (.unrecognized (Location.after u) (String.ofList (misfit rest))) := by
  obtain ⟨c, t, rfl⟩ := List.exists_cons_of_ne_nil hne
  have hstop : (scan source.toList).2 = c :: t := (hs.scan_eq hnext).2
  have hspelling := scan_spelling source.toList
  rw [hstop, hu] at hspelling
  rw [parse_of_scan_stop (Prod.ext rfl hstop), hu, List.append_cancel_right hspelling]

/-- A text that stops is reported at its stop. -/
theorem parse_of_stopsAt {source : String} {k : Nat} (h : StopsAt source.toList k) :
    parse source = .error (.unrecognized (Location.after (source.toList.take k))
      (String.ofList (misfit (source.toList.drop k)))) := by
  obtain ⟨-, hnext, p, hs⟩ := stopsAt_iff_spells.1 h
  exact parse_of_stop hs hnext h.drop_ne_nil (List.take_append_drop ..).symm

/-- A text that is reported as unreadable stops somewhere. -/
theorem exists_stopsAt {source : String} {place : Location} {text : String}
    (h : parse source = .error (.unrecognized place text)) : ∃ k, StopsAt source.toList k := by
  have hspells := spells_scan source.toList
  have hnext := next?_scan_rest source.toList
  have hsplit := scan_spelling source.toList
  generalize (scan source.toList).1.flatMap Lexeme.spelling = u at hsplit
  generalize (scan source.toList).2 = rest at hspells hnext hsplit
  have hne : rest ≠ [] := by
    rintro rfl
    exact parse_eq_unrecognized_iff.1 ⟨place, text, h⟩ _ hspells
  have hdrop : source.toList.drop u.length = rest := by rw [← hsplit, List.drop_left]
  refine ⟨u.length, stopsAt_iff_spells.2 ⟨?_, hdrop ▸ hnext, _, hdrop ▸ hspells⟩⟩
  have := List.length_pos_iff.2 hne
  rw [← hsplit, List.length_append]
  omega

/-- **The report of an unreadable text.** A text is reported as unreadable exactly when it stops
somewhere, whether or not there are instructions in front of the stop. The line is one more than
the number of line breaks in front of it, the column one more than the number of characters since
the last of them. The text shown begins at the stop, is not empty and has no line break; it is an
open run with its opening if there is one, and otherwise the first character. A text stops at one
place at most. -/
theorem parse_unrecognized_iff_stopsAt (source : String) :
    ((∃ place text, parse source = .error (.unrecognized place text)) ↔
      ∃ k, StopsAt source.toList k) ∧
    (∀ place text, parse source = .error (.unrecognized place text) ↔
      ∃ k, StopsAt source.toList k ∧
        place.line = 1 + (source.toList.take k).count '\n' ∧
        place.column = 1 + ((source.toList.take k).rtakeWhile (· ≠ '\n')).length ∧
        Shows (source.toList.drop k) text.toList) ∧
    (∀ j k, StopsAt source.toList j → StopsAt source.toList k → j = k) ∧
    ∀ k w, StopsAt source.toList k → Shows (source.toList.drop k) w →
      w <+: source.toList.drop k ∧ w ≠ [] ∧ '\n' ∉ w := by
  refine ⟨⟨?_, ?_⟩, fun place text => ⟨?_, ?_⟩, fun j k => StopsAt.unique, ?_⟩
  · rintro ⟨place, text, h⟩
    exact exists_stopsAt h
  · rintro ⟨k, hk⟩
    exact ⟨_, _, parse_of_stopsAt hk⟩
  · intro h
    obtain ⟨k, hk⟩ := exists_stopsAt h
    obtain ⟨-, hnext, -⟩ := stopsAt_iff_spells.1 hk
    rw [parse_of_stopsAt hk] at h
    cases h
    refine ⟨k, hk, Location.line_after _, Location.column_after_eq _, ?_⟩
    rw [shows_iff_misfit hnext hk.drop_ne_nil, String.toList_ofList]
  · rintro ⟨k, hk, hline, hcolumn, hshows⟩
    obtain ⟨-, hnext, -⟩ := stopsAt_iff_spells.1 hk
    rw [shows_iff_misfit hnext hk.drop_ne_nil] at hshows
    have hplace : place = Location.after (source.toList.take k) := by
      rw [← Location.line_after] at hline
      rw [← Location.column_after_eq] at hcolumn
      cases place
      exact congr (congrArg Location.mk hline) hcolumn
    rw [parse_of_stopsAt hk, ← hshows, String.ofList_toList, hplace]
  · intro k w hk hshows
    refine ⟨hshows.isPrefix.1, hshows.isPrefix.2, hshows.newline_notMem ?_⟩
    intro hbreak
    obtain ⟨t, ht⟩ := List.head?_eq_some_iff.1 hbreak
    exact hk.not_separator ['\n'] t ht (.blank (by decide))

end Program

end PhraseTape
