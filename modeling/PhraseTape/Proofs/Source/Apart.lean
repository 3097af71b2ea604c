import PhraseTape.Proofs.Source.Unreadable

/-!
# Text behind an unreadable text

A text that stops still stops at the same place, and the same part of it is shown, when more text is
put behind it that stands apart: nothing that has begun in front of it goes on in it. A text stands
apart if a blank is its first character and no phrase that has begun before ends in it. The blank
keeps a lone slash from opening a comment and a run of glyphs from growing; but some phrases have
blanks inside, so it does not keep a phrase from ending further on.

## Main definitions

* `Apart t` : nothing goes on from the text in front of `t` into `t`.

## Main results

* `apart_newline` : a line break and whatever is behind it stand apart.
* `Lexeme.next?_append`, `Lexeme.misfit_append` : where no lexeme fits, and what is shown there.
* `StopsAt.append`, `Program.parse_append_of_stopsAt` : the report of an unreadable text.
-/

namespace PhraseTape

open Lexeme

/-- Nothing that has begun in front of the text goes on in it: if it has a first character, that is
blank, and no phrase that has begun before has its end in it. -/
structure Apart (t : List Char) : Prop where
  blank : ∀ c ∈ t.head?, c ∈ [' ', '\t', '\r', '\n', '\x0c']
  phrase : ∀ {i : Instruction} {u v : List Char}, Phrase i (u ++ v) → v <+: t → v = []

/-- No phrase has a line break or a slash in it. -/
theorem Phrase.notMem {i : Instruction} {w : List Char} (h : Phrase i w) :
    '\n' ∉ w ∧ '/' ∉ w := by
  cases h with
  | raise _ h => rw [h]; simp
  | lower _ h => rw [h]; simp
  | _ => decide

/-- A line break and whatever is behind it stand apart, for no phrase has a line break. -/
theorem apart_newline (t : List Char) : Apart ('\n' :: t) where
  blank := by
    rintro c ⟨⟩
    decide
  phrase := by
    intro i u v hw hv
    match v with
    | [] => rfl
    | c :: v =>
      obtain ⟨rfl, -⟩ := List.cons_prefix_cons.1 hv
      exact absurd (by simp) hw.notMem.1

namespace Apart

variable {s t w r : List Char}

/-- A phrase that begins in front of a text that stands apart ends in front of it. -/
theorem exists_of_phrase (ht : Apart t) {i : Instruction} (hw : Phrase i w)
    (h : s ++ t = w ++ r) : ∃ v, s = w ++ v := by
  rcases List.append_eq_append_iff.1 h with ⟨v, rfl, hv⟩ | ⟨v, rfl, -⟩
  · obtain rfl := ht.phrase hw ⟨r, hv.symm⟩
    exact ⟨[], by simp⟩
  · exact ⟨v, rfl⟩

/-- A beginning without blanks ends in front of a text that stands apart. -/
theorem exists_of_forall_ne (ht : Apart t) (hw : ∀ c ∈ w, c ∉ [' ', '\t', '\r', '\n', '\x0c'])
    (h : s ++ t = w ++ r) : ∃ v, s = w ++ v ∧ r = v ++ t := by
  rcases List.append_eq_append_iff.1 h with ⟨v, rfl, hv⟩ | ⟨v, rfl, rfl⟩
  · match v with
    | [] => exact ⟨[], by simp, by simpa using hv.symm⟩
    | c :: v =>
      have hc := ht.blank c (by rw [hv]; rfl)
      exact absurd hc (hw c (by simp))
  · exact ⟨v, rfl, rfl⟩

end Apart

/-! ### Where no lexeme fits -/

/-- Where no lexeme fits, none fits with text behind it that stands apart. -/
theorem Lexeme.next?_append {s t : List Char} (h : next? s = none) (hne : s ≠ []) (ht : Apart t) :
    next? (s ++ t) = none := by
  obtain ⟨hsep, hphrase⟩ := next?_eq_none_iff.1 h
  refine next?_eq_none_iff.2 ⟨?_, ?_⟩
  · intro w r hr hw
    cases hw with
    | @blank c _ hc =>
      obtain ⟨d, s, rfl⟩ := List.exists_cons_of_ne_nil hne
      obtain rfl : d = c := (List.cons.inj hr).1
      exact hsep [d] s rfl (.blank hc)
    | comment hu hend =>
      -- Both slashes are in front of `t`, where a comment begins with them whatever is behind.
      obtain ⟨v, rfl, -⟩ := ht.exists_of_forall_ne (w := ['/', '/']) (by simp) hr
      exact absurd h nofun
  · intro i w r hr hw
    obtain ⟨v, rfl⟩ := ht.exists_of_phrase hw hr
    exact hphrase i w v rfl hw

theorem openRun_append_iff {glyph close : Char} {s t w : List Char} (ht : Apart t)
    (hglyph : glyph ∉ [' ', '\t', '\r', '\n', '\x0c'])
    (hclose : close ∉ [' ', '\t', '\r', '\n', '\x0c']) :
    OpenRun glyph close (s ++ t) w ↔ OpenRun glyph close s w := by
  constructor
  · rintro ⟨n, r, hn, rfl, hr, hg, hc⟩
    have hopening : ∀ c ∈ "이구".toList, c ∉ [' ', '\t', '\r', '\n', '\x0c'] := by simp
    have hw : ∀ c ∈ "이구".toList ++ List.replicate n glyph,
        c ∉ [' ', '\t', '\r', '\n', '\x0c'] := by
      intro c hc
      rcases List.mem_append.1 hc with hc | hc
      · exact hopening c hc
      · rwa [List.eq_of_mem_replicate hc]
    obtain ⟨v, rfl, rfl⟩ := ht.exists_of_forall_ne hw hr
    refine ⟨n, v, hn, rfl, rfl, ?_, ?_⟩
    · cases v
      · nofun
      · exact hg
    · cases v
      · nofun
      · exact hc
  · rintro ⟨n, r, hn, rfl, rfl, hg, hc⟩
    refine ⟨n, r ++ t, hn, rfl, List.append_assoc .., ?_, ?_⟩
    · cases r
      · exact fun hhead => hglyph (ht.blank glyph hhead)
      · exact hg
    · cases r
      · exact fun hhead => hclose (ht.blank close hhead)
      · exact hc

/-- What is shown of a text ends in front of a text that stands apart. -/
theorem Shows.append {s t w : List Char} (h : Shows s w) (ht : Apart t) : Shows (s ++ t) w := by
  have hraise : ∀ v, OpenRun '우' '욱' (s ++ t) v ↔ OpenRun '우' '욱' s v :=
    fun v => openRun_append_iff ht (by decide) (by decide)
  have hlower : ∀ v, OpenRun '구' '국' (s ++ t) v ↔ OpenRun '구' '국' s v :=
    fun v => openRun_append_iff ht (by decide) (by decide)
  rcases h with h | h | ⟨rfl, hr, hl⟩
  · exact .raise ((hraise w).2 h)
  · exact .lower ((hlower w).2 h)
  · refine .single rfl ?_ ?_
    · intro v hv
      exact hr v ((hraise v).1 hv)
    · intro v hv
      exact hl v ((hlower v).1 hv)

/-- What the reader shows of an unreadable text does not depend on text that stands apart. -/
theorem Lexeme.misfit_append {s t : List Char} (h : next? s = none) (hne : s ≠ [])
    (ht : Apart t) : misfit (s ++ t) = misfit s := by
  have hshows : Shows s (misfit s) := (shows_iff_misfit h hne).2 rfl
  exact ((shows_iff_misfit (next?_append h hne ht) (by simp [hne])).1 (hshows.append ht)).symm

/-! ### The report -/

/-- A text stops where it does also with text behind it that stands apart. -/
theorem StopsAt.append {s t : List Char} {k : Nat} (h : StopsAt s k) (ht : Apart t) :
    StopsAt (s ++ t) k := by
  have hdrop : (s ++ t).drop k = s.drop k ++ t := List.drop_append_of_le_length h.lt.le
  have hnone := next?_eq_none_iff.1
    (next?_append (stopsAt_iff_spells.1 h).2.1 h.drop_ne_nil ht)
  refine ⟨?_, ?_, ?_, ?_⟩
  · rw [List.length_append]
    exact Nat.lt_add_right _ h.lt
  · rw [List.take_append_of_le_length h.lt.le]
    exact h.readable
  · rw [hdrop]
    exact hnone.1
  · rw [hdrop]
    exact hnone.2

/-- An unreadable text is reported in the same way with text behind it that stands apart. -/
theorem Program.parse_append_of_stopsAt {source behind : String} {k : Nat}
    (h : StopsAt source.toList k) (ht : Apart behind.toList) :
    parse (source ++ behind) = parse source := by
  have hboth : StopsAt (source ++ behind).toList k := by
    rw [String.toList_append]
    exact h.append ht
  rw [parse_of_stopsAt hboth, parse_of_stopsAt h, String.toList_append,
    List.take_append_of_le_length h.lt.le, List.drop_append_of_le_length h.lt.le,
    misfit_append (stopsAt_iff_spells.1 h).2.1 h.drop_ne_nil ht]

end PhraseTape
