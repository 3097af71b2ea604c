import PhraseTape.Source.Parse

/-!
# The grammar of source texts

A source text is made of separators and phrases, in any order and without anything between them.
A separator is a blank or a comment, and a comment reaches to the end of its line. The relation
`Spells` says this without reading from left to right and without a choice of the longest lexeme.
Reading finds the only way in which a text is spelled, because a lexeme that fits is the only one
that does: the phrases form a code in which no phrase begins another text of the language.

## Main definitions

* `Phrase i w` : the instruction `i` is written `w`.
* `Separator w s` : `w` separates, in front of the text `s`.
* `Spells rest s p` : `s` consists of separators and of the phrases of `p`, in front of `rest`.
* `IsTrivia` : a line without instructions.

## Main results

* `Lexeme.next?_of_phrase`, `Lexeme.next?_of_separator` : what is written is read.
* `Spells.scan_eq`, `spells_scan` : reading a whole text against the grammar.
* `spells_nil_iff_lines` : the texts without instructions, line by line.
* `Program.parse_iff_spells` : which texts are programs, which are empty, and which are neither.
-/

namespace PhraseTape

/-- The phrases of the instructions: six fixed texts, and the two families of changes. -/
inductive Phrase : Instruction → List Char → Prop
  | raise {text : String} {n : Nat} (hn : 1 ≤ n)
      (h : text.toList = "이구".toList ++ List.replicate n '우' ++ "욱".toList) :
      Phrase (.change .plus text) text.toList
  | lower {text : String} {n : Nat} (hn : 1 ≤ n)
      (h : text.toList = "이구".toList ++ List.replicate n '구' ++ "국".toList) :
      Phrase (.change .minus text) text.toList
  | right : Phrase .right "고수?".toList
  | left : Phrase .left "하-".toList
  | loopStart : Phrase .loopStart "신".toList
  | loopEnd : Phrase .loopEnd "킹갓 충무공 제너럴".toList
  | read : Phrase .read "이국 왤캐 고수임?".toList
  | print : Phrase .print "이국이 처럼 살고싶다.".toList

/-- The separators in front of a text: single blanks, and comments that end with their line. -/
inductive Separator : List Char → List Char → Prop
  | blank {c : Char} {s : List Char} (hc : c ∈ [' ', '\t', '\r', '\n', '\x0c']) : Separator [c] s
  | comment {t s : List Char} (ht : '\n' ∉ t) (hs : s = [] ∨ ['\n'] <+: s) :
      Separator ('/' :: '/' :: t) s

/-- The text consists of separators and of the phrases of the given instructions, in order, and
of `rest` behind them. -/
inductive Spells (rest : List Char) : List Char → List Instruction → Prop
  | done : Spells rest rest []
  | separator {w s : List Char} {p : List Instruction} (hw : Separator w s)
      (hs : Spells rest s p) : Spells rest (w ++ s) p
  | phrase {i : Instruction} {w s : List Char} {p : List Instruction} (hw : Phrase i w)
      (hs : Spells rest s p) : Spells rest (w ++ s) (i :: p)

/-- A line without instructions: blanks, and a comment if there is one. -/
def IsTrivia (line : List Char) : Prop :=
  ∃ blanks comment, line = blanks ++ comment ∧ (∀ c ∈ blanks, c ∈ [' ', '\t', '\r', '\x0c']) ∧
    (comment = [] ∨ ['/', '/'] <+: comment)

/-! ### Phrases -/

/-- A phrase is the text of its instruction. -/
theorem Phrase.eq_text {i : Instruction} {w : List Char} (h : Phrase i w) : w = i.text.toList := by
  cases h <;> rfl

/-- The phrases of a change are its opening, at least one glyph and its closing marker. -/
theorem phrase_change_iff {sign : Sign} {text : String} {w : List Char} :
    Phrase (.change sign text) w ↔
      w = text.toList ∧ ∃ n, 1 ≤ n ∧ text = String.ofList (Instruction.changeText sign n) := by
  constructor
  · intro h
    cases h with
    | raise hn h => exact ⟨rfl, _, hn, by rw [← String.ofList_toList (s := text), h]; rfl⟩
    | lower hn h => exact ⟨rfl, _, hn, by rw [← String.ofList_toList (s := text), h]; rfl⟩
  · rintro ⟨rfl, n, hn, rfl⟩
    cases sign with
    | plus => exact .raise hn (by rw [String.toList_ofList]; rfl)
    | minus => exact .lower hn (by rw [String.toList_ofList]; rfl)

theorem phrase_of_mem_fixed {i : Instruction} (h : i ∈ Instruction.fixed) :
    Phrase i i.text.toList := by
  simp only [Instruction.fixed, List.mem_cons, List.not_mem_nil, or_false] at h
  rcases h with rfl | rfl | rfl | rfl | rfl | rfl
  · exact .right
  · exact .left
  · exact .loopStart
  · exact .loopEnd
  · exact .read
  · exact .print

namespace Lexeme

/-! ### What is written is read -/

@[simp] theorem instruction?_phrase (i : Instruction) : (phrase i).instruction? = some i :=
  rfl

theorem isBlank_iff {c : Char} : isBlank c = true ↔ c ∈ [' ', '\t', '\r', '\n', '\x0c'] := by
  simp [isBlank, or_assoc]

/-- The glyphs of a change are read up to its closing marker. -/
theorem change?_changeText {sign : Sign} {n : Nat} (hn : 1 ≤ n) (s : List Char) :
    change? sign (Instruction.changeText sign n ++ s) =
      some (.phrase (.change sign (String.ofList (Instruction.changeText sign n))), s) := by
  obtain ⟨n, rfl⟩ := Nat.exists_eq_add_of_le' hn
  have hglyph : ∀ c ∈ List.replicate (n + 1) sign.glyph, (c == sign.glyph) = true := by
    simp
  have hclose : (sign.close == sign.glyph) = false := by cases sign <;> decide
  have hbody : Instruction.opening.isPrefixOf? (Instruction.changeText sign (n + 1) ++ s) =
      some (List.replicate (n + 1) sign.glyph ++ sign.close :: s) := by
    rw [Instruction.changeText, List.append_assoc, List.append_assoc]
    exact isPrefixOf?_append ..
  have htake : (List.replicate (n + 1) sign.glyph ++ sign.close :: s).takeWhile
      (· == sign.glyph) = sign.glyph :: List.replicate n sign.glyph := by
    rw [List.takeWhile_append_of_pos hglyph, List.takeWhile_cons_of_neg (by simp [hclose]),
      List.append_nil, List.replicate_succ]
  have hdrop : (List.replicate (n + 1) sign.glyph ++ sign.close :: s).dropWhile
      (· == sign.glyph) = sign.close :: s := by
    rw [List.dropWhile_append_of_pos hglyph, List.dropWhile_cons_of_neg (by simp [hclose])]
  simp only [change?, hbody, htake, hdrop, List.length_replicate, if_true]

/-- A change in the other direction does not fit. -/
theorem change?_plus_changeText_minus {n : Nat} (hn : 1 ≤ n) (s : List Char) :
    change? .plus (Instruction.changeText .minus n ++ s) = none := by
  obtain ⟨n, rfl⟩ := Nat.exists_eq_add_of_le' hn
  rfl

/-- Only the readers of changes take a text that begins with the opening of a change. -/
theorem next?_opening (s : List Char) : next? (Instruction.opening ++ s) =
    (change? .plus (Instruction.opening ++ s)).or (change? .minus (Instruction.opening ++ s)) := by
  have hblank : blank? (Instruction.opening ++ s) = none := rfl
  have hcomment : comment? (Instruction.opening ++ s) = none := rfl
  have hfixed : fixed? (Instruction.opening ++ s) = none := rfl
  simp only [next?, readers, List.findSome?_cons, List.findSome?_nil, hblank, hcomment, hfixed]
  cases change? .plus (Instruction.opening ++ s) with
  | none => cases change? .minus (Instruction.opening ++ s) <;> rfl
  | some r => rfl

/-- A phrase in front of any text is read as its instruction. -/
theorem next?_of_phrase {i : Instruction} {w : List Char} (h : Phrase i w) (s : List Char) :
    next? (w ++ s) = some (.phrase i, s) := by
  cases i with
  | change sign text =>
    obtain ⟨rfl, n, hn, rfl⟩ := phrase_change_iff.1 h
    have hnext : next? (Instruction.changeText sign n ++ s) =
        (change? .plus (Instruction.changeText sign n ++ s)).or
          (change? .minus (Instruction.changeText sign n ++ s)) := next?_opening _
    rw [String.toList_ofList, hnext]
    cases sign with
    | plus => rw [change?_changeText hn, Option.some_or]
    | minus => rw [change?_changeText hn, change?_plus_changeText_minus hn, Option.none_or]
  | right => cases h; rfl
  | left => cases h; rfl
  | loopStart => cases h; rfl
  | loopEnd => cases h; rfl
  | read => cases h; rfl
  | print => cases h; rfl

/-- A separator in front of the text it ends before is read as something that is no phrase. -/
theorem next?_of_separator {w s : List Char} (h : Separator w s) :
    ∃ l, next? (w ++ s) = some (l, s) ∧ l.instruction? = none := by
  cases h with
  | @blank c _ hc =>
    refine ⟨.blank c, ?_, rfl⟩
    have hb : blank? ([c] ++ s) = some (.blank c, s) := by
      rw [List.singleton_append, blank?, if_pos (isBlank_iff.2 hc)]
    rw [next?, readers, List.findSome?_cons, hb]
  | @comment t _ ht hs =>
    refine ⟨.comment t, ?_, rfl⟩
    have hne : ∀ c ∈ t, (c != '\n') = true := fun c hc => by
      simpa using ne_of_mem_of_not_mem hc ht
    have hstop : s.takeWhile (· != '\n') = [] ∧ s.dropWhile (· != '\n') = s := by
      rcases hs with rfl | ⟨s, rfl⟩ <;> exact ⟨rfl, rfl⟩
    have hc : comment? ('/' :: '/' :: t ++ s) = some (.comment t, s) := by
      rw [List.cons_append, List.cons_append, comment?, List.takeWhile_append_of_pos hne,
        List.dropWhile_append_of_pos hne, hstop.1, hstop.2, List.append_nil]
    rw [next?, readers, List.findSome?_cons, List.findSome?_cons, hc]
    rfl

/-! ### What is read is written -/

theorem separator_of_blank? {t s : List Char} {l : Lexeme} (h : blank? t = some (l, s)) :
    l.instruction? = none ∧ Separator l.spelling s := by
  cases t with
  | nil => cases h
  | cons c t =>
    rw [blank?] at h
    split at h
    next hc =>
      cases h
      exact ⟨rfl, .blank (isBlank_iff.1 hc)⟩
    next => cases h

theorem separator_of_comment? {t s : List Char} {l : Lexeme} (h : comment? t = some (l, s)) :
    l.instruction? = none ∧ Separator l.spelling s := by
  unfold comment? at h
  split at h
  next t =>
    cases h
    refine ⟨rfl, .comment (fun hmem => ?_) ?_⟩
    · simpa using List.all_eq_true.1 List.all_takeWhile _ hmem
    · have hhead := List.head?_dropWhile_not (· != '\n') t
      cases hd : t.dropWhile (· != '\n') with
      | nil => exact .inl rfl
      | cons c r =>
        rw [hd] at hhead
        obtain rfl : c = '\n' := by simpa using hhead
        exact .inr ⟨r, rfl⟩
  next => cases h

theorem phrase_of_fixed? {t s : List Char} {l : Lexeme} (h : fixed? t = some (l, s)) :
    ∃ i, l = .phrase i ∧ Phrase i l.spelling := by
  obtain ⟨i, hi, h⟩ := List.exists_of_findSome?_eq_some h
  obtain ⟨r, -, h⟩ := Option.map_eq_some_iff.1 h
  cases h
  exact ⟨i, rfl, phrase_of_mem_fixed hi⟩

theorem phrase_of_change? {sign : Sign} {t s : List Char} {l : Lexeme}
    (h : change? sign t = some (l, s)) : ∃ i, l = .phrase i ∧ Phrase i l.spelling := by
  unfold change? at h
  split at h
  next => cases h
  next body _ =>
    split at h
    next g run c tail _ _ =>
      split at h
      next =>
        cases h
        exact ⟨_, rfl, phrase_change_iff.2 ⟨rfl, run.length + 1, by omega, rfl⟩⟩
      next => cases h
    next => cases h

/-- A lexeme that is read is a separator or a phrase of the grammar. -/
theorem grammar_of_next? {t s : List Char} {l : Lexeme} (h : next? t = some (l, s)) :
    (l.instruction? = none ∧ Separator l.spelling s) ∨
      ∃ i, l = .phrase i ∧ Phrase i l.spelling := by
  obtain ⟨reader, hr, h⟩ := List.exists_of_findSome?_eq_some h
  simp only [readers, List.mem_cons, List.not_mem_nil, or_false] at hr
  rcases hr with rfl | rfl | rfl | rfl | rfl
  · exact .inl (separator_of_blank? h)
  · exact .inl (separator_of_comment? h)
  · exact .inr (phrase_of_fixed? h)
  · exact .inr (phrase_of_change? h)
  · exact .inr (phrase_of_change? h)

end Lexeme

/-! ### Whole texts -/

open Lexeme

/-- The lexemes that are read spell the text up to where reading stops. -/
theorem spells_scan (s : List Char) :
    Spells (scan s).2 s ((scan s).1.filterMap instruction?) := by
  cases h : next? s with
  | none =>
    rw [scan_of_next?_eq_none h]
    exact .done
  | some r =>
    obtain ⟨l, t⟩ := r
    have ih := spells_scan t
    rw [scan_of_next?_eq_some h, ← (next?_spelling h).1]
    rcases grammar_of_next? h with ⟨hl, hsep⟩ | ⟨i, rfl, hphrase⟩
    · rw [List.filterMap_cons_none hl]
      exact .separator hsep ih
    · rw [List.filterMap_cons_some (instruction?_phrase i)]
      exact .phrase hphrase ih
termination_by s.length
decreasing_by exact length_lt_of_next? h

/-- A text that is spelled up to a place where no lexeme fits is read up to that place, as the
instructions that it spells. -/
theorem Spells.scan_eq {rest s : List Char} {p : List Instruction} (h : Spells rest s p)
    (hrest : next? rest = none) :
    (scan s).1.filterMap instruction? = p ∧ (scan s).2 = rest := by
  induction h with
  | done =>
    rw [scan_of_next?_eq_none hrest]
    exact ⟨rfl, rfl⟩
  | separator hw _ ih =>
    obtain ⟨l, hl, hi⟩ := next?_of_separator hw
    rw [scan_of_next?_eq_some hl, List.filterMap_cons_none hi]
    exact ih
  | phrase hw _ ih =>
    rw [scan_of_next?_eq_some (next?_of_phrase hw _),
      List.filterMap_cons_some (instruction?_phrase _), ih.1]
    exact ⟨rfl, ih.2⟩

theorem next?_nil : next? [] = none :=
  rfl

/-- A text is read whole exactly when it is spelled whole, and as the instructions it spells. -/
theorem spells_iff_scan {s : List Char} {p : List Instruction} :
    Spells [] s p ↔ (scan s).1.filterMap instruction? = p ∧ (scan s).2 = [] := by
  constructor
  · exact fun h => h.scan_eq next?_nil
  · rintro ⟨rfl, hstop⟩
    simpa only [hstop] using spells_scan s

/-- No text is spelled in two ways. -/
theorem Spells.unique {s : List Char} {p q : List Instruction} (hp : Spells [] s p)
    (hq : Spells [] s q) : p = q :=
  (spells_iff_scan.1 hp).1.symm.trans (spells_iff_scan.1 hq).1

/-! ### Lines without instructions -/

/-- The blanks are the line break and the characters that are blank inside a line. -/
theorem mem_blanks_iff {c : Char} :
    c ∈ [' ', '\t', '\r', '\n', '\x0c'] ↔ c = '\n' ∨ c ∈ [' ', '\t', '\r', '\x0c'] := by
  simp only [List.mem_cons, List.not_mem_nil, or_false]
  grind

/-- A line without instructions can stand in front of a line break and at the end of a text. -/
theorem Spells.trivia {rest s w : List Char} {p : List Instruction} (hw : IsTrivia w)
    (hline : '\n' ∉ w) (hs : s = [] ∨ ['\n'] <+: s) (h : Spells rest s p) :
    Spells rest (w ++ s) p := by
  obtain ⟨blanks, comment, rfl, hblanks, hcomment⟩ := hw
  have hc : Spells rest (comment ++ s) p := by
    rcases hcomment with rfl | ⟨t, rfl⟩
    · exact h
    · exact .separator (.comment (fun ht => hline (by simpa using .inr ht)) hs) h
  clear hcomment hline
  induction blanks with
  | nil => exact hc
  | cons c blanks ih =>
    obtain ⟨hc', hblanks⟩ := List.forall_mem_cons.1 hblanks
    have hsep : Separator [c] (blanks ++ comment ++ s) := .blank (mem_blanks_iff.2 (.inr hc'))
    have hcons := Spells.separator hsep (ih hblanks)
    exact hcons

theorem isTrivia_nil : IsTrivia [] :=
  ⟨[], [], rfl, nofun, .inl rfl⟩

theorem isTrivia_comment (t : List Char) : IsTrivia ('/' :: '/' :: t) :=
  ⟨[], '/' :: '/' :: t, rfl, nofun, .inr ⟨t, rfl⟩⟩

theorem IsTrivia.cons {c : Char} {w : List Char} (hc : c ∈ [' ', '\t', '\r', '\x0c'])
    (h : IsTrivia w) : IsTrivia (c :: w) := by
  obtain ⟨blanks, comment, rfl, hblanks, hcomment⟩ := h
  exact ⟨c :: blanks, comment, rfl, List.forall_mem_cons.2 ⟨hc, hblanks⟩, hcomment⟩

/-- A text of separators alone has no instruction on any of its lines. -/
theorem Spells.isTrivia_of_mem_lines {s : List Char} (h : Spells [] s []) :
    ∀ line ∈ s.splitOn '\n', IsTrivia line := by
  generalize hp : ([] : List Instruction) = p at h
  induction h with
  | done => simpa using isTrivia_nil
  | phrase => cases hp
  | @separator w s p hw _ ih =>
    have ih := ih hp
    cases hw with
    | @blank c _ hc =>
      obtain ⟨line, lines, hl⟩ := List.exists_cons_of_ne_nil (List.splitOn_ne_nil '\n' s)
      rw [hl, List.forall_mem_cons] at ih
      rw [List.singleton_append, List.splitOn_cons_eq_if_modifyHead, hl]
      split
      next => exact List.forall_mem_cons.2 ⟨isTrivia_nil, List.forall_mem_cons.2 ih⟩
      next hne =>
        have hc := (mem_blanks_iff.1 hc).resolve_left (by simpa using hne)
        exact List.forall_mem_cons.2 ⟨ih.1.cons hc, ih.2⟩
    | @comment t _ ht hs =>
      have hnot : '\n' ∉ '/' :: '/' :: t := by simpa using ht
      rcases hs with rfl | ⟨s, rfl⟩
      · rw [List.append_nil, List.splitOn_eq_singleton hnot]
        simpa using isTrivia_comment t
      · rw [List.singleton_append, List.splitOn_append_cons_self_of_not_mem hnot]
        refine List.forall_mem_cons.2 ⟨isTrivia_comment t, fun line hline => ih line ?_⟩
        rw [List.singleton_append, List.splitOn_cons_eq_if_modifyHead]
        exact List.mem_cons_of_mem _ hline

/-- The texts without instructions are those in which every line has none. -/
theorem spells_nil_iff_lines {s : List Char} :
    Spells [] s [] ↔ ∀ line ∈ s.splitOn '\n', IsTrivia line := by
  refine ⟨Spells.isTrivia_of_mem_lines, fun h => ?_⟩
  by_cases hmem : '\n' ∈ s
  · obtain ⟨line, t, rfl, hline⟩ := List.eq_append_cons_of_mem hmem
    rw [List.splitOn_append_cons_self_of_not_mem hline, List.forall_mem_cons] at h
    have ht : Spells [] ('\n' :: t) [] :=
      .separator (w := ['\n']) (.blank (by decide)) (spells_nil_iff_lines.2 h.2)
    exact ht.trivia h.1 hline (.inr ⟨t, rfl⟩)
  · rw [List.splitOn_eq_singleton hmem] at h
    have hs : Spells [] (s ++ []) [] :=
      Spells.done.trivia (h s List.mem_cons_self) hmem (.inl rfl)
    rwa [List.append_nil] at hs
termination_by s.length

namespace Program

/-! ### Programs -/

/-- A text that is spelled whole is the program it spells, if it spells any instruction. -/
theorem parse_of_spells {source : String} {p : List Instruction}
    (h : Spells [] source.toList p) :
    parse source = if p = [] then .error .emptyProgram else .ok p.toArray := by
  obtain ⟨hp, hstop⟩ := spells_iff_scan.1 h
  have hscan : scan source.toList = ((scan source.toList).1, []) := Prod.ext rfl hstop
  rw [parse_of_scan_eq hscan, hp]

/-- A text that is not spelled whole is reported at the place where reading stops. -/
theorem parse_of_not_spells {source : String} (h : ∀ p, ¬ Spells [] source.toList p) :
    ∃ place text, parse source = .error (.unrecognized place text) := by
  cases hstop : (scan source.toList).2 with
  | nil => exact absurd (spells_iff_scan.2 ⟨rfl, hstop⟩) (h _)
  | cons c rest => exact ⟨_, _, parse_of_scan_stop (Prod.ext rfl hstop)⟩

/-- A text is a program exactly when it spells the instructions of the program, and some. -/
theorem parse_eq_ok_iff {source : String} {p : Program} :
    parse source = .ok p ↔ p ≠ #[] ∧ Spells [] source.toList p.toList := by
  by_cases h : ∃ q, Spells [] source.toList q
  · obtain ⟨q, hq⟩ := h
    rw [parse_of_spells hq]
    constructor
    · intro heq
      split at heq
      next => cases heq
      next hne =>
        cases heq
        exact ⟨by simpa using hne, hq⟩
    · rintro ⟨hne, hp⟩
      obtain rfl := hp.unique hq
      rw [if_neg (by simpa using hne)]
  · obtain ⟨place, text, he⟩ := parse_of_not_spells (not_exists.1 h)
    rw [he]
    exact ⟨nofun, fun hp => absurd ⟨_, hp.2⟩ h⟩

/-- A text is the empty program exactly when it spells no instruction. -/
theorem parse_eq_emptyProgram_iff {source : String} :
    parse source = .error .emptyProgram ↔ Spells [] source.toList [] := by
  constructor
  · intro heq
    by_cases h : ∃ q, Spells [] source.toList q
    · obtain ⟨q, hq⟩ := h
      rw [parse_of_spells hq] at heq
      split at heq
      next hnil => rwa [hnil] at hq
      next => cases heq
    · obtain ⟨place, text, he⟩ := parse_of_not_spells (not_exists.1 h)
      rw [he] at heq
      cases heq
  · intro h
    rw [parse_of_spells h, if_pos rfl]

/-- A text is reported as unreadable exactly when it spells nothing at all. -/
theorem parse_eq_unrecognized_iff {source : String} :
    (∃ place text, parse source = .error (.unrecognized place text)) ↔
      ∀ p, ¬ Spells [] source.toList p := by
  constructor
  · rintro ⟨place, text, he⟩ p hp
    rw [parse_of_spells hp] at he
    split at he <;> cases he
  · exact parse_of_not_spells

/-- **The language of source texts.** A text is the program `p` if it is a concatenation of
separators and phrases whose phrases are those of `p`, in order, and there is one; it is the empty
program if it is a concatenation of separators alone, that is, if every one of its lines consists
of blanks and at most a comment; and it is unreadable in every other case. What a text spells is
determined by the text. -/
theorem parse_iff_spells (source : String) :
    (∀ p : Program, parse source = .ok p ↔ p ≠ #[] ∧ Spells [] source.toList p.toList) ∧
    (parse source = .error .emptyProgram ↔ Spells [] source.toList []) ∧
    (Spells [] source.toList [] ↔ ∀ line ∈ source.toList.splitOn '\n', IsTrivia line) ∧
    ((∃ place text, parse source = .error (.unrecognized place text)) ↔
      ∀ p, ¬ Spells [] source.toList p) ∧
    ∀ p q, Spells [] source.toList p → Spells [] source.toList q → p = q :=
  ⟨fun _ => parse_eq_ok_iff, parse_eq_emptyProgram_iff, spells_nil_iff_lines,
    parse_eq_unrecognized_iff, fun _ _ hp hq => hp.unique hq⟩

end Program

end PhraseTape
