import PhraseTape.Console.Basic

/-!
# One line of any feed

A line is taken from whatever a reader delivers. The deliveries of a feed that neither end a line
nor fail are passed over, and their bytes are collected; then the line ends at a line feed, at an
empty piece, or with the feed, or the reader fails and what was collected is lost. The two relations
below say which bytes a line consists of, or which bytes are lost, and what is left of the feed.

## Main definitions

* `Delivery.Passing`, `Feed.Open` : deliveries that neither end a line nor fail.
* `Feed.HandsOut` : a line of a feed, and what is left behind it.
* `Feed.Breaks` : a failure before the end of a line, and what is left behind it.
* `Console.asked` : a console after a line was asked for.

## Main results

* `Feed.readLine_of_open_append` : open deliveries are collected.
* `Feed.handsOut_or_breaks` : a feed hands out a line or breaks.
* `Feed.readLine_eq_ok_iff`, `Feed.readLine_eq_error_iff` : reading a line, described by its bytes.
* `Feed.HandsOut.bytes_eq`, `Feed.Breaks.bytes_eq` : no byte is taken twice or passed over.
-/

namespace PhraseTape

/-- The delivery belongs to a line and does not end it: some bytes without a line feed, or an
interruption. -/
def Delivery.Passing : Delivery → Prop
  | .piece bytes => bytes ≠ [] ∧ lineFeed ∉ bytes
  | .failure e => e.isInterrupted = true

namespace Feed

/-- The deliveries belong to one line and do not end it. -/
def Open (feed : Feed) : Prop :=
  ∀ d ∈ feed, d.Passing

/-- The feed hands out a line, which ends with the feed, at an empty piece, or behind its first line
feed; the bytes of a piece behind the line are left. -/
inductive HandsOut : List UInt8 → Feed → Feed → Prop
  | exhausted {front : Feed} (h : front.Open) : HandsOut front.bytes front []
  | endOfInput {front : Feed} (h : front.Open) (feed : Feed) :
      HandsOut front.bytes (front ++ .piece [] :: feed) feed
  | ended {front : Feed} {line : List UInt8} (h : front.Open) (hline : lineFeed ∉ line)
      (rest : List UInt8) (feed : Feed) :
      HandsOut (front.bytes ++ line ++ [lineFeed])
        (front ++ .piece (line ++ lineFeed :: rest) :: feed) (putBack rest feed)

/-- The feed breaks before the end of a line: it fails, and the bytes that were delivered for the
line are lost. -/
inductive Breaks : List UInt8 → IoError → Feed → Feed → Prop
  | intro {front : Feed} {e : IoError} (h : front.Open) (he : e.isInterrupted = false)
      (feed : Feed) : Breaks front.bytes e (front ++ .failure e :: feed) feed

variable {feed front left : Feed} {line lost : List UInt8} {e : IoError}

theorem open_nil : Open [] :=
  nofun

theorem open_cons {d : Delivery} : Open (d :: feed) ↔ d.Passing ∧ Open feed :=
  List.forall_mem_cons

@[simp] theorem bytes_append (front feed : Feed) :
    Feed.bytes (front ++ feed) = front.bytes ++ feed.bytes := by
  induction front with
  | nil => rfl
  | cons d front ih => cases d <;> simp [Feed.bytes, ih]

/-! ### One delivery -/

theorem bne_lineFeed (h : lineFeed ∉ line) : ∀ b ∈ line, (b != lineFeed) = true :=
  fun _ hb => bne_iff_ne.2 fun heq => h (heq ▸ hb)

theorem readLine_failure (he : e.isInterrupted = false) (lost : List UInt8) (feed : Feed) :
    readLine lost (.failure e :: feed) = .error e feed := by
  rw [readLine, he]
  rfl

theorem readLine_lineFeed (h : lineFeed ∉ line) (collected rest : List UInt8) (feed : Feed) :
    readLine collected (.piece (line ++ lineFeed :: rest) :: feed) =
      .ok (collected ++ line ++ [lineFeed]) (putBack rest feed) := by
  have hne : (line ++ lineFeed :: rest).isEmpty = false := by simp
  have hline := bne_lineFeed h
  rw [readLine, hne, List.dropWhile_append_of_pos hline, List.takeWhile_append_of_pos hline,
    List.dropWhile_cons_of_neg (by simp), List.takeWhile_cons_of_neg (by simp), List.append_nil]
  rfl

/-- A delivery that does not pass ends the line or fails. -/
theorem exists_of_not_passing {d : Delivery} (h : ¬ d.Passing) :
    d = .piece [] ∨ (∃ line rest, d = .piece (line ++ lineFeed :: rest) ∧ lineFeed ∉ line) ∨
      ∃ e, d = .failure e ∧ e.isInterrupted = false := by
  cases d with
  | failure e => exact .inr (.inr ⟨e, rfl, eq_false_of_ne_true h⟩)
  | piece bytes =>
    by_cases hne : bytes = []
    · exact .inl (congrArg Delivery.piece hne)
    · have hmem : lineFeed ∈ bytes := Classical.not_not.1 fun hlf => h ⟨hne, hlf⟩
      obtain ⟨line, rest, rfl, hline⟩ := List.eq_append_cons_of_mem hmem
      exact .inr (.inl ⟨line, rest, rfl, hline⟩)

/-! ### A line -/

/-- Open deliveries are collected. -/
theorem readLine_of_open_append (h : front.Open) (collected : List UInt8) (feed : Feed) :
    readLine collected (front ++ feed) = readLine (collected ++ front.bytes) feed := by
  induction front generalizing collected with
  | nil => rw [Feed.bytes, List.append_nil, List.nil_append]
  | cons d front ih =>
    obtain ⟨hd, hfront⟩ := open_cons.1 h
    cases d with
    | failure e =>
      have he : e.isInterrupted = true := hd
      rw [List.cons_append, readLine, if_pos he, ih hfront, Feed.bytes]
    | piece bytes =>
      have hne : bytes.isEmpty = false := List.isEmpty_eq_false_iff.2 hd.1
      have hdrop : (bytes ++ []).dropWhile (· != lineFeed) = [] :=
        List.dropWhile_append_of_pos (bne_lineFeed hd.2)
      rw [List.append_nil] at hdrop
      rw [List.cons_append, readLine, hne, hdrop, Feed.bytes, ← List.append_assoc]
      exact ih hfront (collected ++ bytes)

/-- A feed is open, or open up to a delivery that does not pass. -/
theorem exists_open_append (feed : Feed) : feed.Open ∨
    ∃ (front : Feed) (d : Delivery) (behind : Feed),
      feed = front ++ d :: behind ∧ front.Open ∧ ¬ d.Passing := by
  induction feed with
  | nil => exact .inl open_nil
  | cons d feed ih =>
    by_cases hd : d.Passing
    · refine ih.imp (fun h => open_cons.2 ⟨hd, h⟩) ?_
      rintro ⟨front, d', behind, rfl, hfront, hd'⟩
      exact ⟨d :: front, d', behind, rfl, open_cons.2 ⟨hd, hfront⟩, hd'⟩
    · exact .inr ⟨[], d, feed, rfl, open_nil, hd⟩

/-- **A feed hands out a line or breaks.** -/
theorem handsOut_or_breaks (feed : Feed) :
    (∃ line left, HandsOut line feed left) ∨ ∃ lost e left, Breaks lost e feed left := by
  rcases exists_open_append feed with h | ⟨front, d, behind, rfl, h, hd⟩
  · exact .inl ⟨_, _, .exhausted h⟩
  rcases exists_of_not_passing hd with rfl | ⟨line, rest, rfl, hline⟩ | ⟨e, rfl, he⟩
  · exact .inl ⟨_, _, .endOfInput h behind⟩
  · exact .inl ⟨_, _, .ended h hline rest behind⟩
  · exact .inr ⟨_, _, _, .intro h he behind⟩

theorem HandsOut.readLine (h : HandsOut line feed left) : feed.readLine [] = .ok line left := by
  cases h with
  | exhausted h =>
    have hread := readLine_of_open_append h [] []
    rwa [List.append_nil, List.nil_append, Feed.readLine] at hread
  | endOfInput h feed =>
    rw [readLine_of_open_append h, List.nil_append, Feed.readLine]
    rfl
  | ended h hline rest feed =>
    rw [readLine_of_open_append h, List.nil_append, readLine_lineFeed hline]

theorem Breaks.readLine (h : Breaks lost e feed left) : feed.readLine [] = .error e left := by
  obtain ⟨h, he, feed⟩ := h
  rw [readLine_of_open_append h, List.nil_append, readLine_failure he]

/-- Reading succeeds exactly with the line that the feed hands out. -/
theorem readLine_eq_ok_iff : feed.readLine [] = .ok line left ↔ HandsOut line feed left := by
  refine ⟨fun h => ?_, HandsOut.readLine⟩
  rcases handsOut_or_breaks feed with ⟨line', left', h'⟩ | ⟨lost, e, left', h'⟩
  · rw [h'.readLine] at h
    cases h
    exact h'
  · rw [h'.readLine] at h
    cases h

/-- Reading fails exactly where the feed breaks. -/
theorem readLine_eq_error_iff :
    feed.readLine [] = .error e left ↔ ∃ lost, Breaks lost e feed left := by
  refine ⟨fun h => ?_, fun ⟨_, h⟩ => h.readLine⟩
  rcases handsOut_or_breaks feed with ⟨line', left', h'⟩ | ⟨lost, e', left', h'⟩
  · rw [h'.readLine] at h
    cases h
  · rw [h'.readLine] at h
    cases h
    exact ⟨lost, h'⟩

/-- The bytes of a line and those that are left are the bytes of the feed. -/
theorem HandsOut.bytes_eq (h : HandsOut line feed left) : feed.bytes = line ++ left.bytes := by
  cases h with
  | exhausted => rw [Feed.bytes, List.append_nil]
  | endOfInput => rw [bytes_append, Feed.bytes, List.nil_append]
  | ended => simp [Feed.bytes]

/-- The bytes that are lost and those that are left are the bytes of the feed. -/
theorem Breaks.bytes_eq (h : Breaks lost e feed left) : feed.bytes = lost ++ left.bytes := by
  obtain ⟨-, -, feed⟩ := h
  rw [bytes_append, Feed.bytes]

end Feed

/-! ### The console -/

namespace Console

/-- The console after it was asked for a line, with what is left of its feed. -/
def asked (left : Feed) (c : Console) : Console :=
  { c with feed := left, transcript := c.transcript.push .lineRequested }

variable {c : Console} {line lost : List UInt8} {e : IoError} {left : Feed}

@[simp] theorem output_asked (rest : Feed) (c : Console) : (c.asked rest).output = c.output := by
  simp only [output, asked, Transcript.output_push, Event.accepted, List.append_nil]

theorem readLine_of_handsOut (h : Feed.HandsOut line c.feed left) :
    c.readLine = .ok line (c.asked left) := by
  rw [readLine, h.readLine, asked]

theorem readLine_of_breaks (h : Feed.Breaks lost e c.feed left) :
    c.readLine = .error e (c.asked left) := by
  rw [readLine, h.readLine, asked]

end Console

end PhraseTape
