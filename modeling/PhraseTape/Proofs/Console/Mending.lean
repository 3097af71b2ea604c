import Mathlib.Data.List.DropRight
import PhraseTape.Proofs.Console.Reading

/-!
# A feed without its failures

When a reader fails inside a line, the bytes that it had delivered for the line are lost, and the
next line begins behind the failure. So the lines that can still be read are those of a feed from
which the failure and these bytes are deleted: every line that was complete before the failure is
there, and everything behind it.

## Main definitions

* `Feed.failures` : the number of failures of a feed that are no interruptions.
* `Feed.breaks` : whether a failure comes before the end of the line.
* `Feed.mend` : a feed without its first failures and the bytes that are lost with them.

## Main results

* `Feed.mend_of_handsOut` : a mended feed hands out the lines of the feed.
* `Feed.mend_of_breaks` : where the feed breaks, the mended feed goes on with what is left.
-/

namespace PhraseTape

/-- The delivery is a failure that is reported. -/
def Delivery.isFatal : Delivery → Bool
  | .piece _ => false
  | .failure e => !e.isInterrupted

namespace Feed

/-- The number of failures that are reported. -/
def failures (feed : Feed) : Nat :=
  feed.countP Delivery.isFatal

/-- Whether a line that goes on with the feed is broken by a failure before it ends. -/
def breaks : Feed → Bool
  | [] => false
  | .failure e :: feed => if e.isInterrupted then breaks feed else true
  | .piece bytes :: feed =>
    if bytes = [] ∨ lineFeed ∈ bytes then false else breaks feed

/-- The bytes of whole lines, up to and with the last line feed. -/
def wholeLines (bytes : List UInt8) : List UInt8 :=
  bytes.rdropWhile (· != lineFeed)

/-- The feed without its first `k` failures. With each of them the bytes are deleted that are
delivered for the line that it breaks; a piece of which nothing is left is deleted as a whole. -/
def mend : Nat → Feed → Feed
  | 0, feed => feed
  | _ + 1, [] => []
  | k + 1, .failure e :: feed =>
    if e.isInterrupted then .failure e :: mend (k + 1) feed else mend k feed
  | k + 1, .piece bytes :: feed =>
    if bytes = [] then .piece [] :: mend (k + 1) feed
    else putBack (if breaks feed then wholeLines bytes else bytes) (mend (k + 1) feed)

variable {feed left : Feed} {d : Delivery} {line lost bytes : List UInt8} {e : IoError} {k : Nat}

/-! ### One delivery -/

theorem wholeLines_of_notMem (h : lineFeed ∉ bytes) : wholeLines bytes = [] :=
  List.rdropWhile_eq_nil_iff.2 (bne_lineFeed h)

theorem wholeLines_lineFeed (line rest : List UInt8) :
    wholeLines (line ++ lineFeed :: rest) = line ++ lineFeed :: wholeLines rest := by
  induction rest using List.reverseRecOn with
  | nil => exact List.rdropWhile_concat_neg _ _ _ (by simp)
  | append_singleton rest b ih =>
    have hassoc : line ++ lineFeed :: (rest ++ [b]) = line ++ lineFeed :: rest ++ [b] := by simp
    simp only [wholeLines] at ih ⊢
    rw [hassoc, List.rdropWhile_concat, List.rdropWhile_concat]
    split
    · exact ih
    · simp

theorem readLine_cons_of_passing (h : d.Passing) (collected : List UInt8) (feed : Feed) :
    readLine collected (d :: feed) = readLine (collected ++ Feed.bytes [d]) feed :=
  readLine_of_open_append (open_cons.2 ⟨h, open_nil⟩) collected feed

theorem breaks_cons_of_passing (h : d.Passing) (feed : Feed) :
    breaks (d :: feed) = breaks feed := by
  cases d with
  | failure e =>
    have he : e.isInterrupted = true := h
    rw [breaks, if_pos he]
  | piece bytes => rw [breaks, if_neg (not_or.2 h)]

/-- A line is broken exactly if it cannot be read, whatever was collected for it before. -/
theorem breaks_eq_true_iff (collected : List UInt8) (feed : Feed) :
    feed.breaks = true ↔ ∃ e left, readLine collected feed = .error e left := by
  induction feed generalizing collected with
  | nil => simp [breaks, readLine]
  | cons d feed ih =>
    by_cases hd : d.Passing
    · rw [breaks_cons_of_passing hd, readLine_cons_of_passing hd, ih]
    rcases exists_of_not_passing hd with rfl | ⟨line, rest, rfl, hline⟩ | ⟨e, rfl, he⟩
    · simp [breaks, readLine]
    · rw [readLine_lineFeed hline]
      simp [breaks]
    · rw [readLine_failure he, breaks, he]
      exact ⟨fun _ => ⟨e, feed, rfl⟩, fun _ => rfl⟩

/-! ### One delivery of a mended feed -/

@[simp] theorem mend_zero (feed : Feed) : mend 0 feed = feed := by
  rw [mend]

/-- What belongs to a line that is not broken is left as it is. -/
theorem mend_cons_of_passing (hd : d.Passing) (h : feed.breaks = false) :
    mend k (d :: feed) = d :: mend k feed := by
  cases k with
  | zero => rw [mend_zero, mend_zero]
  | succ k =>
    cases d with
    | failure e =>
      have he : e.isInterrupted = true := hd
      rw [mend, if_pos he]
    | piece bytes =>
      have hne : bytes.isEmpty ≠ true := by simpa using hd.1
      rw [mend, if_neg hd.1, h, if_neg Bool.false_ne_true, putBack, if_neg hne]

/-- What belongs to a line that is broken is deleted, or is an interruption. -/
theorem readLine_mend_cons_of_passing (hd : d.Passing) (h : feed.breaks = true)
    (collected : List UInt8) :
    readLine collected (mend (k + 1) (d :: feed)) = readLine collected (mend (k + 1) feed) := by
  cases d with
  | failure e =>
    have he : e.isInterrupted = true := hd
    rw [mend, if_pos he, readLine, if_pos he]
  | piece bytes =>
    rw [mend, if_neg hd.1, if_pos h, wholeLines_of_notMem hd.2]
    rfl

theorem mend_putBack (rest : List UInt8) (feed : Feed) : mend (k + 1) (putBack rest feed) =
    putBack (if feed.breaks then wholeLines rest else rest) (mend (k + 1) feed) := by
  cases rest with
  | nil =>
    have hnil : (if feed.breaks then wholeLines [] else []) = [] := by
      split <;> rfl
    rw [hnil]
    rfl
  | cons b rest => exact if_neg (List.cons_ne_nil b rest)

/-- A piece that ends a line still ends it. -/
theorem mend_lineFeed (line rest : List UInt8) (feed : Feed) :
    mend (k + 1) (.piece (line ++ lineFeed :: rest) :: feed) =
      .piece (line ++ lineFeed :: if feed.breaks then wholeLines rest else rest) ::
        mend (k + 1) feed := by
  have hne : line ++ lineFeed :: rest ≠ [] := by simp
  rw [mend, if_neg hne]
  cases feed.breaks with
  | true =>
    rw [if_pos rfl, if_pos rfl, wholeLines_lineFeed, putBack, if_neg (by simp)]
  | false => rw [if_neg (by simp), if_neg (by simp), putBack, if_neg (by simp)]

/-! ### A line -/

/-- A line of a feed is read from the mended feed too. -/
theorem readLine_mend_of_ok {collected : List UInt8} (k : Nat)
    (h : readLine collected feed = .ok line left) :
    readLine collected (mend k feed) = .ok line (mend k left) := by
  cases k with
  | zero => rwa [mend_zero, mend_zero]
  | succ k =>
  induction feed generalizing collected with
  | nil =>
    cases h
    rfl
  | cons d feed ih =>
    by_cases hd : d.Passing
    · rw [readLine_cons_of_passing hd] at h
      have hbreaks : Feed.breaks feed = false := by
        rw [Bool.eq_false_iff, ne_eq, breaks_eq_true_iff, h]
        simp
      rw [mend_cons_of_passing hd hbreaks, readLine_cons_of_passing hd]
      exact ih h
    rcases exists_of_not_passing hd with rfl | ⟨line', rest, rfl, hline⟩ | ⟨e, rfl, he⟩
    · cases h
      rfl
    · rw [readLine_lineFeed hline] at h
      cases h
      rw [mend_lineFeed, readLine_lineFeed hline, mend_putBack]
    · rw [readLine_failure he] at h
      cases h

/-- Where a feed breaks, the mended feed goes on with what is left, whatever is collected. -/
theorem readLine_mend_of_error {collected : List UInt8} (k : Nat)
    (h : readLine collected feed = .error e left) (collected' : List UInt8) :
    readLine collected' (mend (k + 1) feed) = readLine collected' (mend k left) := by
  induction feed generalizing collected with
  | nil => cases h
  | cons d feed ih =>
    by_cases hd : d.Passing
    · rw [readLine_cons_of_passing hd] at h
      rw [readLine_mend_cons_of_passing hd ((breaks_eq_true_iff _ _).2 ⟨e, left, h⟩)]
      exact ih h
    rcases exists_of_not_passing hd with rfl | ⟨line', rest, rfl, hline⟩ | ⟨e', rfl, he⟩
    · cases h
    · rw [readLine_lineFeed hline] at h
      cases h
    · rw [readLine_failure he] at h
      cases h
      rw [mend, he]
      rfl

/-- **A mended feed hands out the lines of the feed**, and what is left is mended. -/
theorem mend_of_handsOut (h : HandsOut line feed left) (k : Nat) :
    HandsOut line (mend k feed) (mend k left) :=
  readLine_eq_ok_iff.1 (readLine_mend_of_ok k h.readLine)

/-- **Where a feed breaks, the mended feed goes on** with the lines of what is left. -/
theorem mend_of_breaks (h : Breaks lost e feed left) (k : Nat) :
    readLine [] (mend (k + 1) feed) = readLine [] (mend k left) :=
  readLine_mend_of_error k h.readLine []

/-- The rest of the first piece and the piece behind it are lost with the failure. -/
example : mend 1 [.piece [65, 10, 66], .piece [67], .failure ⟨.brokenPipe, none⟩, .piece [68]] =
    [.piece [65, 10], .piece [68]] := by
  decide

/-! ### The number of failures -/

/-- Open deliveries are not counted. -/
theorem failures_append_cons {front : Feed} (h : front.Open) (d : Delivery) (feed : Feed) :
    failures (front ++ d :: feed) = feed.failures + if d.isFatal then 1 else 0 := by
  have hfront : List.countP Delivery.isFatal front = 0 := by
    refine List.countP_eq_zero.2 fun d hd hfatal => ?_
    have hpassing := h d hd
    match d, hpassing, hfatal with
    | .failure e, hpassing, hfatal =>
      have he : e.isInterrupted = true := hpassing
      rw [Delivery.isFatal, he] at hfatal
      cases hfatal
  rw [failures, List.countP_append, hfront, Nat.zero_add, List.countP_cons, failures]

theorem failures_putBack (rest : List UInt8) (feed : Feed) :
    (putBack rest feed).failures = feed.failures := by
  cases rest with
  | nil => rfl
  | cons b rest => exact failures_append_cons open_nil (.piece (b :: rest)) feed

theorem failures_of_open {front : Feed} (h : front.Open) : front.failures = 0 := by
  have hnil := failures_append_cons h (.piece []) []
  rw [failures, List.countP_append] at hnil
  exact Nat.eq_zero_of_add_eq_zero_right hnil

/-- A line is handed out in front of the first failure. -/
theorem HandsOut.failures_eq (h : HandsOut line feed left) : left.failures = feed.failures := by
  cases h with
  | exhausted h => exact (failures_of_open h).symm
  | endOfInput h feed => rw [failures_append_cons h]; rfl
  | ended h hline rest feed => rw [failures_append_cons h, failures_putBack]; rfl

/-- A feed breaks at its first failure. -/
theorem Breaks.failures_eq (h : Breaks lost e feed left) : feed.failures = left.failures + 1 := by
  obtain ⟨h, he, feed⟩ := h
  rw [failures_append_cons h, Delivery.isFatal, he]
  rfl

end Feed

end PhraseTape
