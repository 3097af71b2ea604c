import PhraseTape.Console.IoError
import PhraseTape.Text.CellText

/-!
# Input as a sequence of deliveries

A reader delivers its bytes in pieces, and may fail between them. A line is collected from as many
pieces as it takes; what a piece holds behind the line stays for the next one. An empty piece ends
the input for one line, and what is delivered later is still there for the lines after it.

## Main definitions

* `Delivery`, `Feed` : what a reader will deliver.
* `Feed.readLine` : a line, and what is left of the feed.
* `Feed.bytes`, `Feed.Smooth` : the bytes of a feed that ends only once.
* `firstLine` : the first line of some bytes.

## Main results

* `Feed.readLine_of_smooth` : how a smooth feed is cut into pieces has no influence on its lines.
-/

namespace PhraseTape

/-- One answer of a reader. -/
inductive Delivery where
  /-- Some bytes; none at all mean the end of the input for the line that is being read. -/
  | piece (bytes : List UInt8)
  /-- A failure, which is reported once. -/
  | failure (error : IoError)
  deriving DecidableEq, Repr

/-- What a reader will deliver. When everything is delivered the input is at its end for good. -/
abbrev Feed := List Delivery

namespace Feed

/-- The feed that delivers the given bytes in one piece, also if there are none. -/
def ofBytes (bytes : List UInt8) : Feed :=
  [.piece bytes]

/-- The feed in front of which the bytes `rest` of a piece are left; a piece that is used up is
gone, and does not end the input. -/
def putBack (rest : List UInt8) (feed : Feed) : Feed :=
  if rest.isEmpty then feed else .piece rest :: feed

/-- The feed that delivers one piece more at its end. -/
def supply (feed : Feed) (bytes : List UInt8) : Feed :=
  feed ++ [.piece bytes]

/-- Reads a line, up to and with its line feed or up to the end of the input, behind the bytes
`collected` that were already read for it. Interruptions are passed over; any other failure ends
the reading, and what was collected is lost. -/
def readLine (collected : List UInt8) : Feed → EStateM.Result IoError Feed (List UInt8)
  | [] => .ok collected []
  | .failure e :: feed => if e.isInterrupted then readLine collected feed else .error e feed
  | .piece bytes :: feed =>
    if bytes.isEmpty then
      .ok collected feed
    else
      match bytes.dropWhile (· != lineFeed) with
      | [] => readLine (collected ++ bytes) feed
      | _ :: rest =>
        .ok (collected ++ bytes.takeWhile (· != lineFeed) ++ [lineFeed]) (putBack rest feed)

/-! ### Feeds that end only once -/

/-- All bytes that a feed delivers, in order. -/
def bytes : Feed → List UInt8
  | [] => []
  | .piece bytes :: feed => bytes ++ Feed.bytes feed
  | .failure _ :: feed => Feed.bytes feed

/-- A feed is *smooth* when none of its pieces is empty and it has no failures but
interruptions. -/
def Smooth (feed : Feed) : Prop :=
  ∀ d ∈ feed, match d with
    | .piece bytes => bytes ≠ []
    | .failure e => e.isInterrupted = true

theorem smooth_nil : Smooth [] :=
  nofun

theorem smooth_cons {d : Delivery} {feed : Feed} : Smooth (d :: feed) ↔
    (match d with
      | .piece bytes => bytes ≠ []
      | .failure e => e.isInterrupted = true) ∧ Smooth feed :=
  List.forall_mem_cons

theorem smooth_ofBytes {bytes : List UInt8} (h : bytes ≠ []) : Smooth (ofBytes bytes) :=
  smooth_cons.2 ⟨h, smooth_nil⟩

@[simp] theorem bytes_putBack (rest : List UInt8) (feed : Feed) :
    (putBack rest feed).bytes = rest ++ feed.bytes := by
  cases rest <;> simp [putBack, Feed.bytes]

theorem Smooth.putBack {feed : Feed} (h : feed.Smooth) (rest : List UInt8) :
    (Feed.putBack rest feed).Smooth := by
  cases rest with
  | nil => exact h
  | cons b rest => exact smooth_cons.2 ⟨List.cons_ne_nil b rest, h⟩

end Feed

/-- The first line of some bytes, with its line feed if it has one, and the bytes behind it. -/
def firstLine (bytes : List UInt8) : List UInt8 × List UInt8 :=
  match bytes.dropWhile (· != lineFeed) with
  | [] => (bytes, [])
  | _ :: rest => (bytes.takeWhile (· != lineFeed) ++ [lineFeed], rest)

theorem firstLine_append_of_dropWhile_nil {s : List UInt8} (t : List UInt8)
    (h : s.dropWhile (· != lineFeed) = []) :
    firstLine (s ++ t) = (s ++ (firstLine t).1, (firstLine t).2) := by
  have htake : s.takeWhile (· != lineFeed) = s := by
    have := List.takeWhile_append_dropWhile (p := (· != lineFeed)) (l := s)
    rwa [h, List.append_nil] at this
  have hall : ∀ b ∈ s, (b != lineFeed) = true := by
    rw [← htake]
    exact fun b hb => List.all_eq_true.1 List.all_takeWhile b hb
  simp only [firstLine, List.dropWhile_append_of_pos hall, List.takeWhile_append_of_pos hall]
  cases t.dropWhile (· != lineFeed) with
  | nil => rfl
  | cons c rest => simp only [List.append_assoc]

theorem firstLine_append_of_dropWhile_cons {s rest : List UInt8} {c : UInt8} (t : List UInt8)
    (h : s.dropWhile (· != lineFeed) = c :: rest) :
    firstLine (s ++ t) = (s.takeWhile (· != lineFeed) ++ [lineFeed], rest ++ t) := by
  have hdrop : (s ++ t).dropWhile (· != lineFeed) = c :: (rest ++ t) := by
    rw [List.dropWhile_append, h]
    rfl
  have htake : (s ++ t).takeWhile (· != lineFeed) = s.takeWhile (· != lineFeed) := by
    have h₁ := List.takeWhile_append_dropWhile (p := (· != lineFeed)) (l := s ++ t)
    have h₂ := List.takeWhile_append_dropWhile (p := (· != lineFeed)) (l := s)
    rw [hdrop] at h₁
    rw [h] at h₂
    refine List.append_cancel_right (h₁.trans ?_)
    rw [← List.cons_append, ← List.append_assoc, h₂]
  simp only [firstLine, hdrop, htake]

/-- From a smooth feed a line is the first line of its bytes, and the bytes behind it are left. -/
theorem Feed.readLine_of_smooth {feed : Feed} (h : feed.Smooth) (collected : List UInt8) :
    ∃ left, feed.readLine collected = .ok (collected ++ (firstLine feed.bytes).1) left ∧
      left.Smooth ∧ left.bytes = (firstLine feed.bytes).2 := by
  induction feed generalizing collected with
  | nil => exact ⟨[], by simp [readLine, Feed.bytes, firstLine], smooth_nil, rfl⟩
  | cons d feed ih =>
    obtain ⟨hd, hfeed⟩ := smooth_cons.1 h
    cases d with
    | failure e =>
      have he : e.isInterrupted = true := hd
      rw [readLine, if_pos he]
      exact ih hfeed collected
    | piece bytes =>
      have hne : bytes.isEmpty = false := by simpa using hd
      rw [readLine, hne]
      simp only [Bool.false_eq_true, if_false, Feed.bytes]
      cases hdrop : bytes.dropWhile (· != lineFeed) with
      | nil =>
        obtain ⟨left, h₁, h₂, h₃⟩ := ih hfeed (collected ++ bytes)
        refine ⟨left, ?_, h₂, ?_⟩
        · simp only [h₁, firstLine_append_of_dropWhile_nil _ hdrop, List.append_assoc]
        · rw [h₃, firstLine_append_of_dropWhile_nil _ hdrop]
      | cons c rest =>
        refine ⟨putBack rest feed, ?_, hfeed.putBack rest, ?_⟩
        · simp only [firstLine_append_of_dropWhile_cons _ hdrop, List.append_assoc]
        · rw [bytes_putBack, firstLine_append_of_dropWhile_cons _ hdrop]

end PhraseTape
