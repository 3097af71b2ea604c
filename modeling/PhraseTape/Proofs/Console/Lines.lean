import PhraseTape.Console.Basic

/-!
# Lines of the input

The bytes that a reader delivers are cut into lines behind each line feed, and the last line can be
without one. When the lines are used up, the first line of the bytes that are left is empty. A line
is stripped of its terminator, which is a line feed with or without a carriage return before it.

## Main definitions

* `lines` : the lines of some bytes, each with its line feed.
* `Bare` : a line and what is left of it without its terminator.

## Main results

* `flatten_lines` : the lines together are the bytes.
* `lines_firstLine`, `getD_lines_zero` : the first line, and the lines behind it.
* `bare_stripTerminator` : which terminator is removed.
-/

namespace PhraseTape

/-- The lines of some bytes. Each ends behind the first line feed, and only the last one can be
without. -/
def lines : List UInt8 → List (List UInt8)
  | [] => []
  | b :: bytes =>
    if b = lineFeed then
      [b] :: lines bytes
    else
      match lines bytes with
      | [] => [[b]]
      | line :: behind => (b :: line) :: behind

/-- The line and what is left of it without its terminator: one line feed is removed from its end,
and one carriage return before that. Without a line feed nothing is removed. -/
inductive Bare : List UInt8 → List UInt8 → Prop
  | crlf (content : List UInt8) : Bare (content ++ [carriageReturn, lineFeed]) content
  | lf {content : List UInt8} (h : content.getLast? ≠ some carriageReturn) :
      Bare (content ++ [lineFeed]) content
  | unended {line : List UInt8} (h : line.getLast? ≠ some lineFeed) : Bare line line

/-- The lines together are the bytes. -/
theorem flatten_lines (bytes : List UInt8) : (lines bytes).flatten = bytes := by
  induction bytes with
  | nil => rfl
  | cons b bytes ih =>
    rw [lines]
    split
    · rw [List.flatten_cons, ih, List.singleton_append]
    · split
      next hnil =>
        rw [hnil] at ih
        rw [← ih]
        rfl
      next line behind hcons =>
        rw [hcons] at ih
        rw [← ih]
        rfl

theorem firstLine_cons_lineFeed (bytes : List UInt8) :
    firstLine (lineFeed :: bytes) = ([lineFeed], bytes) :=
  rfl

theorem firstLine_cons_of_ne {b : UInt8} (hb : b ≠ lineFeed) (bytes : List UInt8) :
    firstLine (b :: bytes) = (b :: (firstLine bytes).1, (firstLine bytes).2) := by
  have hdrop : [b].dropWhile (· != lineFeed) = [] := by simp [hb]
  exact firstLine_append_of_dropWhile_nil bytes hdrop

/-- The first line of some bytes, and the lines behind it. -/
theorem lines_eq_firstLine_cons {bytes : List UInt8} (h : bytes ≠ []) :
    lines bytes = (firstLine bytes).1 :: lines (firstLine bytes).2 := by
  induction bytes with
  | nil => exact absurd rfl h
  | cons b bytes ih =>
    rw [lines]
    split
    next hb => rw [hb, firstLine_cons_lineFeed]
    next hb =>
      rw [firstLine_cons_of_ne hb]
      by_cases hnil : bytes = []
      · rw [hnil]
        rfl
      · rw [ih hnil]

/-- When the first line is taken the others are left, and nothing if there was none. -/
theorem lines_firstLine (bytes : List UInt8) :
    lines (firstLine bytes).2 = (lines bytes).drop 1 := by
  by_cases hnil : bytes = []
  · rw [hnil]
    rfl
  · rw [lines_eq_firstLine_cons hnil, List.drop_one, List.tail_cons]

/-- The first line, which is empty if there are no bytes. -/
theorem getD_lines_zero (bytes : List UInt8) : (lines bytes).getD 0 [] = (firstLine bytes).1 := by
  by_cases hnil : bytes = []
  · rw [hnil]
    rfl
  · rw [lines_eq_firstLine_cons hnil, List.getD_cons_zero]

/-- A line is stripped of its terminator. -/
theorem bare_stripTerminator (line : List UInt8) : Bare line (stripTerminator line) := by
  by_cases hlf : line.getLast? = some lineFeed
  · obtain ⟨body, rfl⟩ := List.getLast?_eq_some_iff.1 hlf
    by_cases hcr : body.getLast? = some carriageReturn
    · obtain ⟨content, rfl⟩ := List.getLast?_eq_some_iff.1 hcr
      rw [List.append_assoc, List.singleton_append, stripTerminator_append_crlf]
      exact .crlf content
    · rw [stripTerminator_append_lf hcr]
      exact .lf hcr
  · rw [stripTerminator_of_getLast?_ne hlf]
    exact .unended hlf

/-- Nothing else is left of a line without its terminator. -/
theorem Bare.stripTerminator_eq {line content : List UInt8} (h : Bare line content) :
    stripTerminator line = content := by
  cases h with
  | crlf => exact stripTerminator_append_crlf content
  | lf h => exact stripTerminator_append_lf h
  | unended h => exact stripTerminator_of_getLast?_ne h

end PhraseTape
