/-!
# Places in a source text

A place is named by a line and a column, both counted from one. A line break ends a line, and
every other character, of whatever width, is one column.

## Main definitions

* `Location` : a line and a column.
* `Location.after` : the place that follows a text.

## Main results

* `Location.after_append` : places are found by reading on.
* `Location.line_after`, `Location.column_after` : line and column of a place, counted.
-/

namespace PhraseTape

/-- A place in a text. -/
structure Location where
  line : Nat
  column : Nat
  deriving DecidableEq, Repr

namespace Location

/-- The place of the first character of a text. -/
def start : Location :=
  ⟨1, 1⟩

/-- The place that follows the character `c` at the place `l`. -/
def next (l : Location) (c : Char) : Location :=
  if c = '\n' then ⟨l.line + 1, 1⟩ else ⟨l.line, l.column + 1⟩

/-- The place that follows the text `s` begun at the place `l`. -/
def through (l : Location) (s : List Char) : Location :=
  s.foldl next l

/-- The place that follows the text `s`. -/
def after (s : List Char) : Location :=
  start.through s

theorem after_append (s t : List Char) : after (s ++ t) = (after s).through t :=
  List.foldl_append

/-- The line is one more than the number of line breaks passed. -/
theorem line_through (l : Location) (s : List Char) :
    (l.through s).line = l.line + s.count '\n' := by
  induction s generalizing l with
  | nil => rfl
  | cons c s ih =>
    rw [through, List.foldl_cons, ← through, ih, List.count_cons]
    by_cases hc : c = '\n'
    · simp only [next, hc, if_true, beq_self_eq_true]
      omega
    · simp [next, hc]

theorem line_after (s : List Char) : (after s).line = 1 + s.count '\n' :=
  line_through start s

/-- On a text without line breaks the column moves by one for each character. -/
theorem through_of_notMem (l : Location) {s : List Char} (h : '\n' ∉ s) :
    l.through s = ⟨l.line, l.column + s.length⟩ := by
  induction s generalizing l with
  | nil => rfl
  | cons c s ih =>
    rw [List.mem_cons, not_or] at h
    rw [through, List.foldl_cons, ← through, ih _ h.2, next, if_neg (Ne.symm h.1)]
    simp only [List.length_cons, Location.mk.injEq, true_and]
    omega

/-- A line break returns to the first column. -/
theorem through_newline (l : Location) (s : List Char) :
    l.through ('\n' :: s) = (⟨l.line + 1, 1⟩ : Location).through s :=
  rfl

/-- The column is one more than the number of characters since the last line break. -/
theorem column_after {s t : List Char} (ht : '\n' ∉ t) (hs : s = [] ∨ s.getLast? = some '\n') :
    (after (s ++ t)).column = 1 + t.length := by
  have hcol : (after s).column = 1 := by
    rcases hs with rfl | hs
    · rfl
    · obtain ⟨u, rfl⟩ := List.getLast?_eq_some_iff.1 hs
      rw [after_append]
      rfl
  rw [after_append, through_of_notMem _ ht, hcol]

end Location

end PhraseTape
