import PhraseTape.Cell
import PhraseTape.Settings
import PhraseTape.Text.Utf8

/-!
# Cells as characters

A cell is filled from a line of input and is printed as a character. A line is stripped of its
terminator and read as UTF-8, and its first character is taken by the first of its UTF-16 units,
reduced to a byte; what stands behind the first character has no influence.

## Main definitions

* `stripTerminator` : a line without the line feed, or the carriage return and line feed, that
  ends it.
* `leadingUnit` : the first UTF-16 unit of a character.
* `Cell.ofLine`, `Cell.ofLineBytes` : the cell filled from a line.
* `OutputEncoding.encode` : the bytes that print a cell.

## Main results

* `stripTerminator_append_lf`, `stripTerminator_append_crlf` : which terminators are removed.
* `Cell.ofLineBytes_encode_append` : a cell filled from a line that begins with a character.
-/

namespace PhraseTape

/-- The line feed, which ends a line. -/
def lineFeed : UInt8 :=
  10

/-- The carriage return, which belongs to the terminator if it stands before the line feed. -/
def carriageReturn : UInt8 :=
  13

/-- The bytes of a line without its terminator: one line feed at the end is removed, and then one
carriage return before it. A carriage return that ends the input stays. -/
def stripTerminator (line : List UInt8) : List UInt8 :=
  if line.getLast? = some lineFeed then
    if line.dropLast.getLast? = some carriageReturn then line.dropLast.dropLast else line.dropLast
  else
    line

theorem stripTerminator_of_getLast?_ne {line : List UInt8} (h : line.getLast? ≠ some lineFeed) :
    stripTerminator line = line := by
  rw [stripTerminator, if_neg h]

theorem stripTerminator_append_lf {line : List UInt8}
    (h : line.getLast? ≠ some carriageReturn) : stripTerminator (line ++ [lineFeed]) = line := by
  rw [stripTerminator, if_pos List.getLast?_concat, List.dropLast_concat, if_neg h]

theorem stripTerminator_append_crlf (line : List UInt8) :
    stripTerminator (line ++ [carriageReturn, lineFeed]) = line := by
  have h : line ++ [carriageReturn, lineFeed] = (line ++ [carriageReturn]) ++ [lineFeed] := by simp
  rw [h, stripTerminator, if_pos List.getLast?_concat, List.dropLast_concat,
    if_pos List.getLast?_concat, List.dropLast_concat]

/-- The first UTF-16 unit of a character: the code point, or the high surrogate of a code point
past the basic plane. -/
def leadingUnit (c : Char) : Nat :=
  if c.toNat < 0x10000 then c.toNat else 0xd800 + (c.toNat - 0x10000) / 0x400

/-- The cell filled from a line of characters. An empty line gives zero. -/
def Cell.ofLine : List Char → Cell
  | [] => 0
  | c :: _ => Cell.ofInt (leadingUnit c)

/-- The cell filled from the bytes of a line, with or without its terminator. -/
def Cell.ofLineBytes (line : List UInt8) : Cell :=
  Cell.ofLine (Utf8.decode (stripTerminator line))

/-- What stands behind the first character of a line has no influence on the cell. -/
theorem Cell.ofLineBytes_encode_append {line rest : List UInt8} {c : Char}
    (h : stripTerminator line = String.utf8EncodeChar c ++ rest) :
    Cell.ofLineBytes line = Cell.ofInt (leadingUnit c) := by
  rw [Cell.ofLineBytes, h, Utf8.decode_encodeChar_append, Cell.ofLine]

/-- The bytes that print a cell. -/
def OutputEncoding.encode : OutputEncoding → Cell → List UInt8
  | .utf8, v => String.utf8EncodeChar (Char.ofNat v.toNat)
  | .byte, v => [v]

@[simp] theorem OutputEncoding.encode_byte (v : Cell) : OutputEncoding.byte.encode v = [v] :=
  rfl

/-- Printing a cell always writes something. -/
theorem OutputEncoding.encode_ne_nil (e : OutputEncoding) (v : Cell) : e.encode v ≠ [] := by
  cases e with
  | utf8 =>
    rw [encode]
    unfold String.utf8EncodeChar
    simp only
    repeat' split
    all_goals simp
  | byte => simp

end PhraseTape
