/-!
# Instructions and their phrases

There are eight kinds of instruction, each written as a Korean phrase. Six phrases are fixed. The
two phrases that change a cell open with `이구`, repeat one glyph for the amount and close with a
marker; such an instruction keeps the text it was written with, and the amount is read off the
text when the instruction is carried out.

## Main definitions

* `Sign` : the two directions of change, with their glyphs and closing markers.
* `Instruction` : the eight kinds of instruction.
* `Instruction.text` : the phrase of an instruction.
* `Instruction.changeText` : the phrase that changes a cell by a given amount.
* `delta` : the amount read off the text of a change.

## Main results

* `delta_changeText` : the amount read off a phrase is the number of its glyphs, signed.
-/

namespace PhraseTape

/-- The direction in which a cell is changed. -/
inductive Sign where
  | plus
  | minus
  deriving DecidableEq, Repr

namespace Sign

/-- The glyph whose repetitions count the amount. -/
def glyph : Sign → Char
  | .plus => '우'
  | .minus => '구'

/-- The marker that closes the phrase. -/
def close : Sign → Char
  | .plus => '욱'
  | .minus => '국'

/-- The change made by one glyph. -/
def unit : Sign → Int
  | .plus => 1
  | .minus => -1

end Sign

/-- One instruction of a program. -/
inductive Instruction where
  /-- Changes the cell under the pointer by the amount that `text` spells. -/
  | change (sign : Sign) (text : String)
  /-- Moves the pointer one cell to the right. -/
  | right
  /-- Moves the pointer one cell to the left. -/
  | left
  /-- Skips forward to a loop end if the cell under the pointer is zero. -/
  | loopStart
  /-- Goes back to a loop start if the cell under the pointer is not zero. -/
  | loopEnd
  /-- Stores the first character of a line of input. -/
  | read
  /-- Writes the cell under the pointer. -/
  | print
  deriving DecidableEq, Repr, Inhabited

namespace Instruction

/-- The two characters that open the phrase of a change. -/
def opening : List Char :=
  ['이', '구']

/-- The phrase that changes a cell by `n` in the direction of `sign`. -/
def changeText (sign : Sign) (n : Nat) : List Char :=
  opening ++ List.replicate n sign.glyph ++ [sign.close]

@[simp] theorem length_changeText (sign : Sign) (n : Nat) :
    (changeText sign n).length = n + 3 := by
  simp [changeText, opening]

/-- The phrase of an instruction. -/
def text : Instruction → String
  | .change _ text => text
  | .right => "고수?"
  | .left => "하-"
  | .loopStart => "신"
  | .loopEnd => "킹갓 충무공 제너럴"
  | .read => "이국 왤캐 고수임?"
  | .print => "이국이 처럼 살고싶다."

/-- The instructions whose phrase is fixed. -/
def fixed : List Instruction :=
  [.right, .left, .loopStart, .loopEnd, .read, .print]

/-- Whether the instruction opens a loop. -/
def isLoopStart : Instruction → Bool
  | .loopStart => true
  | _ => false

/-- Whether the instruction closes a loop. -/
def isLoopEnd : Instruction → Bool
  | .loopEnd => true
  | _ => false

theorem isLoopStart_iff {i : Instruction} : i.isLoopStart = true ↔ i = .loopStart := by
  cases i <;> simp [isLoopStart]

theorem isLoopEnd_iff {i : Instruction} : i.isLoopEnd = true ↔ i = .loopEnd := by
  cases i <;> simp [isLoopEnd]

end Instruction

/-! ### The amount of a change -/

/-- What one character of a text adds to the amount. -/
def weight (c : Char) : Int :=
  if c = Sign.plus.glyph then Sign.plus.unit
  else if c = Sign.minus.glyph then Sign.minus.unit
  else 0

/-- The amount of a change, read off its text: the opening is dropped, since it holds a glyph of
its own, and then every glyph counts by itself, whatever the direction of the instruction. -/
def delta (text : String) : Int :=
  (text.toList.drop Instruction.opening.length).foldr (fun c amount => weight c + amount) 0

@[simp] theorem weight_glyph (sign : Sign) : weight sign.glyph = sign.unit := by
  cases sign <;> decide

@[simp] theorem weight_close (sign : Sign) : weight sign.close = 0 := by
  cases sign <;> decide

theorem foldr_weight_replicate (sign : Sign) (n : Nat) (amount : Int) :
    (List.replicate n sign.glyph).foldr (fun c amount => weight c + amount) amount =
      n * sign.unit + amount := by
  induction n with
  | zero => simp
  | succ n ih =>
    rw [List.replicate_succ, List.foldr_cons, ih, weight_glyph, Int.natCast_succ, Int.add_mul,
      Int.one_mul]
    omega

/-- The amount read off a phrase is the number of glyphs between its opening and its closing
marker, in the direction of the phrase. -/
theorem delta_changeText (sign : Sign) (n : Nat) :
    delta (String.ofList (Instruction.changeText sign n)) = n * sign.unit := by
  rw [delta, String.toList_ofList, Instruction.changeText, List.append_assoc, List.drop_left,
    List.foldr_append, foldr_weight_replicate]
  simp

end PhraseTape
