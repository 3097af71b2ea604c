import PhraseTape.Program
import PhraseTape.Source.Lexeme
import PhraseTape.Source.Location
import PhraseTape.Text.Quoted

/-!
# From source text to program

A source text is a program if all of it can be read as lexemes and one of them is a phrase. The
first place at which no lexeme fits is reported whether or not there were instructions before it,
and a text without instructions is reported only when all of it was read.

## Main definitions

* `ParseError` : the two reasons for which a text is no program.
* `Program.parse` : the program written in a text.
* `Program.reparses` : whether a program written out is read back as itself.

## Main results

* `Program.parse_of_scan_eq` : the program of a text that can be read.
* `Program.parse_of_scan_stop` : the error of a text that cannot.
-/

namespace PhraseTape

/-- The reasons for which a text is no program. -/
inductive ParseError where
  /-- No lexeme fits at a place of the text, which goes on with `text` there. -/
  | unrecognized (place : Location) (text : String)
  /-- There is no instruction. -/
  | emptyProgram
  deriving DecidableEq, Repr

/-- The sentence that reports the error. -/
def ParseError.message : ParseError → String
  | .unrecognized place text =>
    "Unrecognised input " ++ quote text ++ " at line " ++ toString place.line ++ ", column "
      ++ toString place.column
  | .emptyProgram => "Program contains no instructions"

namespace Program

/-- The program given by the lexemes read from a text and the text at which reading stopped. -/
def ofLexemes (lexemes : List Lexeme) (stop : List Char) : Except ParseError Program :=
  match stop with
  | _ :: _ =>
    .error (.unrecognized (Location.after (lexemes.flatMap Lexeme.spelling))
      (String.ofList (Lexeme.misfit stop)))
  | [] =>
    match lexemes.filterMap Lexeme.instruction? with
    | [] => .error .emptyProgram
    | instructions => .ok instructions.toArray

/-- The program written in a source text. -/
def parse (source : String) : Except ParseError Program :=
  match Lexeme.scan source.toList with
  | (lexemes, stop) => ofLexemes lexemes stop

/-- Whether a program written out is read back as itself, or why it cannot be read at all. -/
def reparses (p : Program) : Except ParseError Bool :=
  match parse p.text with
  | .ok q => .ok (q == p)
  | .error e => .error e

/-- A text that can be read whole is the program of its phrases, if it has any. -/
theorem parse_of_scan_eq {source : String} {lexemes : List Lexeme}
    (h : Lexeme.scan source.toList = (lexemes, [])) :
    parse source = if lexemes.filterMap Lexeme.instruction? = [] then .error .emptyProgram
      else .ok (lexemes.filterMap Lexeme.instruction?).toArray := by
  rw [parse, h]
  simp only [ofLexemes]
  split
  next hi => rw [if_pos hi]
  next hi => rw [if_neg hi]

/-- A text that cannot be read whole is reported at the place where reading stopped. -/
theorem parse_of_scan_stop {source : String} {lexemes : List Lexeme} {c : Char} {rest : List Char}
    (h : Lexeme.scan source.toList = (lexemes, c :: rest)) :
    parse source = .error (.unrecognized (Location.after (lexemes.flatMap Lexeme.spelling))
      (String.ofList (Lexeme.misfit (c :: rest)))) := by
  rw [parse, h]
  rfl

end Program

end PhraseTape
