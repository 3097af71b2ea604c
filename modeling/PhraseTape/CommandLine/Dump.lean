import PhraseTape.Run.Fault
import PhraseTape.Run.Observer
import PhraseTape.Source.Parse

/-!
# Values shown to a developer

The options for debugging, and the report of a failure, show values by the names of their parts.
A short value stands on one line. A long one has each of its parts on lines of its own, indented by
four and followed by a comma, between an opening and a closing line.

## Main definitions

* `Instruction.label`, `AddressError.label`, `IoErrorKind.label` : the names that are shown.
* `Dump` : a value as lines.
* `Program.dump`, `Moment.dump` : a whole program, and the moment before an instruction.
* `ParseError.dump`, `IoError.dump`, `Fault.dump` : failures, each on one line.
-/

namespace PhraseTape

/-- The name of an instruction of the given kind. -/
def Instruction.label : Instruction → String
  | .change .plus _ => "IncrementValue"
  | .change .minus _ => "DecrementValue"
  | .right => "IncrementPointer"
  | .left => "DecrementPointer"
  | .loopStart => "StartLoop"
  | .loopEnd => "EndLoop"
  | .read => "Input"
  | .print => "Output"

/-- The name of an address error. -/
def AddressError.label : AddressError → String
  | .beforeStart => "TapeAddrIsNegative"
  | .pastEnd => "TapeAddrTooLarge"

/-- The name of a kind of failure. -/
def IoErrorKind.label : IoErrorKind → String
  | .brokenPipe => "BrokenPipe"
  | .interrupted => "Interrupted"
  | .invalidData => "InvalidData"
  | .notFound => "NotFound"
  | .other => "Other"
  | .permissionDenied => "PermissionDenied"
  | .timedOut => "TimedOut"
  | .unexpectedEof => "UnexpectedEof"
  | .wouldBlock => "WouldBlock"
  | .writeZero => "WriteZero"

/-! ### Values as lines -/

/-- A value as lines. -/
abbrev Dump := List String

namespace Dump

/-- The lines with a comma behind the last one. -/
def withComma : Dump → Dump
  | [] => []
  | [line] => [line ++ ","]
  | line :: lines => line :: withComma lines

/-- The lines of a value that is a part of another one. -/
def part (d : Dump) : Dump :=
  (withComma d).map ("    " ++ ·)

/-- A value with parts, between an opening and a closing line. -/
def block (opening : String) (parts : List Dump) (closing : String) : Dump :=
  opening :: parts.flatMap part ++ [closing]

/-- The lines as text. -/
def text (d : Dump) : String :=
  String.join (d.map (· ++ "\n"))

end Dump

/-- An instruction by its name, with its text if it has one. -/
def Instruction.dump (i : Instruction) : Dump :=
  match i with
  | .change _ text => Dump.block (i.label ++ "(") [[quote text]] ")"
  | _ => [i.label]

/-- All instructions of a program. -/
def Program.dump (p : Program) : Dump :=
  Dump.block "[" (p.toList.map Instruction.dump) "]"

/-- An address by its number. -/
def Address.dump (a : Address) : Dump :=
  Dump.block "TapeAddr(" [[toString a.toInt]] ")"

/-- The instructions that were read, under a heading. -/
def Program.dumpHeaded (p : Program) : String :=
  let heading := quote "--- INSTRUCTIONS ---"
  heading ++ " = " ++ heading ++ "\n&program = " ++ Dump.text p.dump

/-- Index, pointer and instruction of a moment. -/
def Moment.dump (m : Moment) : String :=
  "(data.pc, tp, data.instruction) = " ++
    Dump.text (Dump.block "(" [[toString m.counter], m.pointer.dump, m.instruction.dump] ")")

/-! ### Failures on one line -/

/-- A record on one line. -/
def dumpRecord (name : String) (fields : List (String × String)) : String :=
  name ++ " \x7b " ++ ", ".intercalate (fields.map fun (field, value) => field ++ ": " ++ value)
    ++ " \x7d"

/-- A refusal by its name, with what it names of the text. -/
def ParseError.dump : ParseError → String
  | .unrecognized place text =>
    dumpRecord "UnrecognizedInput"
      [("line", toString place.line), ("column", toString place.column), ("text", quote text)]
  | .emptyProgram => "EmptyProgram"

/-- A failure of the console by its kind and its sentence. -/
def IoError.dump (e : IoError) : String :=
  dumpRecord "Error" [("kind", e.kind.label), ("message", quote e.text)]

/-- A fault by its name, with what caused it. -/
def Fault.dump : Fault → String
  | .address e => "TapeError(" ++ e.label ++ ")"
  | .io e => "IoError(" ++ e.dump ++ ")"
  | .aborted => "Aborted"

end PhraseTape
