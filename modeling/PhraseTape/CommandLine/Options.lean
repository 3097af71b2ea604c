import PhraseTape.Settings

/-!
# Options of the command line

The command line names one program file and sets options, in any order. A long option takes its
value behind an equals sign or as the next argument, and a short one also right behind its letter;
everything behind the argument `--` is a file name. An option is given at most once, and its value
never looks like an option itself. The arguments are read from left to right: a request for help
or for the version is answered as soon as it is met, and the first mistake ends the reading.

## Main definitions

* `Mode`, `Options` : what a command line asks for.
* `Argument` : one argument, taken apart.
* `Invocation` : what becomes of a whole command line.
* `Invocation.ofArguments` : reading a command line.

## Main results

* `boundedNat?_le` : no number exceeds the bound.
-/

namespace PhraseTape

/-- What is done with the program. -/
inductive Mode where
  /-- The program is run. -/
  | interpret
  /-- The instructions are printed. -/
  | tokens
  deriving DecidableEq, Repr

/-- The mode written as a word. -/
def Mode.ofName? (text : String) : Option Mode :=
  match text with
  | "interpret" => some .interpret
  | "tokens" => some .tokens
  | _ => none

/-- What a command line asks for. -/
structure Options where
  file : String
  mode : Mode := .interpret
  settings : Settings := {}
  /-- The number of instructions after which the run is stopped. -/
  maxSteps : Option Nat := none
  /-- Whether the instructions are shown before the run. -/
  debugParse : Bool := false
  /-- Whether every instruction is shown before it is carried out. -/
  trace : Bool := false
  deriving DecidableEq, Repr

namespace CommandLine

/-- The options that take a value. -/
inductive Setting where
  | mode
  | tapeSize
  | pointerPolicy
  | outputEncoding
  | maxSteps
  deriving DecidableEq, Repr

/-- The options that take none. -/
inductive Switch where
  | debugParse
  | trace
  | help
  | version
  deriving DecidableEq, Repr

/-- The option with a value of a long name. -/
def Setting.ofName? : String → Option Setting
  | "mode" => some .mode
  | "tape-size" => some .tapeSize
  | "pointer-policy" => some .pointerPolicy
  | "output-encoding" => some .outputEncoding
  | "max-steps" => some .maxSteps
  | _ => none

/-- The option with a value of a letter. -/
def Setting.ofLetter? : Char → Option Setting
  | 'm' => some .mode
  | 't' => some .tapeSize
  | 'p' => some .pointerPolicy
  | _ => none

/-- The option without a value of a long name. -/
def Switch.ofName? : String → Option Switch
  | "debug-parse" => some .debugParse
  | "trace" => some .trace
  | "help" => some .help
  | "version" => some .version
  | _ => none

/-- The option without a value of a letter. -/
def Switch.ofLetter? : Char → Option Switch
  | 'h' => some .help
  | 'V' => some .version
  | _ => none

/-! ### Arguments -/

/-- One argument, taken apart. -/
inductive Argument where
  /-- The argument behind which there are no options. -/
  | escape
  /-- An option with its value, if the value is in the same argument. -/
  | setting (s : Setting) (value : Option String)
  /-- An option without a value. -/
  | switch (s : Switch)
  /-- A file name or a value. -/
  | plain (text : String)
  /-- An option that does not exist. -/
  | unknown
  deriving DecidableEq, Repr

/-- The long option of a text that followed two hyphens. -/
def Argument.ofLong (text : List Char) : Argument :=
  let name := String.ofList (text.takeWhile (· != '='))
  let value := text.dropWhile (· != '=')
  match Setting.ofName? name, Switch.ofName? name, value with
  | some s, _, [] => .setting s none
  | some s, _, _ :: value => .setting s (some (String.ofList value))
  | none, some s, [] => .switch s
  | none, _, _ => .unknown

/-- The short option with the given letter. Behind the letter of an option that takes a value
stands the value, with or without an equals sign. The other letters ask for something that is
answered at once, so what stands behind them is not read. -/
def Argument.ofShort (letter : Char) (behind : List Char) : Argument :=
  match Setting.ofLetter? letter, Switch.ofLetter? letter, behind with
  | some s, _, [] => .setting s none
  | some s, _, '=' :: value => .setting s (some (String.ofList value))
  | some s, _, value => .setting s (some (String.ofList value))
  | none, some s, _ => .switch s
  | none, none, _ => .unknown

/-- Takes an argument apart. A hyphen by itself is plain. -/
def Argument.ofString (text : String) : Argument :=
  match text.toList with
  | ['-', '-'] => .escape
  | '-' :: '-' :: long => .ofLong long
  | '-' :: letter :: behind => .ofShort letter behind
  | _ => .plain text

/-! ### Values -/

/-- A text without the plus sign in front of it, if there is one. -/
def withoutPlus : List Char → List Char
  | '+' :: rest => rest
  | text => text

/-- The number written in decimal digits. There is at least one digit, and nothing else. -/
def decimal? (digits : List Char) : Option Nat :=
  if !digits.isEmpty && digits.all Char.isDigit then
    some (digits.foldl (fun n c => n * 10 + (c.toNat - '0'.toNat)) 0)
  else
    none

/-- The number written in decimal digits, with an optional plus sign, if it is at most `bound`. -/
def boundedNat? (bound : Nat) (text : String) : Option Nat :=
  (decimal? (withoutPlus text.toList)).filter (· ≤ bound)

theorem boundedNat?_le {bound n : Nat} {text : String} (h : boundedNat? bound text = some n) :
    n ≤ bound := by
  simpa using (Option.filter_eq_some_iff.1 h).2

/-- The greatest number an option can have. -/
def maxNumber : Nat :=
  UInt64.size - 1

/-- The options met so far. -/
structure Draft where
  file : Option String := none
  mode : Option Mode := none
  tapeSize : Option Nat := none
  policy : Option PointerPolicy := none
  encoding : Option OutputEncoding := none
  maxSteps : Option Nat := none
  debugParse : Bool := false
  trace : Bool := false

namespace Draft

/-- A value for something that has none yet. -/
def fresh {α : Type} (current value : Option α) : Option (Option α) :=
  match current, value with
  | none, some v => some (some v)
  | _, _ => none

/-- The draft with a value for an option, if the option has none yet and the text is one of its
values. -/
def give (d : Draft) (s : Setting) (text : String) : Option Draft :=
  match s with
  | .mode => (fresh d.mode (Mode.ofName? text)).map fun mode => { d with mode }
  | .tapeSize => (fresh d.tapeSize (boundedNat? maxNumber text)).map fun tapeSize =>
      { d with tapeSize }
  | .pointerPolicy => (fresh d.policy (PointerPolicy.ofName? text false)).map fun policy =>
      { d with policy }
  | .outputEncoding => (fresh d.encoding (OutputEncoding.ofName? text false)).map fun encoding =>
      { d with encoding }
  | .maxSteps => (fresh d.maxSteps (boundedNat? maxNumber text)).map fun maxSteps =>
      { d with maxSteps }

/-- The draft with its file, if it has none yet and the name is not empty. -/
def takeFile (d : Draft) (name : String) : Option Draft :=
  (fresh d.file (if name.isEmpty then none else some name)).map fun file => { d with file }

/-- The draft with the files of all arguments. -/
def takeFiles (d : Draft) (names : List String) : Option Draft :=
  names.foldlM takeFile d

/-- The options of a draft, if it has its file. What was not given has its default. -/
def options? (d : Draft) : Option Options :=
  d.file.map fun file =>
    { file
      mode := d.mode.getD .interpret
      settings :=
        { tapeSize := d.tapeSize.getD ({} : Settings).tapeSize
          policy := d.policy.getD ({} : Settings).policy
          encoding := d.encoding.getD ({} : Settings).encoding }
      maxSteps := d.maxSteps
      debugParse := d.debugParse
      trace := d.trace }

end Draft

/-! ### Command lines -/

/-- What becomes of a command line. -/
inductive Invocation where
  /-- The command line is wrong. -/
  | usageError
  /-- The user asked how the program is used. -/
  | help
  /-- The user asked for the version. -/
  | version
  /-- A program is to be run or printed. -/
  | launch (options : Options)
  deriving DecidableEq, Repr

namespace Invocation

/-- The invocation of a draft that is complete, if it is. -/
def ofDraft (d : Option Draft) : Invocation :=
  match d.bind Draft.options? with
  | some options => .launch options
  | none => .usageError

/-- Reads the arguments behind those of the draft `d`. -/
def read (d : Draft) : List String → Invocation
  | [] => ofDraft (some d)
  | argument :: rest =>
    match Argument.ofString argument with
    | .escape => ofDraft (d.takeFiles rest)
    | .unknown => .usageError
    | .switch .help => .help
    | .switch .version => .version
    | .switch .debugParse =>
      if d.debugParse then .usageError else read { d with debugParse := true } rest
    | .switch .trace =>
      if d.trace then .usageError else read { d with trace := true } rest
    | .plain name =>
      match d.takeFile name with
      | some d => read d rest
      | none => .usageError
    | .setting s (some value) =>
      match d.give s value with
      | some d => read d rest
      | none => .usageError
    | .setting s none =>
      match rest with
      | [] => .usageError
      | next :: rest =>
        match Argument.ofString next with
        | .plain value =>
          match d.give s value with
          | some d => read d rest
          | none => .usageError
        | _ => .usageError

/-- Reads a command line. -/
def ofArguments (arguments : List String) : Invocation :=
  read {} arguments

end Invocation

end CommandLine

end PhraseTape
