import PhraseTape.CommandLine.Dump
import PhraseTape.CommandLine.Options
import PhraseTape.Run.Execute

/-!
# Launching a program from the command line

The program file is read, its instructions are shown if that was asked for, and the program is run
or printed. A failure at any point ends the launch; what was printed until then stays, and the
failure is reported last.

## Main definitions

* `FileContent`, `OsFailure` : what a file system answers.
* `ProgramError` : the failures of a launch, and the line that reports each.
* `CommandLine.load` : the program in a file.
* `CommandLine.observer` : the observer that traces and limits a run.
* `Exit` : what a launch leaves.
* `CommandLine.launch`, `CommandLine.run` : a launch, and a whole command line.
-/

namespace PhraseTape.CommandLine

/-- A failure of the file system. -/
structure OsFailure where
  code : Nat
  label : String
  message : String

namespace OsFailure

/-- There is no such file. -/
def notFound : OsFailure :=
  ⟨2, "NotFound", "No such file or directory"⟩

/-- The file may not be read. -/
def permissionDenied : OsFailure :=
  ⟨13, "PermissionDenied", "Permission denied"⟩

/-- The file is a directory. -/
def isDirectory : OsFailure :=
  ⟨21, "IsADirectory", "Is a directory"⟩

end OsFailure

/-- What a file system answers when it is asked for a file. -/
inductive FileContent where
  | bytes (content : ByteArray)
  | failure (reason : OsFailure)

/-- The failures of a launch. -/
inductive ProgramError where
  /-- The file cannot be read. -/
  | os (reason : OsFailure)
  /-- The file is not text. -/
  | notText
  /-- The text is no program. -/
  | parse (error : ParseError)
  /-- The run stopped with a fault. -/
  | execution (fault : Fault)

/-- The failure by its name. -/
def ProgramError.dump : ProgramError → String
  | .os reason =>
    "IoError(" ++ dumpRecord "Os"
      [("code", toString reason.code), ("kind", reason.label), ("message", quote reason.message)]
      ++ ")"
  | .notText =>
    "IoError(" ++ dumpRecord "Error"
      [("kind", IoErrorKind.invalidData.label),
        ("message", quote "stream did not contain valid UTF-8")] ++ ")"
  | .parse e => "ParserError(" ++ e.dump ++ ")"
  | .execution f => "ExecutionError(" ++ f.dump ++ ")"

/-- The line that reports a failure. -/
def ProgramError.report (e : ProgramError) : String :=
  "Error: " ++ e.dump ++ "\n"

/-- The program in a file. -/
def load : FileContent → Except ProgramError Program
  | .failure reason => .error (.os reason)
  | .bytes content =>
    match String.fromUTF8? content with
    | none => .error .notText
    | some source =>
      match Program.parse source with
      | .ok program => .ok program
      | .error e => .error (.parse e)

/-- What the program says about its version. -/
def versionText : String :=
  "iguk 0.1.0\n"

/-- What the program says about its use. -/
def helpText : String :=
  Dump.text
    [ "An interpreter for the iGuk esoteric language",
      "",
      "Usage: iguk [OPTIONS] <INPUT_FILE>",
      "",
      "Arguments:",
      "  <INPUT_FILE>  Input iGuk source file",
      "",
      "Options:",
      "  -m, --mode <MODE>                        interpret (default) or tokens",
      "  -t, --tape-size <TAPE_SIZE>              Number of tape cells [default: 30000]",
      "  -p, --pointer-policy <POINTER_POLICY>    error (default) or wrap",
      "      --output-encoding <OUTPUT_ENCODING>  utf8 (default) or byte",
      "      --max-steps <N>                      Abort after executing this many instructions",
      "      --debug-parse                        Enable debug output for the tokeniser",
      "      --trace                              Trace every executed instruction",
      "  -h, --help                               Print help",
      "  -V, --version                            Print version" ]

/-! ### Runs -/

/-- The notes of a run from the command line: what was traced, and the number of instructions. -/
abbrev Notes := Array String × Nat

/-- The observer of a run from the command line. The instruction that the limit refuses is traced
too. -/
def observer (o : Options) : Observer Notes :=
  Observer.also (if o.trace then Observer.noting Moment.dump else fun _ notes => (.proceed, notes))
    (Observer.exceeding o.maxSteps)

/-- What a launch leaves behind. -/
structure Exit where
  code : Nat
  stdout : List UInt8 := []
  stderr : String := ""

/-- The text of the instructions that were read, if it was asked for. -/
def parseDump (o : Options) (program : Program) : String :=
  if o.debugParse then program.dumpHeaded else ""

/-- The exit after a run. A run that came to its end without a fault is a success. -/
def exitOf (before : String) (report : Report Notes) : Exit :=
  let stdout := report.session.console.output
  let shown := before ++ String.join report.notes.1.toList
  match report.status.result with
  | .ok () => ⟨0, stdout, shown⟩
  | .error f => ⟨1, stdout, shown ++ ProgramError.report (.execution f)⟩

/-- A launch with the given options, of at most `fuel` instructions, on a file and an input. -/
def launch (fuel : Nat) (o : Options) (file : FileContent) (stdin : List UInt8) : Exit :=
  match load file with
  | .error e => ⟨1, [], e.report⟩
  | .ok program =>
    match o.mode with
    | .tokens => ⟨0, program.text.toUTF8.toList, parseDump o program⟩
    | .interpret =>
      exitOf (parseDump o program)
        ((Session.ofSettings program o.settings (Console.ofBytes stdin)).execute (observer o) fuel
          (#[], 0))

/-- A whole command line, on a file system and an input. -/
def run (fuel : Nat) (arguments : List String) (files : String → FileContent)
    (stdin : List UInt8) : Exit :=
  match Invocation.ofArguments arguments with
  | .usageError => ⟨2, [], ""⟩
  | .help => ⟨0, helpText.toUTF8.toList, ""⟩
  | .version => ⟨0, versionText.toUTF8.toList, ""⟩
  | .launch o => launch fuel o (files o.file) stdin

end PhraseTape.CommandLine
