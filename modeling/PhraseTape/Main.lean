import PhraseTape.CommandLine.Launch

/-!
# The program

The outer layer of the command line: it reads the file, hands lines of input to a run when the run
asks for them, and writes what the run has printed. Everything else is decided elsewhere.
-/

namespace PhraseTape.CommandLine

/-- A file of the file system. -/
def readProgramFile (path : String) : IO FileContent := do
  try
    return .bytes (← IO.FS.readBinFile path)
  catch
    | .noFileOrDirectory .. => return .failure .notFound
    | .permissionDenied .. => return .failure .permissionDenied
    | .inappropriateType .. => return .failure .isDirectory
    | e => throw e

/-- The bytes up to and with the next line feed, or up to the end of the input. -/
partial def readInputLine (stdin : IO.FS.Stream) (collected : ByteArray) : IO (List UInt8) := do
  let next ← stdin.read 1
  if next.isEmpty then
    return collected.toList
  else if next[0]? == some lineFeed then
    return (collected ++ next).toList
  else
    readInputLine stdin (collected ++ next)

/-- Shows what a run has printed and traced since it was last shown. -/
def showProgress (report : Report Notes) : IO Unit := do
  (← IO.getStderr).putStr (String.join report.notes.1.toList)
  let stdout ← IO.getStdout
  stdout.write (ByteArray.mk report.session.console.output.toArray)
  if report.session.console.transcript.flushes ≠ 0 then
    stdout.flush

/-- Carries out a run instruction by instruction, and shows what it does at once. -/
partial def drive (o : Options) (notes : Notes) (s : Session) : IO (Except Fault Unit) := do
  let mut s := s
  if s.awaitsLine (observer o) notes then
    s := s.supply (← readInputLine (← IO.getStdin) .empty)
  let report := s.execute (observer o) 1 notes
  showProgress report
  match report.status with
  | .stopped result => return result
  | .running => drive o (#[], report.notes.2) report.session.forget

/-- Launches a program. -/
def launchFile (o : Options) : IO UInt32 := do
  let stderr ← IO.getStderr
  match load (← readProgramFile o.file) with
  | .error e =>
    stderr.putStr e.report
    return 1
  | .ok program =>
    stderr.putStr (parseDump o program)
    match o.mode with
    | .tokens =>
      (← IO.getStdout).putStr program.text
      return 0
    | .interpret =>
      match ← drive o (#[], 0) (Session.ofSettings program o.settings {}) with
      | .ok () => return 0
      | .error f =>
        stderr.putStr (ProgramError.report (.execution f))
        return 1

end PhraseTape.CommandLine

open PhraseTape.CommandLine in
/-- Runs the command line. -/
def main (arguments : List String) : IO UInt32 := do
  match Invocation.ofArguments arguments with
  | .usageError =>
    (← IO.getStderr).putStr "error: the arguments are not understood; try '--help'\n"
    return 2
  | .help =>
    (← IO.getStdout).putStr helpText
    return 0
  | .version =>
    (← IO.getStdout).putStr versionText
    return 0
  | .launch o => launchFile o
