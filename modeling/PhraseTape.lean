import PhraseTape.CommandLine.Launch
import PhraseTape.Main
import PhraseTape.Proofs.Source.Grammar
import PhraseTape.Proofs.Source.RoundTrip
import PhraseTape.Proofs.Source.Apart
import PhraseTape.Proofs.Source.LineBreak
import PhraseTape.Proofs.Source.LineEnds
import PhraseTape.Proofs.Program.Jumps
import PhraseTape.Proofs.Program.Mirror
import PhraseTape.Proofs.Run.Store
import PhraseTape.Proofs.Run.Course
import PhraseTape.Proofs.Structured.Evaluation
import PhraseTape.Proofs.Run.Concatenation
import PhraseTape.Proofs.Run.Lockstep
import PhraseTape.Proofs.Run.Policy
import PhraseTape.Proofs.Run.Deliveries
import PhraseTape.Proofs.Run.Moments
import PhraseTape.Proofs.Run.Calls
import PhraseTape.Proofs.Run.Printing
import PhraseTape.Proofs.Run.Parts
import PhraseTape.Proofs.Run.Landing
import PhraseTape.Proofs.Run.Access
import PhraseTape.Proofs.Run.Growth
import PhraseTape.Proofs.Run.Questions
import PhraseTape.Proofs.Run.Counter
import PhraseTape.Proofs.Run.LoopTests
import PhraseTape.Proofs.Run.Consoles
import PhraseTape.Proofs.Text.FirstCharacter
import PhraseTape.Proofs.Run.Encodings
import PhraseTape.Proofs.Run.Wheel
import PhraseTape.Proofs.Structured.Simulation
import PhraseTape.Proofs.Console.Reading
import PhraseTape.Proofs.Run.Failures
import PhraseTape.Proofs.Console.Mending
import PhraseTape.Proofs.Run.Limits
import PhraseTape.Proofs.Run.ReaderFailures
import PhraseTape.Proofs.Run.WriterFailures
import PhraseTape.Proofs.Run.StraightLine
import PhraseTape.Proofs.Run.Duration
import PhraseTape.Proofs.Run.Inputs
import PhraseTape.Proofs.Run.ReadBack
import PhraseTape.Proofs.Tape.Arithmetic
import PhraseTape.Proofs.Tape.Writes
import PhraseTape.Proofs.Run.Frame
import PhraseTape.Proofs.Source.Amounts
import PhraseTape.Proofs.Run.Flushes
