import Testbench.Text.Layout
import Testbench.Text.Number
import Testbench.Sink
import Testbench.Sink.Device
import Testbench.Sink.Buffered
import Testbench.FileSystem
import Testbench.Memory.Image
import Testbench.Memory.HexText
import Testbench.Memory.Dump
import Testbench.Memory.Load
import Testbench.Design.Bundled
import Testbench.Design.Script
import Testbench.Trace.Recorder
import Testbench.Config.DumpSpec
import Testbench.Config.Json
import Testbench.Run
import Testbench.CommandLine
import Testbench.Main
import Testbench.Proofs.Accumulator.Machine
import Testbench.Proofs.Accumulator.WriteLog
import Testbench.Proofs.Run.Law
import Testbench.Proofs.Run.Observation
import Testbench.Proofs.Run.Tracing
import Testbench.Proofs.HexText.Placement
import Testbench.Proofs.Sink.Accepting
import Testbench.Proofs.Dump.Range
import Testbench.Proofs.Dump.Adjacent
import Testbench.Proofs.Sink.Limited
import Testbench.Proofs.Dump.Failing
import Testbench.Proofs.Sink.Faithful
import Testbench.Proofs.FileSystem.Destination
import Testbench.Proofs.Dump.File
import Testbench.Proofs.Trace.Complete
import Testbench.Proofs.Trace.Frames
import Testbench.Proofs.Trace.Identifier
import Testbench.Proofs.Trace.Format
import Testbench.Proofs.Trace.Delta
import Testbench.Proofs.Trace.Recording
import Testbench.Proofs.Counter.Filling
import Testbench.Proofs.Counter.Wrapping
import Testbench.Proofs.Trace.File
import Testbench.Proofs.Run.Failure
import Testbench.Proofs.Run.Account
import Testbench.Proofs.Text.Layout
import Testbench.Proofs.HexText.Position
import Testbench.Proofs.HexText.FirstDefect
import Testbench.Proofs.HexText.Composition
import Testbench.Proofs.HexText.Rendering
import Testbench.Proofs.Memory.RoundTrip
import Testbench.Proofs.Dump.Specification
import Testbench.Proofs.Run.Budget
import Testbench.Proofs.Run.Output
import Testbench.Proofs.Sink.Alike
import Testbench.Proofs.Trace.Alike
import Testbench.Proofs.Dump.Alike
import Testbench.Proofs.Run.Lockstep
import Testbench.Proofs.Memory.Coverage
import Testbench.Proofs.Run.History
import Testbench.Proofs.Json.Grammar
import Testbench.Proofs.Json.Quoted
import Testbench.Proofs.Json.Skip
import Testbench.Proofs.Json.Reading
import Testbench.Proofs.Json.Record
import Testbench.Proofs.Json.Schema
import Testbench.Proofs.Config.Settings
import Testbench.Proofs.Json.Rendering
import Testbench.Proofs.Config.Recovery
import Testbench.Proofs.Json.Sequence
import Testbench.Proofs.Config.Sequence
import Testbench.Proofs.Run.Announcement
import Testbench.Proofs.Run.FinalDump
import Testbench.Proofs.CommandLine.Merge
import Testbench.Proofs.CommandLine.Spelling
import Testbench.Proofs.CommandLine.Invocation
import Testbench.Proofs.Design.Operation
import Testbench.Proofs.Design.Reset
import Testbench.Proofs.Accumulator.Consistency
import Testbench.Proofs.Design.Quiescence
import Testbench.Proofs.Design.Phases
import Testbench.Proofs.Trace.Fitting
import Testbench.Proofs.Design.Wiring
import Testbench.Proofs.Run.Retention
import Testbench.Proofs.Trace.Failing
import Testbench.Proofs.Sink.Honest
import Testbench.Proofs.Trace.Torn
import Testbench.Proofs.Trace.Memory
import Testbench.Proofs.Accumulator.Countdown
import Testbench.Proofs.Accumulator.StateLine
import Testbench.Proofs.Memory.Trapping
import Testbench.Proofs.HexText.Trapping
import Testbench.Proofs.Memory.Uses
