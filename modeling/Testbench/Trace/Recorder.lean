import Testbench.Event
import Testbench.FileSystem
import Testbench.Sink.Buffered
import Testbench.Trace.ValueChange

/-! A recorder writes samples of the declared signals to a trace: a full baseline,
then per cycle only what changed. It remembers a value only once it has been written
completely, so after a failed write the next record repeats what was lost. -/
namespace Testbench

structure Recorder (σ : Type) where
  sink : σ
  wires : List Trace.Wire
  /-- The value last written for each wire, in order; it may stop early. -/
  last : List UInt64
  records : Nat

namespace Recorder

variable {σ : Type} [Sink σ]

/-- Declares the signals. A sink that refuses the header is handed back. -/
def start (signals : List Signal) (sink : σ) : Except (IoError × σ) (Recorder σ) :=
  match Sink.putAll (Trace.header signals) sink with
  | (.ok _, sink) => .ok ⟨sink, Trace.wires signals, [], 0⟩
  | (.error error, sink) => .error (error, sink)

def signalCount (recorder : Recorder σ) : Nat :=
  recorder.wires.length

def description (recorder : Recorder σ) : String :=
  let wire := fun (wire : Trace.Wire) =>
    "TraceVar \x7b id: IdCode(" ++ Text.decimal wire.number ++ "), width: " ++
      Text.decimal wire.width ++ " \x7d"
  "WaveformRecorder \x7b vars: [" ++ ", ".intercalate (recorder.wires.map wire) ++
    "], records: " ++ Text.decimal recorder.records ++ ", .. \x7d"

/-- Writes the values that differ from the last ones, and returns the last ones as they
are then. Values without a wire are left out. -/
def putChanges : List Trace.Wire → List UInt64 → (last : List UInt64) → σ →
    Except IoError Unit × List UInt64 × σ
  | wire :: wires, value :: values, [], sink =>
    match Sink.putAll (Trace.change wire value) sink with
    | (.error error, sink) => (.error error, [], sink)
    | (.ok _, sink) =>
      match putChanges wires values [] sink with
      | (result, last, sink) => (result, value :: last, sink)
  | wire :: wires, value :: values, old :: last, sink =>
    if old = value then
      match putChanges wires values last sink with
      | (result, last, sink) => (result, old :: last, sink)
    else
      match Sink.putAll (Trace.change wire value) sink with
      | (.error error, sink) => (.error error, old :: last, sink)
      | (.ok _, sink) =>
        match putChanges wires values last sink with
        | (result, last, sink) => (result, value :: last, sink)
  | _, _, last, sink => (.ok (), last, sink)

def recordInitial (frame : Frame) (recorder : Recorder σ) : Except IoError Unit × Recorder σ :=
  match Sink.putAll (Trace.timestamp 0 ++ Trace.baselineStart) recorder.sink with
  | (.error error, sink) => (.error error, { recorder with sink })
  | (.ok _, sink) =>
    match putChanges recorder.wires frame.values.toList [] sink with
    | (.error error, last, sink) => (.error error, { recorder with sink, last })
    | (.ok _, last, sink) =>
      match Sink.putAll Trace.baselineEnd sink with
      | (.error error, sink) => (.error error, { recorder with sink, last })
      | (.ok _, sink) => (.ok (), { recorder with sink, last, records := recorder.records + 1 })

def recordCycle (cycle : Nat) (frame : Frame) (recorder : Recorder σ) :
    Except IoError Unit × Recorder σ :=
  match Sink.putAll (Trace.timestamp cycle) recorder.sink with
  | (.error error, sink) => (.error error, { recorder with sink })
  | (.ok _, sink) =>
    match putChanges recorder.wires frame.values.toList recorder.last sink with
    | (.error error, last, sink) => (.error error, { recorder with sink, last })
    | (.ok _, last, sink) =>
      (.ok (), { recorder with sink, last, records := recorder.records + 1 })

def close (recorder : Recorder σ) : Except IoError Nat × σ :=
  match Sink.flush recorder.sink with
  | (.ok _, sink) => (.ok recorder.records, sink)
  | (.error error, sink) => (.error error, sink)

end Recorder

abbrev FileRecorder := Recorder (Buffered OpenFile)

namespace FileRecorder

def start (path : String) (signals : List Signal) (files : FileSystem) :
    Except (Fault × FileSystem) FileRecorder × List Event :=
  match files.create path with
  | .error error => (.error (.traceOpen path error, files), [])
  | .ok file =>
    match Recorder.start signals (Buffered.ofSink file) with
    | .error (error, buffer) => (.error (.traceOpen path error, buffer.release.close), [])
    | .ok recorder => (.ok recorder, [.traceOpened path signals.length])

/-- Gives a trace up. What is still buffered reaches the file if it can. -/
def abandon (recorder : FileRecorder) : FileSystem :=
  recorder.sink.release.close

def close (recorder : FileRecorder) : Except IoError Nat × FileSystem × List Event :=
  match Recorder.close recorder with
  | (.ok records, buffer) => (.ok records, buffer.release.close, [.traceClosed records])
  | (.error error, buffer) => (.error error, buffer.release.close, [])

end FileRecorder

end Testbench
