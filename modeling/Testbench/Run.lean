import Testbench.Config
import Testbench.Trace.Recorder

/-! A run: initialise the design, reset it for one tick, clock it until it raises halt
or the budget is spent, then close the trace, dump memory and report. Only the initial
load can fail a run. Trouble with an output is announced once and costs that output
alone, never a clock edge. -/
namespace Testbench

structure Summary where
  cycles : Nat
  halted : Bool
  /-- The records of the trace, if all of them reached it. -/
  traceRecords : Option Nat
  dump : Option Dump.Report
  deriving DecidableEq, Repr

/-- While a trace is written it holds the file system. -/
inductive Capture where
  | idle (files : FileSystem)
  | recording (recorder : FileRecorder)

def Capture.release : Capture → FileSystem
  | .idle files => files
  | .recording recorder => FileRecorder.abandon recorder

structure Session (σ : Type u) (ω : Type) where
  state : σ
  capture : Capture
  out : ω
  echo : Bool
  phase : Phase
  events : Array Event
  calls : Array Call

namespace Session

variable {σ : Type u} {ω : Type}

def enter (phase : Phase) (session : Session σ ω) : Session σ ω :=
  { session with phase, events := session.events.push (.phaseEntered session.phase phase) }

def clock (design : Design σ) (reset : Bool) (session : Session σ ω) : Session σ ω :=
  { session with
    state := design.tick reset session.state
    calls := session.calls.push (.stepLow reset) |>.push (.stepHigh reset) }

def openTrace (design : Design σ) (config : Config) (session : Session σ ω) : Session σ ω :=
  if config.waveform then
    let signals := design.signals session.state
    let calls := session.calls.push .signals
    match FileRecorder.start config.tracePath signals session.capture.release with
    | (.ok recorder, opened) =>
      { session with capture := .recording recorder, events := session.events ++ opened, calls }
    | (.error (fault, files), _) =>
      { session with
        capture := .idle files, events := session.events.push (.traceUnavailable fault), calls }
  else session

/-- Writes a record if a trace is open. The first one to fail ends the trace. -/
def recordWith (design : Design σ)
    (write : Frame → FileRecorder → Except IoError Unit × FileRecorder)
    (failed : IoError → Event) (session : Session σ ω) : Session σ ω :=
  match session.capture with
  | .idle _ => session
  | .recording recorder =>
    let calls := session.calls.push .sample
    match write (design.sample session.state) recorder with
    | (.ok _, recorder) => { session with capture := .recording recorder, calls }
    | (.error error, recorder) =>
      { session with
        capture := .idle (FileRecorder.abandon recorder)
        events := session.events.push (failed error), calls }

def recordBaseline (design : Design σ) : Session σ ω → Session σ ω :=
  recordWith design Recorder.recordInitial .baselineFailed

def record (design : Design σ) (cycle : Nat) : Session σ ω → Session σ ω :=
  recordWith design (Recorder.recordCycle cycle) (.recordFailed cycle)

variable [Sink ω]

def printState (design : Design σ) (session : Session σ ω) : Session σ ω :=
  if session.echo then
    let calls := session.calls.push .stateLine
    match Sink.put (design.stateLine session.state ++ "\n").toUTF8 session.out with
    | (.ok _, out) => { session with out, calls }
    | (.error error, out) =>
      { session with
        out, echo := false, events := session.events.push (.stateLineFailed error), calls }
  else session

def cycle (design : Design σ) (number : Nat) (session : Session σ ω) : Session σ ω :=
  ((session.clock design false).printState design).record design number

def checkHalt (design : Design σ) (number : Nat) (session : Session σ ω) :
    Bool × Session σ ω :=
  let calls := session.calls.push .halted
  if design.halted session.state then
    (true, { session with
      events := session.events.push (.designHalted number (design.name session.state)), calls })
  else (false, { session with calls })

/-- Runs cycles until halt, at most `budget` more, on top of those `done`. -/
def loop (design : Design σ) : (budget done : Nat) → Session σ ω → Nat × Bool × Session σ ω
  | 0, done, session => (done, false, session)
  | budget + 1, done, session =>
    match (session.cycle design (done + 1)).checkHalt design (done + 1) with
    | (true, session) => (done + 1, true, session)
    | (false, session) => loop design budget (done + 1) session

omit [Sink ω] in
def closeTrace (session : Session σ ω) : Option Nat × Session σ ω :=
  match session.capture with
  | .idle _ => (none, session)
  | .recording recorder =>
    match FileRecorder.close recorder with
    | (.ok records, files, closed) =>
      (some records, { session with capture := .idle files, events := session.events ++ closed })
    | (.error error, files, _) =>
      (none, { session with
        capture := .idle files, events := session.events.push (.traceIncomplete error) })

omit [Sink ω] in
def dumpMemory (design : Design σ) (config : Config) (session : Session σ ω) :
    Option Dump.Report × Session σ ω :=
  match config.dump with
  | none => (none, session)
  | some request =>
    match (design.memory session.state).dump request session.capture.release with
    | (report, files, dumped) =>
      (some report, { session with
        capture := .idle files, events := session.events ++ dumped
        calls := session.calls.push .memory })

def report (cycles : Nat) (halted : Bool) (session : Session σ ω) : Session σ ω :=
  let events := session.events.push (.runFinished cycles halted)
  match Sink.put ("ran for " ++ Text.decimal cycles ++ " cycles\n").toUTF8 session.out with
  | (.ok _, out) => { session with out, events }
  | (.error error, out) => { session with out, events := events.push (.reportFailed error) }

def simulate (design : Design σ) (config : Config) (session : Session σ ω) :
    Summary × Session σ ω :=
  let session := (session.openTrace design config).enter .resetting
  let session := ((session.clock design true).recordBaseline design).enter .running
  match session.loop design config.maxCycles.toNat 0 with
  | (cycles, halted, session) =>
    match (session.enter .draining).closeTrace with
    | (traceRecords, session) =>
      match (session.enter .dumping).dumpMemory design config with
      | (dump, session) =>
        (⟨cycles, halted, traceRecords, dump⟩,
          (session.enter .terminated).report cycles halted)

end Session

/-- A design with the options for its runs. State and phase stay from run to run. -/
structure Bench (σ : Type u) where
  design : Design σ
  config : Config
  state : σ
  phase : Phase

structure Outcome (σ : Type u) (ω : Type) where
  result : Except Fault Summary
  bench : Bench σ
  files : FileSystem
  out : ω
  events : Array Event
  calls : Array Call

namespace Bench

variable {σ : Type u} {ω : Type}

def ofDesign (design : Design σ) (config : Config) (state : σ) : Bench σ :=
  ⟨design, config, state, .configuring⟩

def prepare (bench : Bench σ) (files : FileSystem) (out : ω) :
    Except Fault Unit × Session σ ω :=
  let ⟨design, config, state, phase⟩ := bench
  let state := design.init state
  let events := #[.phaseEntered phase .initializing]
  match config.initialMemory with
  | none =>
    (.ok (), ⟨state, .idle files, out, config.echoState, .initializing, events, #[.init]⟩)
  | some path =>
    match (design.memory state).load path files with
    | (result, image, loaded) =>
      (result.map fun _ => (),
        ⟨design.withMemory image state, .idle files, out, config.echoState, .initializing,
          events ++ loaded, #[.init, .withMemory]⟩)

variable [Sink ω]

def run (bench : Bench σ) (files : FileSystem) (out : ω) : Outcome σ ω :=
  let design := bench.design
  let config := bench.config
  let finish := fun (result : Except Fault Summary) (session : Session σ ω) =>
    { result, bench := ⟨design, config, session.state, session.phase⟩,
      files := session.capture.release, out := session.out, events := session.events,
      calls := session.calls : Outcome σ ω }
  match bench.prepare files out with
  | (.error fault, session) => finish (.error fault) session
  | (.ok _, session) =>
    match session.simulate design config with
    | (summary, session) => finish (.ok summary) session

end Bench

end Testbench
