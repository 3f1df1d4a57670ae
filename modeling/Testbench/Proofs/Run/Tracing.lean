import Testbench.Proofs.Dump.File
import Testbench.Proofs.Run.Law
import Testbench.Proofs.Trace.Complete
import Testbench.Proofs.Trace.Frames

/-! The trace of a run. What a run does to its trace depends on nothing but the samples it
takes, one after the reset and one after each cycle, the halting one included; the first
record that fails ends the trace for good. A trace that is counted at the end has therefore
taken every sample, and a reader of its file finds each of them. -/
namespace Testbench

open Trace

namespace Capture

def start (path : String) (signals : List Signal) (files : FileSystem) : Capture :=
  match (FileRecorder.start path signals files).1 with
  | .ok recorder => .recording recorder
  | .error (_, files) => .idle files

def record (capture : Capture) (sample : Sample) : Capture :=
  match capture with
  | .idle files => .idle files
  | .recording recorder =>
    match recorder.record sample with
    | (.ok _, recorder) => .recording recorder
    | (.error _, recorder) => .idle (FileRecorder.abandon recorder)

def close : Capture → Option Nat × FileSystem
  | .idle files => (none, files)
  | .recording recorder =>
    match FileRecorder.close recorder with
    | (.ok records, files, _) => (some records, files)
    | (.error _, files, _) => (none, files)

theorem foldl_record_idle (samples : List Sample) (files : FileSystem) :
    samples.foldl record (.idle files) = .idle files := by
  induction samples with
  | nil => rfl
  | cons sample rest ih => exact ih

theorem foldl_record_eq_recording_iff (samples : List Sample) (started last : FileRecorder) :
    samples.foldl record (.recording started) = .recording last ↔
      started.recordAll samples = (List.replicate samples.length (.ok ()), last) := by
  induction samples generalizing started with
  | nil => simp [Recorder.recordAll]
  | cons sample rest ih =>
    rw [List.foldl_cons, Recorder.recordAll, List.length_cons, List.replicate_succ]
    cases recorded : started.record sample with
    | mk result next =>
      cases result with
      | ok _ => simp [record, recorded, ih, Prod.ext_iff]
      | error _ => simp [record, recorded, foldl_record_idle]

theorem close_recording_eq_some_iff (last : FileRecorder) (records : Nat) (closed : FileSystem) :
    (Capture.recording last).close = (some records, closed) ↔
      ∃ events, FileRecorder.close last = (.ok records, closed, events) := by
  unfold close
  dsimp only
  split <;> rename_i ended <;> rw [ended] <;> simp

/-- A trace is counted if and only if all of it has been written. -/
theorem close_eq_some_iff (path : String) (signals : List Signal) (samples : List Sample)
    (files : FileSystem) (records : Nat) (closed : FileSystem) :
    (samples.foldl record (start path signals files)).close = (some records, closed) ↔
      FileRecorder.Completes path signals samples files records closed := by
  unfold start
  constructor
  · intro counted
    cases begun : FileRecorder.start path signals files with
    | mk result opened =>
      rw [begun] at counted
      cases result with
      | error _ => rw [foldl_record_idle] at counted; cases counted
      | ok started =>
        dsimp only at counted
        cases reached : samples.foldl record (.recording started) with
        | idle _ => rw [reached] at counted; cases counted
        | recording last =>
          rw [reached, close_recording_eq_some_iff] at counted
          obtain ⟨events, ended⟩ := counted
          exact ⟨started, opened, last, events, begun,
            (foldl_record_eq_recording_iff samples started last).mp reached, ended⟩
  · rintro ⟨started, opened, last, events, begun, recorded, ended⟩
    rw [begun]
    dsimp only
    rw [(foldl_record_eq_recording_iff samples started last).mpr recorded,
      close_recording_eq_some_iff]
    exact ⟨events, ended⟩

end Capture

namespace Session

variable {σ : Type u} {ω : Type}

theorem capture_openTrace (design : Design σ) (config : Config) (session : Session σ ω) :
    (session.openTrace design config).capture =
      if config.waveform then
        .start config.tracePath (design.signals session.state) session.capture.release
      else session.capture := by
  unfold openTrace Capture.start
  split
  · dsimp only
    split <;> rename_i h <;> rw [h]
  · rfl

theorem capture_recordWith (design : Design σ) (sample : Frame → Sample)
    (failed : IoError → Event) (session : Session σ ω) :
    (session.recordWith design (fun frame recorder => recorder.record (sample frame))
        failed).capture =
      session.capture.record (sample (design.sample session.state)) := by
  unfold recordWith Capture.record
  cases captured : session.capture with
  | idle _ => exact captured
  | recording recorder =>
    dsimp only
    cases recorder.record (sample (design.sample session.state)) with
    | mk result _ => cases result <;> rfl

theorem capture_recordBaseline (design : Design σ) (session : Session σ ω) :
    (session.recordBaseline design).capture =
      session.capture.record (.initial (design.sample session.state)) :=
  capture_recordWith design .initial _ session

theorem capture_record (design : Design σ) (cycle : Nat) (session : Session σ ω) :
    (session.record design cycle).capture =
      session.capture.record (.cycle cycle (design.sample session.state)) :=
  capture_recordWith design (.cycle cycle) _ session

theorem capture_checkHalt (design : Design σ) (number : Nat) (session : Session σ ω) :
    (session.checkHalt design number).2.capture = session.capture := by
  unfold checkHalt
  dsimp only
  split <;> rfl

theorem closeTrace_eq (session : Session σ ω) :
    session.closeTrace.1 = session.capture.close.1 ∧
      session.closeTrace.2.capture = .idle session.capture.close.2 := by
  unfold closeTrace Capture.close
  cases captured : session.capture with
  | idle _ => exact ⟨rfl, captured⟩
  | recording recorder =>
    dsimp only
    cases FileRecorder.close recorder with
    | mk result _ => cases result <;> exact ⟨rfl, rfl⟩

variable [Sink ω]

theorem capture_printState (design : Design σ) (session : Session σ ω) :
    (session.printState design).capture = session.capture := by
  unfold printState
  split
  · dsimp only
    split <;> rfl
  · rfl

theorem capture_cycle (design : Design σ) (number : Nat) (session : Session σ ω) :
    (session.cycle design number).capture =
      session.capture.record (.cycle number (design.sample (design.tick false session.state))) := by
  have printed := congrArg Core.state (core_printState design (session.clock design false))
  have state : ((session.clock design false).printState design).state =
      design.tick false session.state := printed
  unfold cycle
  rw [capture_record, capture_printState, state]
  rfl

theorem capture_round (design : Design σ) (number : Nat) (session : Session σ ω) :
    (session.round design number).capture =
      session.capture.record (.cycle number (design.sample (design.tick false session.state))) :=
  (capture_checkHalt design number _).trans (capture_cycle design number session)

theorem capture_loop (design : Design σ) (budget done : Nat) (session : Session σ ω) :
    (session.loop design budget done).2.2.capture =
      (cycleSamples (fun c => design.sample ((design.tick false)^[c] session.state)) done
        (design.cyclesWithin budget session.state)).foldl Capture.record session.capture := by
  -- The rest of the loop starts one tick later, so its first frame is the second one here.
  induction budget generalizing done session with
  | zero => rfl
  | succ budget ih =>
    have sampled := capture_round design (done + 1) session
    rw [loop_succ, design.cyclesWithin_succ]
    split
    · exact sampled
    · rw [ih, state_round, sampled, cycleSamples_succ]
      rfl

omit [Sink ω] in
theorem node?_dumpMemory_of_ne (design : Design σ) (config : Config) (session : Session σ ω)
    {location : Location}
    (apart : ∀ request, config.dump = some request →
      session.capture.release.destination? request.path ≠ some location) :
    (session.dumpMemory design config).2.capture.release.node? location =
      session.capture.release.node? location := by
  unfold dumpMemory
  split
  · rfl
  · rename_i request requested
    exact Image.node?_dump_of_ne _ (apart request requested)

theorem capture_report (cycles : Nat) (halted : Bool) (session : Session σ ω) :
    (session.report cycles halted).capture = session.capture := by
  unfold report
  dsimp only
  split <;> rfl

/-- The trace with all samples of a run, as it is closed at the end. -/
def tracedCapture (design : Design σ) (config : Config) (files : FileSystem) (state : σ)
    (cycles : Nat) : Capture :=
  let start := design.tick true state
  (runSamples (fun c => design.sample ((design.tick false)^[c] start)) cycles).foldl
    Capture.record
    (if config.waveform then .start config.tracePath (design.signals state) files
      else .idle files)

omit [Sink ω] in
theorem capture_reset (design : Design σ) (config : Config) {session : Session σ ω}
    {files : FileSystem} (idle : session.capture = .idle files) :
    (session.reset design config).capture =
      (if config.waveform then
        .start config.tracePath (design.signals session.state) files
      else .idle files : Capture).record
        (.initial (design.sample (design.tick true session.state))) := by
  have opened := capture_openTrace design config session
  have still := congrArg Core.state (core_openTrace design config session)
  have state : (session.openTrace design config).state = session.state := still
  rw [idle] at opened
  unfold reset
  show (Session.recordBaseline design _).capture = _
  rw [capture_recordBaseline]
  show (Session.openTrace design config session).capture.record
    (.initial (design.sample (design.tick true (session.openTrace design config).state))) = _
  rw [opened, state]
  rfl

omit [Sink ω] in
theorem tracedCapture_of_silent (design : Design σ) {config : Config} (files : FileSystem)
    (state : σ) (cycles : Nat) (silent : config.waveform = false) :
    tracedCapture design config files state cycles = .idle files := by
  unfold tracedCapture
  rw [silent]
  exact Capture.foldl_record_idle _ files

omit [Sink ω] in
theorem tracedCapture_completes_iff (design : Design σ) {config : Config} (files : FileSystem)
    (state : σ) (cycles : Nat) (traced : config.waveform = true) (records : Nat)
    (closed : FileSystem) :
    (tracedCapture design config files state cycles).close = (some records, closed) ↔
      FileRecorder.Completes config.tracePath (design.signals state)
        (runSamples (fun c => design.sample ((design.tick false)^[c] (design.tick true state)))
          cycles)
        files records closed := by
  unfold tracedCapture
  rw [traced]
  exact Capture.close_eq_some_iff ..

theorem simulate_trace (design : Design σ) (config : Config) (session : Session σ ω)
    {files : FileSystem} (idle : session.capture = .idle files) :
    let simulated := session.simulate design config
    let traced := (tracedCapture design config files session.state simulated.1.cycles).close
    simulated.1.traceRecords = traced.1 ∧
      ∀ location, (∀ request, config.dump = some request →
          traced.2.destination? request.path ≠ some location) →
        simulated.2.capture.release.node? location = traced.2.node? location := by
  intro simulated traced
  have started := congrArg Core.state (core_reset design config session)
  have state : (session.reset design config).state = design.tick true session.state := started
  have cycles : simulated.1.cycles = design.cyclesWithin config.maxCycles.toNat _ :=
    (simulate_core design config session).1
  have looped := capture_loop design config.maxCycles.toNat 0 (session.reset design config)
  rw [state, capture_reset design config idle, ← cycles] at looped
  let last := (session.reset design config).loop design config.maxCycles.toNat 0
  have reached : last.2.2.capture =
      tracedCapture design config files session.state simulated.1.cycles := looped
  obtain ⟨counted, closed⟩ := closeTrace_eq (last.2.2.enter .draining)
  have same : (last.2.2.enter .draining).capture.close = traced :=
    congrArg Capture.close reached
  rw [same] at counted closed
  refine ⟨counted, fun location apart => ?_⟩
  let drained := ((last.2.2.enter .draining).closeTrace.2.enter .dumping : Session σ ω)
  have released : drained.capture.release = traced.2 := congrArg Capture.release closed
  have dumped : (drained.dumpMemory design config).2.capture.release.node? location =
      drained.capture.release.node? location := by
    apply node?_dumpMemory_of_ne
    rw [released]
    exact apart
  rw [released] at dumped
  simp only [simulated, simulate_eq, capture_report]
  exact dumped

end Session

namespace Bench

variable {σ : Type u} {ω : Type}

theorem capture_prepare (bench : Bench σ) (files : FileSystem) (out : ω) :
    (bench.prepare files out).2.capture = .idle files := by
  unfold prepare
  dsimp only
  split <;> rfl

variable [Sink ω]

theorem files_run_of_loaded (bench : Bench σ) (files : FileSystem) (out : ω)
    (loads : (bench.loaded files).1 = .ok ()) :
    (bench.run files out).files =
      ((bench.prepare files out).2.simulate bench.design bench.config).2.capture.release :=
  congrArg Outcome.files (bench.run_eq_of_loaded files out loads)

/-- A trace is counted exactly if it was opened and took its header, the frame after the reset,
the frame after each cycle up to the halting one and the last flush. Its file, unless the dump
has gone there too, then holds all these frames. Without a trace no file but that of the dump
is touched. -/
theorem run_traces_every_cycle (bench : Bench σ) (files : FileSystem) (out : ω)
    (loads : (bench.loaded files).1 = .ok ()) :
    let config := bench.config
    let signals := bench.design.signals (bench.loaded files).2
    let start := bench.design.tick true (bench.loaded files).2
    let frame := fun c => bench.design.sample ((bench.design.tick false)^[c] start)
    let outcome := bench.run files out
    let dumped := fun location =>
      ∃ request, config.dump = some request ∧ files.destination? request.path = some location
    ∃ summary, outcome.result = .ok summary ∧
      (summary.halted = true → bench.design.HaltsAfter start summary.cycles) ∧
      (config.waveform = false → summary.traceRecords = none ∧
        ∀ location, ¬dumped location → outcome.files.node? location = files.node? location) ∧
      (config.waveform = true → ∀ records,
        (summary.traceRecords = some records ↔
          ∃ closed, FileRecorder.Completes config.tracePath signals
            (runSamples frame summary.cycles) files records closed) ∧
        (summary.traceRecords = some records →
          records = summary.cycles + 1 ∧
          ∃ location, files.destination? config.tracePath = some location ∧
            (¬dumped location → files.node? location ≠ some .device →
              (∀ c ≤ summary.cycles, (frame c).size = signals.length) →
              ∃ contents, outcome.files.node? location = some (.file contents) ∧
                Traces signals frame summary.cycles contents))) := by
  intro config signals start frame outcome dumped
  have result := (bench.run_of_loaded files out loads).1
  have left : outcome.files = _ := bench.files_run_of_loaded files out loads
  have prepared := congrArg Core.state (bench.prepare_core files out).2
  have state : (bench.prepare files out).2.state = (bench.loaded files).2 := prepared
  obtain ⟨cycles, halts, -⟩ := Session.simulate_core bench.design config (bench.prepare files out).2
  obtain ⟨counted, others⟩ := Session.simulate_trace bench.design config
    (bench.prepare files out).2 (bench.capture_prepare files out)
  rw [state] at cycles halts counted others
  rw [left]
  generalize (bench.prepare files out).2.simulate bench.design bench.config = simulated at *
  refine ⟨simulated.1, result, fun halted => ?_, fun silent => ?_, fun traced records => ?_⟩
  · rw [halts] at halted
    rw [cycles]
    exact bench.design.haltsAfter_cyclesWithin _ _ halted
  · rw [Session.tracedCapture_of_silent bench.design files _ _ silent] at counted others
    refine ⟨counted, fun location apart => ?_⟩
    exact others location fun request requested leads => apart ⟨request, requested, leads⟩
  · have complete := Session.tracedCapture_completes_iff bench.design files (bench.loaded files).2
      simulated.1.cycles traced records
    generalize (Session.tracedCapture bench.design config files (bench.loaded files).2
      simulated.1.cycles).close = ended at counted others complete
    obtain ⟨total, closed⟩ := ended
    rw [counted]
    -- The close gives one answer, so a count stands for a trace that completes, and back.
    refine ⟨⟨fun counts => ?_, fun ⟨_, completes⟩ => ?_⟩, fun counts => ?_⟩
    · exact ⟨closed, (complete closed).mp (congrArg (·, closed) counts)⟩
    · exact congrArg Prod.fst ((complete _).mpr completes)
    · obtain ⟨count, same, location, leads, holds⟩ :=
        FileRecorder.traces_of_completes ((complete closed).mp (congrArg (·, closed) counts))
      refine ⟨count, location, leads, fun apart regular whole => ?_⟩
      rw [others location fun request requested led =>
        apart ⟨request, requested, (same request.path).symm.trans led⟩]
      exact holds regular whole

theorem run_traces_every_cycle_of_counter :
    let files := FileSystem.initial
    let config : Config := { waveform := true, dump := some ⟨"memory.bin", 0, 8⟩ }
    let state := Counter.ofMemory (.zeros 2 (by decide))
    let bench := ofDesign Counter.design config state
    let start := Counter.design.tick true (bench.loaded files).2
    let frame := fun c => Counter.sample ((Counter.design.tick false)^[c] start)
    (bench.loaded files).1 = .ok () ∧ config.waveform = true ∧
      ∃ summary contents, (bench.run files Device.accepting).result = .ok summary ∧
        summary.traceRecords = some (summary.cycles + 1) ∧
        (bench.run files Device.accepting).files.node? ["trace.vcd", "work"] =
          some (.file contents) ∧
        Traces Counter.signals frame summary.cycles contents := by
  intro files config state bench start frame
  obtain ⟨summary, result, -, -, traced⟩ :=
    run_traces_every_cycle bench files Device.accepting rfl
  have created : FileSystem.initial.create "trace.vcd" =
      .ok ⟨FileSystem.initial, ["trace.vcd", "work"], true, ByteArray.empty, 0⟩ := by rfl
  have fresh : FileSystem.initial.node? ["trace.vcd", "work"] = none := by rfl
  have elsewhere : FileSystem.initial.destination? "memory.bin" = some ["memory.bin", "work"] := by
    rfl
  obtain ⟨closed, completes⟩ := FileRecorder.completes_of_unlimited created (fun _ => rfl)
    Counter.signals (runSamples frame summary.cycles)
  obtain ⟨counted, complete⟩ := traced rfl (runSamples frame summary.cycles).length
  have counts := counted.mpr ⟨closed, completes⟩
  obtain ⟨count, location, leads, holds⟩ := complete counts
  rw [count] at counts
  have here : location = ["trace.vcd", "work"] :=
    Option.some.inj (leads.symm.trans (FileSystem.opened_of_create created).destination)
  subst here
  have apart : ¬∃ request, config.dump = some request ∧
      files.destination? request.path = some ["trace.vcd", "work"] := by
    rintro ⟨request, requested, same⟩
    cases requested
    exact absurd (elsewhere.symm.trans same) (by decide)
  have regular : files.node? ["trace.vcd", "work"] ≠ some .device := by
    rw [show files.node? _ = none from fresh]
    exact nofun
  obtain ⟨contents, kept, traces⟩ := holds apart regular fun c _ => Counter.size_sample _
  exact ⟨rfl, rfl, summary, contents, result, counts, kept, traces⟩

end Bench

end Testbench
