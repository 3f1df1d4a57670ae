import Testbench.Proofs.Memory.Load
import Testbench.Proofs.Run.Tracing
import Testbench.Proofs.Trace.File

/-! What can fail a run, and what a run leaves of the files. Only the load before the first clock
edge can fail one, and then nothing has been written or opened yet: the trace is opened behind
the load. A run that goes on touches the file of its trace and that of its dump. -/
namespace Testbench

namespace Capture

def Confined (path : String) (files : FileSystem) : Capture → Prop
  | .idle left => FileSystem.Confined path files left
  | .recording recorder => recorder.WritesTo path files

variable {path : String} {files : FileSystem}

theorem confined_start (path : String) (signals : List Signal) (files : FileSystem) :
    Confined path files (start path signals files) := by
  unfold start
  cases begun : FileRecorder.start path signals files with
  | mk result events =>
    cases result with
    | ok recorder => exact FileRecorder.writesTo_start begun
    | error failure => exact FileRecorder.confined_start begun

theorem Confined.record {capture : Capture} (confined : capture.Confined path files)
    (sample : Trace.Sample) : (capture.record sample).Confined path files := by
  cases capture with
  | idle left => exact confined
  | recording recorder =>
    have writes := FileRecorder.WritesTo.record confined sample
    unfold Capture.record
    dsimp only
    split <;> rename_i h <;> rw [h] at writes
    · exact writes
    · exact writes.confined_abandon

theorem Confined.foldl_record {capture : Capture} (confined : capture.Confined path files)
    (samples : List Trace.Sample) : (samples.foldl Capture.record capture).Confined path files := by
  induction samples generalizing capture with
  | nil => exact confined
  | cons sample rest ih => exact ih (confined.record sample)

theorem Confined.close {capture : Capture} (confined : capture.Confined path files) :
    FileSystem.Confined path files capture.close.2 := by
  cases capture with
  | idle left => exact confined
  | recording recorder =>
    have closed := FileRecorder.WritesTo.confined_close confined
    unfold Capture.close
    dsimp only
    split <;> rename_i h <;> rwa [h] at closed

end Capture

namespace Session

variable {σ : Type u}

theorem confined_tracedCapture (design : Design σ) {config : Config} (files : FileSystem)
    (state : σ) (cycles : Nat) (traced : config.waveform = true) :
    FileSystem.Confined config.tracePath files
      (tracedCapture design config files state cycles).close.2 := by
  unfold tracedCapture
  rw [traced]
  exact ((Capture.confined_start _ _ files).foldl_record _).close

end Session

namespace Bench

variable {σ : Type u} {ω : Type} [Sink ω]

theorem node?_run_of_loaded (bench : Bench σ) (files : FileSystem) (out : ω)
    (loads : (bench.loaded files).1 = .ok ()) (location : Location)
    (untraced : bench.config.waveform = true →
      files.destination? bench.config.tracePath ≠ some location)
    (undumped : ∀ request, bench.config.dump = some request →
      files.destination? request.path ≠ some location) :
    (bench.run files out).files.node? location = files.node? location := by
  obtain ⟨-, others⟩ := Session.simulate_trace bench.design bench.config
    (bench.prepare files out).2 (bench.capture_prepare files out)
  rw [bench.files_run_of_loaded files out loads]
  generalize (bench.prepare files out).2.simulate bench.design bench.config = simulated at *
  cases traced : bench.config.waveform with
  | false =>
    rw [Session.tracedCapture_of_silent bench.design files _ _ traced] at others
    exact others location undumped
  | true =>
    have confined := Session.confined_tracedCapture bench.design files
      (bench.prepare files out).2.state simulated.1.cycles traced
    rw [others location fun request requested => ?_]
    · exact confined.node location (untraced traced)
    · rw [confined.destination]
      exact undumped request requested

theorem run_of_loadFails (bench : Bench σ) {files : FileSystem} (out : ω) {path : String}
    {fault : Fault} {left : Image} (configured : bench.config.initialMemory = some path)
    (fails : (bench.design.memory (bench.design.init bench.state)).LoadFails files path fault
      left) :
    bench.run files out =
      { result := .error fault
        bench := ⟨bench.design, bench.config,
          bench.design.withMemory left (bench.design.init bench.state), .initializing⟩
        files, out
        events := #[.phaseEntered bench.phase .initializing]
        calls := #[.init, .withMemory] } := by
  simp only [run, prepare, configured, Image.load_of_fails fails]
  rfl

theorem loadFails_of_loaded (bench : Bench σ) (files : FileSystem) {fault : Fault}
    (failed : (bench.loaded files).1 = .error fault) :
    ∃ path left, bench.config.initialMemory = some path ∧
      (bench.design.memory (bench.design.init bench.state)).LoadFails files path fault left := by
  unfold loaded at failed
  dsimp only at failed
  split at failed
  · cases failed
  · rename_i path configured
    cases h : ((bench.design.memory (bench.design.init bench.state)).load path files).1 with
    | ok words => rw [h] at failed; cases failed
    | error cause =>
      rw [h] at failed
      cases failed
      obtain ⟨left, fails⟩ := Image.fails_of_load h
      exact ⟨path, left, configured, fails⟩

/-- A run fails exactly if the load of its image does, and with the same fault. The design has
then been initialised and not clocked, its memory is as the load has left it, and neither the
output nor any file has been touched. A run that goes on changes the file of the trace and that
of the dump at most, and these only if they are asked for. -/
theorem run_fails_only_by_load (bench : Bench σ) (files : FileSystem) (out : ω) :
    let design := bench.design
    let config := bench.config
    let memory := design.memory (design.init bench.state)
    let outcome := bench.run files out
    (∀ fault, outcome.result = .error fault ↔
      ∃ path left, config.initialMemory = some path ∧ memory.LoadFails files path fault left) ∧
      (∀ path fault left, config.initialMemory = some path →
        memory.LoadFails files path fault left →
        outcome.bench.state = design.withMemory left (design.init bench.state) ∧
          design.memory outcome.bench.state = left ∧
          outcome.calls.toList = [.init, .withMemory] ∧
          outcome.out = out ∧ outcome.files = files ∧
          outcome.bench.phase = .initializing ∧
          outcome.events.toList = [.phaseEntered bench.phase .initializing]) ∧
      ∀ summary, outcome.result = .ok summary → ∀ location,
        outcome.files.node? location ≠ files.node? location →
        (config.waveform = true ∧ files.destination? config.tracePath = some location) ∨
          ∃ request, config.dump = some request ∧
            files.destination? request.path = some location := by
  intro design config memory outcome
  have ends {path : String} {fault : Fault} {left : Image}
      (configured : config.initialMemory = some path)
      (fails : memory.LoadFails files path fault left) :=
    bench.run_of_loadFails out configured fails
  refine ⟨fun fault => ⟨fun failed => ?_, ?_⟩, ?_, ?_⟩
  · cases h : (bench.loaded files).1 with
    | error cause =>
      obtain ⟨path, left, configured, fails⟩ := bench.loadFails_of_loaded files h
      have same : outcome.result = .error cause := congrArg Outcome.result (ends configured fails)
      cases same.symm.trans failed
      exact ⟨path, left, configured, fails⟩
    | ok _ =>
      have whole : outcome.result = .ok _ := (bench.run_of_loaded files out h).1
      cases whole.symm.trans failed
  · rintro ⟨path, left, configured, fails⟩
    exact congrArg Outcome.result (ends configured fails)
  · intro path fault left configured fails
    have ended : outcome = _ := ends configured fails
    rw [ended]
    exact ⟨rfl, design.memory_withMemory _ _, rfl, rfl, rfl, rfl, rfl⟩
  · intro summary whole location touched
    cases h : (bench.loaded files).1 with
    | error cause =>
      obtain ⟨path, left, configured, fails⟩ := bench.loadFails_of_loaded files h
      have same : outcome.result = .error cause := congrArg Outcome.result (ends configured fails)
      cases same.symm.trans whole
    | ok _ =>
      by_contra elsewhere
      rw [not_or, not_and, not_exists] at elsewhere
      refine touched (bench.node?_run_of_loaded files out h location elsewhere.1 ?_)
      exact fun request requested leads => elsewhere.2 request ⟨requested, leads⟩

/-- The second word of an image is malformed, so the first one is all that happens, although a
trace and a dump are asked for. Without the image, the dump is written. -/
theorem run_fails_only_by_load_of_malformed_word :
    let files := FileSystem.initial.addFile ["image"] "7 zz".toUTF8
    let dump : Dump.Request := ⟨"memory.bin", 0, 8⟩
    let failing : Config := { waveform := true, dump := some dump, initialMemory := some "image" }
    let whole : Config := { dump := some dump, maxCycles := 0 }
    let state := Counter.ofMemory (.zeros 2 (by decide))
    let failed := (ofDesign Counter.design failing state).run files Device.accepting
    let ended := (ofDesign Counter.design whole state).run files Device.accepting
    let fault : Fault := .malformedImage "image" (.invalidWord 1 "zz")
    (failing.initialMemory = some "image" ∧
        state.memory.LoadFails files "image" fault ⟨#[7, 0], by decide⟩ ∧
        failed.result = .error fault ∧ failed.bench.state.memory = ⟨#[7, 0], by decide⟩ ∧
        failed.out = Device.accepting ∧ failed.files = files) ∧
      (∃ summary, ended.result = .ok summary) ∧
        ended.files.node? ["memory.bin", "work"] ≠ files.node? ["memory.bin", "work"] ∧
        files.destination? dump.path = some ["memory.bin", "work"] := by
  intro files dump failing whole state failed ended fault
  have fails : state.memory.LoadFails files "image" fault ⟨#[7, 0], by decide⟩ := by
    exact Image.LoadFails.malformed rfl rfl
  have law := run_fails_only_by_load (ofDesign Counter.design failing state) files Device.accepting
  obtain ⟨-, memory, -, out, same, -, -⟩ := law.2.1 "image" fault _ rfl fails
  have wrote : ended.files.node? ["memory.bin", "work"] =
      some (.file ⟨#[0, 0, 0, 0, 0, 0, 0, 0]⟩) := by
    simp only [ended, whole, dump, state, files]
    rfl
  have absent : files.node? ["memory.bin", "work"] = none := by rfl
  have touched : ended.files.node? ["memory.bin", "work"] ≠ files.node? ["memory.bin", "work"] := by
    rw [wrote, absent]
    exact nofun
  refine ⟨⟨rfl, fails, (law.1 fault).mpr ⟨_, _, rfl, fails⟩, memory, out, same⟩, ⟨_, rfl⟩, touched,
    ?_⟩
  obtain ⟨silent, -⟩ | ⟨request, requested, leads⟩ :=
    (run_fails_only_by_load (ofDesign Counter.design whole state) files Device.accepting).2.2 _ rfl
      ["memory.bin", "work"] touched
  · cases silent
  · cases requested
    exact leads

end Bench

end Testbench
