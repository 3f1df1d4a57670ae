import Testbench.Proofs.Dump.Alike
import Testbench.Proofs.Run.Account
import Testbench.Proofs.Trace.Alike

/-! The same loaded design clocked twice, in front of different files and outputs that answer alike:
what is printed, traced and dumped is the same, and so is what is told about it. -/
namespace Testbench

open Sink

namespace Printout

variable {ω ω' : Type} {related : ω → ω' → Prop}

inductive Twins (related : ω → ω' → Prop) : Printout ω → Printout ω' → Prop
  | same (echo : Bool) {one : ω} {two : ω'} (behind : related one two) :
    Twins related ⟨one, echo⟩ ⟨two, echo⟩

variable [Sink ω] [Sink ω'] {one : Printout ω} {two : Printout ω'}

theorem print_alike (alike : Alike related) (line : String) (twins : Twins related one two) :
    Twins related (one.print line) (two.print line) := by
  obtain @⟨echo, out, out', behind⟩ := twins
  cases echo with
  | false => exact .same false behind
  | true =>
    have written := alike.put (line ++ "\n").toUTF8 behind
    unfold print
    dsimp only
    generalize Sink.put (line ++ "\n").toUTF8 out = first at *
    generalize Sink.put (line ++ "\n").toUTF8 out' = second at *
    obtain ⟨answer, still⟩ := written
    cases answer <;> exact .same _ still

theorem foldl_print_alike (alike : Alike related) (lines : List String)
    (twins : Twins related one two) :
    Twins related (lines.foldl print one) (lines.foldl print two) := by
  induction lines generalizing one two with
  | nil => exact twins
  | cons line rest ih => exact ih (print_alike alike line twins)

theorem report_alike (alike : Alike related) (cycles : Nat) (twins : Twins related one two) :
    related (one.report cycles) (two.report cycles) := by
  obtain @⟨echo, out, out', behind⟩ := twins
  have written := alike.put ("ran for " ++ Text.decimal cycles ++ " cycles\n").toUTF8 behind
  unfold report
  dsimp only
  generalize Sink.put ("ran for " ++ Text.decimal cycles ++ " cycles\n").toUTF8 out = first at *
  generalize Sink.put ("ran for " ++ Text.decimal cycles ++ " cycles\n").toUTF8 out' = second at *
  obtain ⟨-, still⟩ := written
  exact still

end Printout

namespace Capture

variable {path : String} {files others : FileSystem} {one two : Capture}

/-- Two traces of the same run, both under way or both at an end. -/
inductive InStep (path : String) (files others : FileSystem) : Capture → Capture → Prop
  | idle {left left' : FileSystem} (step : FileSystem.InStep [path] files others left left') :
    InStep path files others (.idle left) (.idle left')
  | recording {file file' : OpenFile} {recorder recorder' : FileRecorder}
    (created : files.create path = .ok file) (created' : others.create path = .ok file')
    (alike : Alike (OpenFile.Twins file.handle file'.handle))
    (twins : Recorder.Twins (Buffered.Twins (OpenFile.Twins file.handle file'.handle))
      recorder recorder') : InStep path files others (.recording recorder) (.recording recorder')

theorem inStep_release {file file' : OpenFile} (created : files.create path = .ok file)
    (created' : others.create path = .ok file')
    (alike : Alike (OpenFile.Twins file.handle file'.handle)) {buffer buffer' : Buffered OpenFile}
    (twins : Buffered.Twins (OpenFile.Twins file.handle file'.handle) buffer buffer') :
    FileSystem.InStep [path] files others buffer.release.close buffer'.release.close :=
  (FileSystem.InStep.start files others).close created created'
    (Buffered.release_alike alike twins)

theorem inStep_start (answers : files.answers path = others.answers path)
    (signals : List Signal) :
    InStep path files others (start path signals files) (start path signals others) := by
  unfold start FileRecorder.start
  cases created : files.create path with
  | error _ =>
    obtain ⟨_, created'⟩ := FileSystem.error_of_answers answers created
    rw [created']
    exact .idle ((FileSystem.InStep.start files others).refused created)
  | ok file =>
    obtain ⟨file', created', alike⟩ := FileSystem.created_of_answers answers created
    have empty : Buffered.Twins (OpenFile.Twins file.handle file'.handle) (.ofSink file)
        (.ofSink file') := .same _ (FileSystem.twins_of_created created created')
    have started := Recorder.start_alike (Buffered.alike alike) signals empty
    rw [created']
    dsimp only
    generalize Recorder.start signals (Buffered.ofSink file) = first at *
    generalize Recorder.start signals (Buffered.ofSink file') = second at *
    cases started with
    | started twins => exact .recording created created' alike twins
    | refused _ still => exact .idle (inStep_release created created' alike still)

theorem InStep.record (step : InStep path files others one two) (sample : Trace.Sample) :
    InStep path files others (one.record sample) (two.record sample) := by
  cases step with
  | idle step => exact .idle step
  | @recording file file' recorder recorder' created created' alike twins =>
    have recorded := Recorder.record_alike (Buffered.alike alike) sample twins
    unfold Capture.record
    dsimp only
    generalize recorder.record sample = first at *
    generalize recorder'.record sample = second at *
    obtain ⟨answer, still⟩ := recorded
    cases answer with
    | ok _ => exact .recording created created' alike still
    | error _ =>
      obtain ⟨_, _, _, behind⟩ := still
      exact .idle (inStep_release created created' alike behind)

theorem InStep.foldl_record (step : InStep path files others one two)
    (samples : List Trace.Sample) :
    InStep path files others (samples.foldl Capture.record one)
      (samples.foldl Capture.record two) := by
  induction samples generalizing one two with
  | nil => exact step
  | cons sample rest ih => exact ih (step.record sample)

theorem InStep.close (step : InStep path files others one two) :
    one.close.1 = two.close.1 ∧
      FileSystem.InStep [path] files others one.close.2 two.close.2 := by
  cases step with
  | idle step => exact ⟨rfl, step⟩
  | @recording file file' recorder recorder' created created' alike twins =>
    have closed := Recorder.close_alike (Buffered.alike alike) twins
    unfold Capture.close FileRecorder.close
    dsimp only
    generalize Recorder.close recorder = first at *
    generalize Recorder.close recorder' = second at *
    obtain ⟨answer, still⟩ := closed
    have released := inStep_release created created' alike still
    cases answer <;> exact ⟨rfl, released⟩

end Capture

theorem Image.dumpIf_alike (image : Image) {request : Option Dump.Request} {paths : List String}
    {files others left left' : FileSystem} (step : FileSystem.InStep paths files others left left')
    (answers : ∀ asked, request = some asked →
      files.answers asked.path = others.answers asked.path) :
    (image.dumpIf request left).1 = (image.dumpIf request left').1 ∧
      FileSystem.InStep (paths ++ (request.map (·.path)).toList) files others
        (image.dumpIf request left).2 (image.dumpIf request left').2 := by
  cases request with
  | none => exact ⟨rfl, (List.append_nil paths).symm ▸ step⟩
  | some request =>
    obtain ⟨report, written⟩ := image.dump_alike step (answers request rfl)
    exact ⟨congrArg some report, written⟩

namespace Design

variable {σ : Type u} {ω ω' : Type} [Sink ω] [Sink ω'] {related : ω → ω' → Prop} {out : ω}
  {out' : ω'} {files others : FileSystem}

theorem tracedCapture_alike (design : Design σ) (config : Config) (loaded : σ) (cycles : Nat)
    (answers : config.waveform = true →
      files.answers config.tracePath = others.answers config.tracePath) :
    let one := (Session.tracedCapture design config files loaded cycles).close
    let two := (Session.tracedCapture design config others loaded cycles).close
    one.1 = two.1 ∧ FileSystem.InStep (if config.waveform then [config.tracePath] else [])
      files others one.2 two.2 := by
  intro one two
  cases traced : config.waveform with
  | false =>
    simp only [one, two, Session.tracedCapture_of_silent design _ _ _ traced]
    exact ⟨rfl, .start files others⟩
  | true =>
    simp only [one, two, Session.tracedCapture, traced, if_true]
    exact ((Capture.inStep_start (answers traced) _).foldl_record _).close

/-- A loaded design in front of storage and an output that answer alike: the same account of it,
the same text on the output and the same contents in the files. -/
theorem account_alike (design : Design σ) (config : Config) (loaded : σ) (cycles : Nat)
    (halted : Bool) (alike : Alike related) (start : related out out')
    (answers : ∀ path ∈ config.outputs, files.answers path = others.answers path) :
    let one := design.account config loaded cycles halted files out
    let two := design.account config loaded cycles halted others out'
    one.summary = two.summary ∧ one.state = two.state ∧ related one.out two.out ∧
      FileSystem.InStep config.outputs files others one.files two.files := by
  have opens (traced : config.waveform = true) :
      files.answers config.tracePath = others.answers config.tracePath :=
    answers _ (by simp [Config.outputs, traced])
  have dumps (request : Dump.Request) (asked : config.dump = some request) :
      files.answers request.path = others.answers request.path :=
    answers _ (by simp [Config.outputs, asked])
  obtain ⟨records, traced⟩ := design.tracedCapture_alike config loaded cycles opens
  obtain ⟨report, dumped⟩ := Image.dumpIf_alike
    (design.memory ((design.tick false)^[cycles] (design.tick true loaded))) traced dumps
  refine ⟨?_, rfl, ?_, dumped⟩
  · show Summary.mk _ _ _ _ = Summary.mk _ _ _ _
    rw [records, report]
  · exact Printout.report_alike alike cycles
      (Printout.foldl_print_alike alike _ (.same config.echoState start))

end Design

end Testbench
