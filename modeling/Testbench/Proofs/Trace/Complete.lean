import Testbench.Proofs.FileSystem.Destination
import Testbench.Proofs.Trace.Frames
import Testbench.Proofs.Trace.Recording

/-! Complete traces: every call of the recorder has succeeded. Then the file holds all that was
recorded, although the sink behind it may fail, because a success means that the text of the
call has been taken. -/
namespace Testbench

open Trace

namespace Recorder

variable {σ : Type} [Sink σ] {invariant : σ → Prop} {contents : σ → ByteArray}

theorem putChanges_faithful (faithful : Sink.Faithful invariant contents) {wires : List Wire}
    {values last overwritten : List UInt64} {sink after : σ} (holds : invariant sink)
    (written : putChanges wires values last sink = (.ok (), overwritten, after)) :
    overwritten = overwrite wires values last ∧
      Sink.Took invariant contents (renderLines ((delta wires values last).map .change))
        sink after := by
  induction wires generalizing values last overwritten sink with
  | nil =>
    rw [putChanges_nil_wires] at written
    cases written
    rw [overwrite_nil_wires, delta_nil_wires]
    exact ⟨rfl, .nothing holds⟩
  | cons wire wires ih =>
    cases values with
    | nil =>
      rw [putChanges_nil_values] at written
      cases written
      rw [overwrite_nil_values, delta_nil_values]
      exact ⟨rfl, .nothing holds⟩
    | cons value values =>
      rw [putChanges_cons] at written
      rw [overwrite_cons, delta_cons]
      by_cases same : last.head? = some value
      · rw [if_pos same] at written ⊢
        cases others : putChanges wires values last.tail sink with
        | mk result rest =>
          rw [others] at written
          cases written
          obtain ⟨rest, took⟩ := ih holds others
          exact ⟨congrArg (value :: ·) rest, took⟩
      · rw [if_neg same] at written ⊢
        split at written
        · cases written
        · rename_i middle first
          have one := faithful.putAll holds first
          rw [characters_change] at one
          cases others : putChanges wires values last.tail middle with
          | mk result rest =>
            rw [others] at written
            cases written
            obtain ⟨rest, two⟩ := ih one.ready others
            rw [List.map_append]
            exact ⟨congrArg (value :: ·) rest, took_append one two⟩

theorem record_faithful (faithful : Sink.Faithful invariant contents) {sample : Sample}
    {recorder after : Recorder σ} (holds : invariant recorder.sink)
    (recorded : recorder.record sample = (.ok (), after)) :
    after = { recorder with
        sink := after.sink
        last := sample.written recorder.wires recorder.last
        records := recorder.records + 1 } ∧
      Sink.Took invariant contents
        (renderLines (sample.record recorder.wires recorder.last).lines)
        recorder.sink after.sink := by
  cases sample with
  | initial frame =>
    unfold record recordInitial at recorded
    dsimp only at recorded
    split at recorded
    · cases recorded
    · rename_i begun
      have one := faithful.putAll holds begun
      split at recorded
      · cases recorded
      · rename_i changed
        obtain ⟨rfl, two⟩ := putChanges_faithful faithful one.ready changed
        split at recorded
        · cases recorded
        · rename_i ended
          cases recorded
          have three := faithful.putAll two.ready ended
          rw [Sink.characters_append, characters_timestamp, characters_baselineStart,
            ← renderLines_append] at one
          rw [characters_baselineEnd] at three
          exact ⟨rfl, took_append one (took_append two three)⟩
  | cycle number frame =>
    unfold record recordCycle at recorded
    dsimp only at recorded
    split at recorded
    · cases recorded
    · rename_i begun
      have one := faithful.putAll holds begun
      split at recorded
      · cases recorded
      · rename_i changed
        cases recorded
        obtain ⟨rfl, two⟩ := putChanges_faithful faithful one.ready changed
        rw [characters_timestamp] at one
        exact ⟨rfl, took_append one two⟩

theorem recordAll_faithful (faithful : Sink.Faithful invariant contents) {samples : List Sample}
    {recorder after : Recorder σ} (holds : invariant recorder.sink)
    (recorded : recorder.recordAll samples = (List.replicate samples.length (.ok ()), after)) :
    after.records = recorder.records + samples.length ∧
      Sink.Took invariant contents (render (encode recorder.wires recorder.last samples))
        recorder.sink after.sink := by
  induction samples generalizing recorder with
  | nil =>
    cases recorded
    exact ⟨rfl, .nothing holds⟩
  | cons sample rest ih =>
    cases first : recorder.record sample with
    | mk result next =>
      rw [recordAll, first, List.length_cons, List.replicate_succ] at recorded
      have parts := Prod.mk.inj recorded
      obtain ⟨ok, oks⟩ := List.cons.inj parts.1
      cases ok
      obtain ⟨shape, one⟩ := record_faithful faithful holds first
      obtain ⟨count, two⟩ := ih one.ready (Prod.ext oks parts.2)
      rw [shape] at count two
      refine ⟨?_, took_append one two⟩
      rw [count, List.length_cons]
      dsimp only
      omega

theorem start_faithful (faithful : Sink.Faithful invariant contents) {signals : List Signal}
    {sink : σ} {started : Recorder σ} (holds : invariant sink)
    (opened : start signals sink = .ok started) :
    started = ⟨started.sink, Trace.wires signals, [], 0⟩ ∧
      Sink.Took invariant contents (Sink.characters (header signals)) sink started.sink := by
  unfold start at opened
  split at opened
  · rename_i written
    cases opened
    exact ⟨rfl, faithful.putAll holds written⟩
  · cases opened

end Recorder

namespace FileRecorder

/-- The trace file is opened and takes its header, every record and the last flush. -/
def Completes (path : String) (signals : List Signal) (samples : List Sample)
    (files : FileSystem) (records : Nat) (closed : FileSystem) : Prop :=
  ∃ started opened last events,
    start path signals files = (.ok started, opened) ∧
      Recorder.recordAll samples started = (List.replicate samples.length (.ok ()), last) ∧
      close last = (.ok records, closed, events)

theorem file_of_completes {path : String} {signals : List Signal} {samples : List Sample}
    {files closed : FileSystem} {records : Nat}
    (completes : Completes path signals samples files records closed) :
    records = samples.length ∧
      ∃ file final, FileSystem.Opened files path file ∧ OpenFile.handle final = file.handle ∧
        closed = final.close ∧
        final.contents = (Sink.characters (header signals) ++
          render (encode (Trace.wires signals) [] samples)).utf8Encode := by
  obtain ⟨started, opened, last, events, begun, recorded, ended⟩ := completes
  unfold start at begun
  split at begun
  · cases begun
  · rename_i file created
    have behind := OpenFile.faithful file.handle
    have faithful := Buffered.faithful behind
    have fresh := FileSystem.opened_of_create created
    split at begun
    · cases begun
    · rename_i headed
      cases begun
      obtain ⟨shape, header⟩ := Recorder.start_faithful faithful rfl headed
      obtain ⟨count, all⟩ := Recorder.recordAll_faithful faithful header.ready recorded
      rw [shape] at count all
      have took := header.append all
      unfold close Recorder.close at ended
      cases flushed : Sink.flush last.sink with
      | mk result buffer =>
        rw [flushed] at ended
        cases result with
        | error _ => cases ended
        | ok _ =>
          obtain ⟨kept, written, empty⟩ := Buffered.flush_faithful behind took.ready flushed
          cases ended
          -- The flush has emptied the buffer: what was taken is what the file holds.
          refine ⟨by rw [count]; exact Nat.zero_add _, file, buffer.sink, fresh, kept, ?_, ?_⟩
          · rw [Buffered.release_of_empty empty]
          · rw [written, took.contents_eq, Buffered.taken, Buffered.ofSink, fresh.empty,
              ByteArray.append_empty, ByteArray.empty_append]

/-- The file of a complete trace of a run holds all frames, unless it is a device, which keeps
nothing. Every path leads where it led before. -/
theorem traces_of_completes {path : String} {signals : List Signal} {frame : Nat → Frame}
    {cycles records : Nat} {files closed : FileSystem}
    (completes : Completes path signals (runSamples frame cycles) files records closed) :
    records = cycles + 1 ∧ (∀ other, closed.destination? other = files.destination? other) ∧
      ∃ location, files.destination? path = some location ∧
        (files.node? location ≠ some .device →
          (∀ c ≤ cycles, (frame c).size = signals.length) →
          ∃ contents, closed.node? location = some (.file contents) ∧
            Traces signals frame cycles contents) := by
  obtain ⟨count, file, final, opened, same, rfl, contents⟩ := file_of_completes completes
  refine ⟨count.trans length_runSamples, FileSystem.destination?_close opened same,
    file.location, opened.destination, fun regular whole => ?_⟩
  refine ⟨final.contents, FileSystem.node?_close opened same regular, ?_⟩
  rw [contents]
  exact traces_encode signals frame cycles whole

theorem completes_of_unlimited {path : String} {files : FileSystem} {file : OpenFile}
    (created : files.create path = .ok file) (unlimited : file.Unlimited)
    (signals : List Signal) (samples : List Sample) :
    ∃ closed, Completes path signals samples files samples.length closed := by
  have behind := Buffered.reliable OpenFile.reliable
  have ready : (Buffered.ofSink file).sink.Unlimited := unlimited
  obtain ⟨headed, header, took⟩ := behind.toAccepting.putAll (Trace.header signals) ready
  obtain ⟨written, recorded, all⟩ := Recorder.recordAll_accepting behind.toAccepting samples
    ⟨headed, Trace.wires signals, [], 0⟩ took.ready
  obtain ⟨flushed, settled, -⟩ := behind.flush written all.ready
  refine ⟨flushed.release.close, _, [.traceOpened path signals.length], _,
    [.traceClosed samples.length], ?_, recorded, ?_⟩
  · rw [start, created]
    dsimp only
    rw [Recorder.start, header]
  · rw [close, Recorder.close, settled, Nat.zero_add]

end FileRecorder

end Testbench
