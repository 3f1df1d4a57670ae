import Testbench.Proofs.FileSystem.Destination
import Testbench.Proofs.Trace.Recording

/-! A trace into a file, whatever fails on the way, changes that file only. -/
namespace Testbench

open Trace

namespace Recorder

variable {σ : Type} [Sink σ] {α : Type u} {part : σ → α}

theorem start_preserves (preserves : Sink.Preserves part) {signals : List Signal} {sink : σ}
    {recorder : Recorder σ} (started : start signals sink = .ok recorder) :
    part recorder.sink = part sink := by
  have same := preserves.putAll (header signals) sink
  unfold start at started
  split at started <;> rename_i h <;> cases started
  rwa [h] at same

theorem start_error_preserves (preserves : Sink.Preserves part) {signals : List Signal}
    {sink after : σ} {error : IoError} (failed : start signals sink = .error (error, after)) :
    part after = part sink := by
  have same := preserves.putAll (header signals) sink
  unfold start at failed
  split at failed <;> rename_i h <;> cases failed
  rwa [h] at same

theorem putChanges_preserves (preserves : Sink.Preserves part) (wires : List Wire)
    (values last : List UInt64) (sink : σ) :
    part (putChanges wires values last sink).2.2 = part sink := by
  induction wires generalizing values last sink with
  | nil => rw [putChanges_nil_wires]
  | cons wire wires ih =>
    cases values with
    | nil => rw [putChanges_nil_values]
    | cons value values =>
      have first := preserves.putAll (change wire value) sink
      rw [putChanges_cons]
      split
      · exact ih values last.tail sink
      · split <;> rename_i h <;> rw [h] at first
        · exact first
        · exact (ih values last.tail _).trans first

theorem record_preserves (preserves : Sink.Preserves part) (sample : Sample)
    (recorder : Recorder σ) : part (recorder.record sample).2.sink = part recorder.sink := by
  cases sample with
  | initial frame =>
    have begun := preserves.putAll (timestamp 0 ++ baselineStart) recorder.sink
    unfold record recordInitial
    dsimp only
    split <;> rename_i h <;> rw [h] at begun
    · exact begun
    · rename_i middle
      have changed :=
        putChanges_preserves preserves recorder.wires frame.values.toList [] middle
      split <;> rename_i h <;> rw [h] at changed
      · exact changed.trans begun
      · rename_i last
        have ended := preserves.putAll baselineEnd last
        split <;> rename_i h <;> rw [h] at ended <;> exact ended.trans (changed.trans begun)
  | cycle number frame =>
    have begun := preserves.putAll (timestamp number) recorder.sink
    unfold record recordCycle
    dsimp only
    split <;> rename_i h <;> rw [h] at begun
    · exact begun
    · rename_i middle
      have changed :=
        putChanges_preserves preserves recorder.wires frame.values.toList recorder.last middle
      split <;> rename_i h <;> rw [h] at changed <;> exact changed.trans begun

end Recorder

namespace FileRecorder

def WritesTo (path : String) (files : FileSystem) (recorder : FileRecorder) : Prop :=
  ∃ file, FileSystem.Opened files path file ∧ recorder.sink.sink.handle = file.handle

theorem preserves_handle : Sink.Preserves fun buffer : Buffered OpenFile => buffer.sink.handle :=
  Buffered.preserves OpenFile.preserves_handle

variable {path : String} {files : FileSystem} {recorder : FileRecorder}

theorem confined_release {buffer : Buffered OpenFile} {file : OpenFile}
    (opened : FileSystem.Opened files path file) (same : buffer.sink.handle = file.handle) :
    FileSystem.Confined path files buffer.release.close :=
  FileSystem.confined_close opened
    ((Buffered.release_preserves OpenFile.preserves_handle buffer).trans same)

theorem confined_start {signals : List Signal} {fault : Fault} {left : FileSystem}
    {events : List Event} (failed : start path signals files = (.error (fault, left), events)) :
    FileSystem.Confined path files left := by
  unfold start at failed
  split at failed
  · cases failed
    exact .refl path files
  · rename_i file created
    split at failed <;> rename_i h <;> cases failed
    exact confined_release (FileSystem.opened_of_create created)
      (Recorder.start_error_preserves preserves_handle h)

theorem writesTo_start {signals : List Signal} {events : List Event}
    (started : start path signals files = (.ok recorder, events)) :
    recorder.WritesTo path files := by
  unfold start at started
  split at started
  · cases started
  · rename_i file created
    split at started <;> rename_i h <;> cases started
    exact ⟨file, FileSystem.opened_of_create created, Recorder.start_preserves preserves_handle h⟩

theorem WritesTo.record (writes : recorder.WritesTo path files) (sample : Sample) :
    WritesTo path files (Recorder.record sample recorder).2 := by
  obtain ⟨file, opened, same⟩ := writes
  exact ⟨file, opened, (Recorder.record_preserves preserves_handle sample recorder).trans same⟩

theorem WritesTo.confined_abandon (writes : recorder.WritesTo path files) :
    FileSystem.Confined path files (abandon recorder) := by
  obtain ⟨file, opened, same⟩ := writes
  exact confined_release opened same

theorem WritesTo.confined_close (writes : recorder.WritesTo path files) :
    FileSystem.Confined path files (close recorder).2.1 := by
  obtain ⟨file, opened, same⟩ := writes
  have flushed := preserves_handle.flush recorder.sink
  unfold close Recorder.close
  cases h : Sink.flush recorder.sink with
  | mk result buffer =>
    rw [h] at flushed
    cases result <;> exact confined_release opened (flushed.trans same)

end FileRecorder

end Testbench
