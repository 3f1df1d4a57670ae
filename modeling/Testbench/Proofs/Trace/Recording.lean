import Testbench.Trace.Recorder
import Testbench.Proofs.Trace.Delta

/-! What a recorder writes to a sink that never refuses a write: the header, then one
record for each call, from which a reader gets the samples back. -/
namespace Testbench

open Trace

variable {σ : Type} [Sink σ]

namespace Recorder

def record (sample : Sample) (recorder : Recorder σ) : Except IoError Unit × Recorder σ :=
  match sample with
  | .initial frame => recorder.recordInitial frame
  | .cycle number frame => recorder.recordCycle number frame

def recordAll : List Sample → Recorder σ → List (Except IoError Unit) × Recorder σ
  | [], recorder => ([], recorder)
  | sample :: rest, recorder =>
    ((recorder.record sample).1 :: (recordAll rest (recorder.record sample).2).1,
      (recordAll rest (recorder.record sample).2).2)

theorem putChanges_nil_wires (values last : List UInt64) (sink : σ) :
    putChanges [] values last sink = (.ok (), last, sink) := by
  unfold putChanges
  rfl

theorem putChanges_nil_values (wires : List Wire) (last : List UInt64) (sink : σ) :
    putChanges wires [] last sink = (.ok (), last, sink) := by
  cases wires <;> rfl

theorem putChanges_cons (wire : Wire) (wires : List Wire) (value : UInt64)
    (values last : List UInt64) (sink : σ) :
    putChanges (wire :: wires) (value :: values) last sink =
      if last.head? = some value then
        match putChanges wires values last.tail sink with
        | (result, last, sink) => (result, value :: last, sink)
      else match Sink.putAll (change wire value) sink with
        | (.error error, sink) => (.error error, last, sink)
        | (.ok _, sink) => match putChanges wires values last.tail sink with
          | (result, last, sink) => (result, value :: last, sink) := by
  cases last with
  | nil =>
    rw [putChanges, if_neg (by simp)]
    rfl
  | cons old last =>
    rw [putChanges, List.head?_cons, List.tail_cons]
    by_cases same : old = value
    · rw [if_pos same, if_pos (congrArg some same), same]
    · rw [if_neg same]
      exact (if_neg (mt Option.some.inj same)).symm

variable {accepts : σ → Prop} {contents : σ → ByteArray}

omit [Sink σ] in
theorem took_append {first second : List Line} {sink middle after : σ}
    (one : Sink.Took accepts contents (renderLines first) sink middle)
    (two : Sink.Took accepts contents (renderLines second) middle after) :
    Sink.Took accepts contents (renderLines (first ++ second)) sink after := by
  rw [renderLines_append]
  exact one.append two

theorem putChanges_accepting (accepting : Sink.Accepting accepts contents) (wires : List Wire)
    (values last : List UInt64) {sink : σ} (ready : accepts sink) :
    ∃ after, putChanges wires values last sink = (.ok (), overwrite wires values last, after) ∧
      Sink.Took accepts contents (renderLines ((delta wires values last).map .change))
        sink after := by
  induction wires generalizing values last sink with
  | nil =>
    refine ⟨sink, ?_, ?_⟩
    · rw [putChanges_nil_wires, overwrite_nil_wires]
    · rw [delta_nil_wires]
      exact .nothing ready
  | cons wire wires ih =>
    cases values with
    | nil =>
      refine ⟨sink, ?_, ?_⟩
      · rw [putChanges_nil_values, overwrite_nil_values]
      · rw [delta_nil_values]
        exact .nothing ready
    | cons value values =>
      rw [putChanges_cons, overwrite_cons, delta_cons]
      by_cases same : last.head? = some value
      · obtain ⟨after, others, took⟩ := ih values last.tail ready
        refine ⟨after, ?_, ?_⟩
        · rw [if_pos same, others]
        · rw [if_pos same]
          exact took
      · obtain ⟨middle, first, one⟩ := accepting.putAll (change wire value) ready
        obtain ⟨after, others, two⟩ := ih values last.tail one.ready
        refine ⟨after, ?_, ?_⟩
        · rw [if_neg same, first]
          dsimp only
          rw [others]
        · rw [if_neg same, List.map_append]
          rw [characters_change] at one
          exact took_append one two

theorem record_accepting (accepting : Sink.Accepting accepts contents) (sample : Sample)
    (recorder : Recorder σ) (ready : accepts recorder.sink) :
    ∃ after, recorder.record sample = (.ok (), { recorder with
        sink := after
        last := sample.written recorder.wires recorder.last
        records := recorder.records + 1 }) ∧
      Sink.Took accepts contents
        (renderLines (sample.record recorder.wires recorder.last).lines) recorder.sink after := by
  cases sample with
  | initial frame =>
    obtain ⟨opened, begun, one⟩ := accepting.putAll (timestamp 0 ++ baselineStart) ready
    obtain ⟨dumped, changed, two⟩ :=
      putChanges_accepting accepting recorder.wires frame.values.toList [] one.ready
    obtain ⟨after, ended, three⟩ := accepting.putAll baselineEnd two.ready
    refine ⟨after, ?_, ?_⟩
    · rw [record, recordInitial, begun]
      dsimp only
      rw [changed]
      dsimp only
      rw [ended]
      rfl
    · rw [Sink.characters_append, characters_timestamp, characters_baselineStart,
        ← renderLines_append] at one
      rw [characters_baselineEnd] at three
      exact took_append one (took_append two three)
  | cycle number frame =>
    obtain ⟨opened, begun, one⟩ := accepting.putAll (timestamp number) ready
    obtain ⟨after, changed, two⟩ :=
      putChanges_accepting accepting recorder.wires frame.values.toList recorder.last one.ready
    refine ⟨after, ?_, ?_⟩
    · rw [record, recordCycle, begun]
      dsimp only
      rw [changed]
      rfl
    · rw [characters_timestamp] at one
      exact took_append one two

theorem recordAll_accepting (accepting : Sink.Accepting accepts contents)
    (samples : List Sample) (recorder : Recorder σ) (ready : accepts recorder.sink) :
    ∃ after, recorder.recordAll samples = (List.replicate samples.length (.ok ()),
        { recorder with
          sink := after
          last := writtenAll recorder.wires recorder.last samples
          records := recorder.records + samples.length }) ∧
      Sink.Took accepts contents (render (encode recorder.wires recorder.last samples))
        recorder.sink after := by
  induction samples generalizing recorder with
  | nil => exact ⟨recorder.sink, rfl, .nothing ready⟩
  | cons sample rest ih =>
    obtain ⟨middle, first, one⟩ := record_accepting accepting sample recorder ready
    obtain ⟨after, others, two⟩ := ih (recorder.record sample).2 (by rw [first]; exact one.ready)
    refine ⟨after, ?_, ?_⟩
    · rw [recordAll, others, first, List.length_cons, List.replicate_succ]
      simp only [Nat.add_assoc, Nat.add_comm 1]
      rfl
    · rw [first] at two
      exact took_append one two

/-- Whatever is supplied, the text behind the header is read in one way only, as one record
for each call, and what these say is what was supplied. -/
theorem recordAll_decodes (accepting : Sink.Accepting accepts contents) (signals : List Signal)
    (sink : σ) (ready : accepts sink) :
    ∃ started, start signals sink = .ok started ∧
      Sink.Took accepts contents (Sink.characters (header signals)) sink started.sink ∧
      ∀ samples, ∃ text records after,
        started.recordAll samples = (List.replicate samples.length (.ok ()), after) ∧
        after.records = samples.length ∧
        Sink.Took accepts contents text started.sink after.sink ∧
        read? text = some records ∧
        (∀ others, render others = text ↔ others = records) ∧
        Decodes signals samples records := by
  obtain ⟨opened, written, took⟩ := accepting.putAll (header signals) ready
  refine ⟨⟨opened, Trace.wires signals, [], 0⟩, ?_, took, ?_⟩
  · rw [start, written]
  · intro samples
    obtain ⟨after, answered, all⟩ :=
      recordAll_accepting accepting samples ⟨opened, Trace.wires signals, [], 0⟩ took.ready
    refine ⟨render (encode (Trace.wires signals) [] samples), _, _, answered,
      Nat.zero_add _, all, read?_render _, ?_, decodes_encode signals samples⟩
    intro others
    exact render_injective.eq_iff

/-- Frames that are too short or too long, for wires that are one bit wide, wider than a
word or empty: the reader is left with the values supplied last. -/
theorem recordAll_decodes_uneven_frames :
    Device.accepting.room = none ∧
    ∃ started,
      start [⟨"enable", 1⟩, ⟨"sum", 70⟩, ⟨"none", 0⟩] Device.accepting = .ok started ∧
      ∃ text records after,
        started.recordAll [.initial ⟨#[1, 5]⟩, .cycle 1 ⟨#[1, 6, 7, 9]⟩, .cycle 2 ⟨#[2]⟩] =
          ([.ok (), .ok (), .ok ()], after) ∧
        after.sink.contents = started.sink.contents ++ text.utf8Encode ∧
        read? text = some records ∧
        records.map Record.time = [0, 1, 2] ∧
        held records 0 = some 0 ∧ held records 1 = some 6 ∧ held records 2 = some 0 := by
  obtain ⟨started, opened, -, all⟩ := recordAll_decodes Device.accepting_of_unlimited
    [⟨"enable", 1⟩, ⟨"sum", 70⟩, ⟨"none", 0⟩] Device.accepting rfl
  obtain ⟨text, records, after, answered, -, took, readable, -, decodes⟩ :=
    all [.initial ⟨#[1, 5]⟩, .cycle 1 ⟨#[1, 6, 7, 9]⟩, .cycle 2 ⟨#[2]⟩]
  have times : records.map Record.time = [0, 1, 2] := decodes.times
  have full : records.take 3 = records := by
    apply List.take_of_length_le
    rw [← List.length_map (f := Record.time), times]
    rfl
  have values := decodes.values 3
  rw [full] at values
  exact ⟨rfl, started, opened, text, records, after, answered, took.contents_eq, readable, times,
    values 0 ⟨"enable", 1⟩ rfl, values 1 ⟨"sum", 70⟩ rfl, values 2 ⟨"none", 0⟩ rfl⟩

end Recorder

end Testbench
