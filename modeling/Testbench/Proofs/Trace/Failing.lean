import Testbench.Proofs.Sink.Limited
import Testbench.Proofs.Trace.Recording

/-! Traces on sinks with little room. A call goes on with the text where the one before has left
it, and what it would have written is known as long as no call has failed. After that the recorder
may have remembered less than it was given, but then the sink takes nothing any more, so that no
byte depends on what the recorder remembers. -/
namespace Testbench

open Trace

variable {σ : Type} {room : Nat → σ → Prop} {spent : σ → Prop} {contents : σ → ByteArray}
  {left : Nat}

theorem Sink.Poured.lines {first second : List Line} {sink middle after : σ} {all : Bool}
    (one : Sink.Poured room spent contents left (renderLines first).utf8Encode sink middle true)
    (two : Sink.Poured room spent contents (left - (renderLines first).utf8Encode.size)
      (renderLines second).utf8Encode middle after all) :
    Sink.Poured room spent contents left (renderLines (first ++ second)).utf8Encode sink after
      all := by
  rw [renderLines_append, List.utf8Encode_append]
  exact one.append two

theorem Sink.Poured.cut {first : List Line} {sink after : σ}
    (one : Sink.Poured room spent contents left (renderLines first).utf8Encode sink after false)
    (second : List Line) :
    Sink.Poured room spent contents left (renderLines (first ++ second)).utf8Encode sink after
      false := by
  rw [renderLines_append, List.utf8Encode_append]
  exact one.stop _

namespace Recorder

variable [Sink σ]

theorem putChanges_limited (limited : Sink.Limited room spent contents) (wires : List Wire)
    (values last : List UInt64) {sink : σ} (ready : room left sink) :
    ∃ answer written after, putChanges wires values last sink = (answer, written, after) ∧
      Sink.Poured room spent contents left
        (renderLines ((delta wires values last).map .change)).utf8Encode sink after answer.isOk ∧
      (answer.isOk = true → written = overwrite wires values last) := by
  induction wires generalizing values last sink left with
  | nil =>
    refine ⟨.ok (), last, sink, putChanges_nil_wires values last sink, ?_, fun _ => ?_⟩
    · rw [delta_nil_wires]
      exact .nothing ready
    · rw [overwrite_nil_wires]
  | cons wire wires ih =>
    cases values with
    | nil =>
      refine ⟨.ok (), last, sink, putChanges_nil_values _ last sink, ?_, fun _ => ?_⟩
      · rw [delta_nil_values]
        exact .nothing ready
      · rw [overwrite_nil_values]
    | cons value values =>
      rw [putChanges_cons, overwrite_cons, delta_cons]
      by_cases same : last.head? = some value
      · obtain ⟨answer, written, after, others, poured, memory⟩ := ih values last.tail ready
        rw [if_pos same, if_pos same, others]
        exact ⟨answer, _, after, rfl, poured, fun ok => congrArg (value :: ·) (memory ok)⟩
      · obtain ⟨answer, middle, first, one⟩ := limited.putAll (change wire value) ready
        rw [characters_change] at one
        rw [if_neg same, if_neg same, first, List.map_append]
        cases answer with
        | error error => exact ⟨.error error, last, middle, rfl, one.cut _, nofun⟩
        | ok _ =>
          obtain ⟨answer, written, after, others, two, memory⟩ := ih values last.tail one.ready
          dsimp only
          rw [others]
          exact ⟨answer, _, after, rfl, one.lines two, fun ok => congrArg (value :: ·) (memory ok)⟩

structure Recorded (room : Nat → σ → Prop) (spent : σ → Prop) (contents : σ → ByteArray)
    (left : Nat) (sample : Sample) (recorder after : Recorder σ) (whole : Bool) : Prop where
  poured : Sink.Poured room spent contents left
    (renderLines (sample.record recorder.wires recorder.last).lines).utf8Encode recorder.sink
    after.sink whole
  wires : after.wires = recorder.wires
  last : whole = true → after.last = sample.written recorder.wires recorder.last
  records : after.records = recorder.records + whole.toNat

theorem record_limited (limited : Sink.Limited room spent contents) (sample : Sample)
    (recorder : Recorder σ) (ready : room left recorder.sink) :
    ∃ answer after, recorder.record sample = (answer, after) ∧
      Recorded room spent contents left sample recorder after answer.isOk := by
  -- Nothing is said about what a call that fails leaves in memory.
  have forgets {P : Prop} (failed : false = true) : P := absurd failed Bool.false_ne_true
  cases sample with
  | initial frame =>
    obtain ⟨answer, opened, begun, one⟩ := limited.putAll (timestamp 0 ++ baselineStart) ready
    rw [Sink.characters_append, characters_timestamp, characters_baselineStart,
      ← renderLines_append] at one
    rw [record, recordInitial, begun]
    cases answer with
    | error error => exact ⟨.error error, _, rfl, one.cut _, rfl, forgets, rfl⟩
    | ok _ =>
      obtain ⟨answer, written, dumped, changed, two, memory⟩ :=
        putChanges_limited limited recorder.wires frame.values.toList [] one.ready
      dsimp only
      rw [changed]
      cases answer with
      | error error => exact ⟨.error error, _, rfl, one.lines (two.cut _), rfl, forgets, rfl⟩
      | ok _ =>
        obtain ⟨answer, after, ended, three⟩ := limited.putAll baselineEnd two.ready
        rw [characters_baselineEnd] at three
        dsimp only
        rw [ended]
        have all := one.lines (two.lines three)
        cases answer with
        | error error => exact ⟨.error error, _, rfl, all, rfl, forgets, rfl⟩
        | ok _ => exact ⟨.ok (), _, rfl, all, rfl, fun _ => memory rfl, rfl⟩
  | cycle number frame =>
    obtain ⟨answer, opened, begun, one⟩ := limited.putAll (timestamp number) ready
    rw [characters_timestamp] at one
    rw [record, recordCycle, begun]
    cases answer with
    | error error => exact ⟨.error error, _, rfl, one.cut _, rfl, forgets, rfl⟩
    | ok _ =>
      obtain ⟨answer, written, after, changed, two, memory⟩ :=
        putChanges_limited limited recorder.wires frame.values.toList recorder.last one.ready
      dsimp only
      rw [changed]
      have all := one.lines two
      cases answer with
      | error error => exact ⟨.error error, _, rfl, all, rfl, forgets, rfl⟩
      | ok _ => exact ⟨.ok (), _, rfl, all, rfl, fun _ => memory rfl, rfl⟩

theorem length_recordAll (samples : List Sample) (recorder : Recorder σ) :
    (recorder.recordAll samples).1.length = samples.length := by
  induction samples generalizing recorder with
  | nil => rfl
  | cons sample rest ih => rw [recordAll, List.length_cons, List.length_cons, ih]

omit [Sink σ] in
theorem utf8Encode_encode_cons (wires : List Wire) (last : List UInt64) (sample : Sample)
    (rest : List Sample) :
    (render (encode wires last (sample :: rest))).utf8Encode =
      (renderLines (sample.record wires last).lines).utf8Encode ++
        (render (encode wires (sample.written wires last) rest)).utf8Encode := by
  rw [encode, render, List.flatMap_cons, renderLines_append, List.utf8Encode_append]
  rfl

omit [Sink σ] in
/-- No call is without a text, for there is a time in it. -/
theorem size_lines_pos (record : Record) : 0 < (renderLines record.lines).utf8Encode.size := by
  rw [Nat.pos_iff_ne_zero, ne_eq, ByteArray.size_eq_zero_iff, List.utf8Encode_eq_empty]
  exact List.cons_ne_nil '#' _

theorem recordAll_full (limited : Sink.Limited room (room 0) contents) (samples : List Sample)
    (recorder : Recorder σ) (full : room 0 recorder.sink) :
    let all := recorder.recordAll samples
    (∀ answer ∈ all.1, answer.isOk = false) ∧ room 0 all.2.sink ∧
      contents all.2.sink = contents recorder.sink ∧ all.2.records = recorder.records := by
  induction samples generalizing recorder with
  | nil => exact ⟨nofun, full, rfl, rfl⟩
  | cons sample rest ih =>
    obtain ⟨answer, middle, first, recorded⟩ := record_limited limited sample recorder full
    obtain ⟨still, same⟩ := recorded.poured.full
    have failed : answer.isOk = false := by
      rw [← Bool.not_eq_true, recorded.poured.all_iff]
      exact Nat.not_le_of_lt (size_lines_pos _)
    obtain ⟨others, ended, kept, count⟩ := ih middle still
    rw [recordAll, first]
    refine ⟨fun other among => ?_, ended, kept.trans same, ?_⟩
    · rcases List.mem_cons.mp among with rfl | later
      · exact failed
      · exact others other later
    · rw [count, recorded.records, failed]
      rfl

/-- What some calls have done to a recorder whose sink had so much room and then failed for good.
A call succeeds if the text up to its end fits. -/
structure Filled (room : Nat → σ → Prop) (contents : σ → ByteArray) (left : Nat)
    (samples : List Sample) (recorder : Recorder σ)
    (all : List (Except IoError Unit) × Recorder σ) : Prop where
  poured : Sink.Poured room (room 0) contents left
    (render (encode recorder.wires recorder.last samples)).utf8Encode recorder.sink all.2.sink
    (all.1.all Except.isOk)
  isOk_iff (i : Nat) (answer : Except IoError Unit) (here : all.1[i]? = some answer) :
    answer.isOk = true ↔
      (render (encode recorder.wires recorder.last (samples.take (i + 1)))).utf8Encode.size ≤ left
  records : all.2.records = recorder.records + all.1.countP Except.isOk

omit [Sink σ] in
theorem Filled.cons {sample : Sample} {rest : List Sample} {recorder middle : Recorder σ}
    {answer : Except IoError Unit} {all : List (Except IoError Unit) × Recorder σ}
    (ok : answer.isOk = true)
    (first : Recorded room (room 0) contents left sample recorder middle true)
    (others : Filled room contents
      (left - (renderLines (sample.record recorder.wires recorder.last).lines).utf8Encode.size)
      rest middle all) :
    Filled room contents left (sample :: rest) recorder (answer :: all.1, all.2) := by
  obtain ⟨poured, isOk_iff, records⟩ := others
  rw [first.wires, first.last rfl] at poured isOk_iff
  have enough := first.poured.all_iff.mp rfl
  constructor
  · rw [List.all_cons, ok, Bool.true_and, utf8Encode_encode_cons]
    exact first.poured.append poured
  · intro i other here
    rw [List.take_succ_cons, utf8Encode_encode_cons, ByteArray.size_append]
    cases i with
    | zero =>
      cases here
      simpa [ok, encode, render, renderLines] using enough
    | succ i =>
      rw [isOk_iff i other here]
      omega
  · rw [records, first.records, List.countP_cons_of_pos ok, Bool.toNat_true]
    omega

theorem Filled.stopped (limited : Sink.Limited room (room 0) contents) {sample : Sample}
    (rest : List Sample) {recorder middle : Recorder σ} {answer : Except IoError Unit}
    (failed : answer.isOk = false)
    (first : Recorded room (room 0) contents left sample recorder middle false) :
    Filled room contents left (sample :: rest) recorder
      (answer :: (middle.recordAll rest).1, (middle.recordAll rest).2) := by
  obtain ⟨fail, full, kept, count⟩ := recordAll_full limited rest middle first.poured.ended
  have short : ¬(renderLines (sample.record recorder.wires recorder.last).lines).utf8Encode.size ≤
      left := fun enough => Bool.false_ne_true (first.poured.all_iff.mpr enough)
  have fails : ∀ other ∈ answer :: (middle.recordAll rest).1, ¬other.isOk = true := by
    intro other among
    rw [Bool.not_eq_true]
    rcases List.mem_cons.mp among with rfl | later
    · exact failed
    · exact fail other later
  constructor
  · rw [List.all_cons, failed, Bool.false_and, utf8Encode_encode_cons]
    cases first.poured.stop (render (encode recorder.wires
        (sample.written recorder.wires recorder.last) rest)).utf8Encode with
    | part short _ grown => exact .part short full (kept.trans grown)
  · intro i other here
    rw [List.take_succ_cons, utf8Encode_encode_cons, ByteArray.size_append]
    refine iff_of_false (fails other (List.mem_of_getElem? here)) ?_
    omega
  · rw [List.countP_eq_zero.mpr fails, count, first.records]
    rfl

theorem recordAll_failing (limited : Sink.Limited room (room 0) contents) (samples : List Sample)
    (recorder : Recorder σ) (ready : room left recorder.sink) :
    Filled room contents left samples recorder (recorder.recordAll samples) := by
  induction samples generalizing recorder left with
  | nil => exact ⟨.nothing ready, nofun, rfl⟩
  | cons sample rest ih =>
    obtain ⟨answer, middle, first, recorded⟩ := record_limited limited sample recorder ready
    rw [recordAll, first]
    cases whole : answer.isOk with
    | true =>
      rw [whole] at recorded
      exact .cons whole recorded (ih middle recorded.poured.ready)
    | false =>
      rw [whole] at recorded
      exact .stopped limited rest whole recorded

theorem start_limited (limited : Sink.Limited room spent contents) (signals : List Signal)
    {sink : σ} (ready : room left sink) :
    let header := (Sink.characters (Trace.header signals)).utf8Encode
    (∃ error after, start signals sink = .error (error, after) ∧
        Sink.Poured room spent contents left header sink after false) ∨
      ∃ after, start signals sink = .ok ⟨after, Trace.wires signals, [], 0⟩ ∧
        Sink.Poured room spent contents left header sink after true := by
  obtain ⟨answer, after, written, poured⟩ := limited.putAll (Trace.header signals) ready
  unfold start
  rw [written]
  cases answer with
  | ok _ => exact .inr ⟨after, rfl, poured⟩
  | error error => exact .inl ⟨error, after, rfl, poured⟩

/-- A sink that takes a number of bytes and then fails for good has the beginning of the text that
one which never fails is given. The header has to fit for a recorder to be started. Then a call
succeeds exactly if the text up to its end fits, and is counted exactly if it succeeds. After a
call that has failed no other one succeeds, and none of them writes anything. -/
theorem recordAll_leaves_prefix {τ : Type} [Sink τ] {accepts : τ → Prop} {kept : τ → ByteArray}
    (accepting : Sink.Accepting accepts kept) (limited : Sink.Limited room (room 0) contents)
    (signals : List Signal) :
    let header := (Sink.characters (Trace.header signals)).utf8Encode
    let text := fun samples =>
      header ++ (render (encode (Trace.wires signals) [] samples)).utf8Encode
    (∀ sink, accepts sink → ∃ started, start signals sink = .ok started ∧
        kept started.sink = kept sink ++ header ∧
        ∀ samples, kept (started.recordAll samples).2.sink = kept sink ++ text samples) ∧
      ∀ n sink, room n sink →
        (n < header.size → ∃ error after, start signals sink = .error (error, after) ∧
          contents after = contents sink ++ header.extract 0 n) ∧
        (header.size ≤ n → ∃ started, start signals sink = .ok started ∧ ∀ samples,
          let answers := (started.recordAll samples).1
          let after := (started.recordAll samples).2
          contents after.sink =
              contents sink ++ (text samples).extract 0 (min n (text samples).size) ∧
            answers.length = samples.length ∧
            (∀ i answer, answers[i]? = some answer →
              (answer.isOk = true ↔ (text (samples.take (i + 1))).size ≤ n)) ∧
            after.records = answers.countP Except.isOk ∧
            ((∃ answer ∈ answers, answer.isOk = false) → ∀ more,
              (∀ later ∈ (after.recordAll more).1, later.isOk = false) ∧
                contents (after.recordAll more).2.sink = contents after.sink)) := by
  intro header text
  refine ⟨fun sink ready => ?_, fun n sink ready => ?_⟩
  · obtain ⟨opened, written, one⟩ := accepting.putAll (Trace.header signals) ready
    refine ⟨⟨opened, Trace.wires signals, [], 0⟩, by rw [start, written], one.contents_eq,
      fun samples => ?_⟩
    obtain ⟨after, recorded, two⟩ :=
      recordAll_accepting accepting samples ⟨opened, Trace.wires signals, [], 0⟩ one.ready
    rw [recorded, two.contents_eq, one.contents_eq, ByteArray.append_assoc]
  · have started := start_limited limited signals ready
    refine ⟨fun short => ?_, fun enough => ?_⟩
    · rcases started with ⟨error, after, refused, one⟩ | ⟨opened, -, one⟩
      · exact ⟨error, after, refused, one.contents_eq⟩
      · exact absurd (one.all_iff.mp rfl) (Nat.not_le_of_lt short)
    · rcases started with ⟨error, after, -, one⟩ | ⟨opened, starts, one⟩
      · exact absurd (one.all_iff.mpr enough) Bool.false_ne_true
      · refine ⟨_, starts, fun samples => ?_⟩
        obtain ⟨two, isOk_iff, records⟩ := recordAll_failing limited samples
          ⟨opened, Trace.wires signals, [], 0⟩ one.ready
        refine ⟨?_, length_recordAll samples _, fun i answer here => ?_,
          records.trans (Nat.zero_add _), ?_⟩
        · rw [extract_min_size]
          exact (one.append two).contents_eq
        · rw [isOk_iff i answer here, ByteArray.size_append]
          exact Nat.le_sub_iff_add_le' enough
        · rintro ⟨answer, among, failed⟩ more
          rw [List.all_eq_false.mpr ⟨answer, among, Bool.not_eq_true _ ▸ failed⟩] at two
          obtain ⟨fail, -, same, -⟩ := recordAll_full limited more _ two.ended
          exact ⟨fail, same⟩

/-- Room for the header, a baseline of one bit and half of the next record. The record behind it
would be an empty one for a recorder that has the bit in memory, and it fails as well. -/
theorem recordAll_leaves_prefix_of_half_record :
    let signals : List Signal := [⟨"q", 1⟩]
    let samples : List Sample := [.initial ⟨#[0]⟩, .cycle 1 ⟨#[1]⟩, .cycle 2 ⟨#[1]⟩]
    let header := (Sink.characters (Trace.header signals)).utf8Encode
    let tight := Device.ofLimit (some 130) false false
    Device.accepting.room = none ∧ Device.HasRoom false false 130 tight ∧ header.size = 106 ∧
      (∃ error after, start signals (Device.ofLimit (some 50) false false) = .error (error, after) ∧
        after.contents = header.extract 0 50) ∧
      ∃ started, start signals tight = .ok started ∧
        (started.recordAll samples).2.sink.contents =
          header ++ "#0\n$dumpvars\n0!\n$end\n#1\n".toUTF8 ∧
        (started.recordAll samples).1.map Except.isOk = [true, false, false] ∧
        (started.recordAll samples).2.records = 1 := by
  intro signals samples header tight
  have size : (Sink.characters (Trace.header signals)).utf8Encode.size = 106 := by decide +kernel
  have fits : (Sink.characters (Trace.header signals)).utf8Encode.size ≤ 130 := by
    rw [size]
    decide
  obtain ⟨-, all⟩ := recordAll_leaves_prefix Device.accepting_of_unlimited
    (Device.limited_of_failing false) signals
  obtain ⟨error, left, refused, kept⟩ :=
    (all 50 (Device.ofLimit (some 50) false false) ⟨rfl, rfl, rfl⟩).1 (by rw [size]; decide)
  obtain ⟨started, opened, records⟩ := (all 130 tight ⟨rfl, rfl, rfl⟩).2 fits
  obtain ⟨contents, length, isOk_iff, count, -⟩ := records samples
  obtain ⟨one, two, three, answers⟩ := List.length_eq_three.mp length
  simp only [answers, ByteArray.size_append, size] at isOk_iff
  rw [answers] at count
  have succeeds : one.isOk = true := (isOk_iff 0 one rfl).mpr (by decide +kernel)
  have fails : ¬two.isOk = true := mt (isOk_iff 1 two rfl).mp (by decide +kernel)
  have fails' : ¬three.isOk = true := mt (isOk_iff 2 three rfl).mp (by decide +kernel)
  rw [extract_min_size, extract_append_of_size_le _ fits, size] at contents
  refine ⟨rfl, ⟨rfl, rfl, rfl⟩, size, ⟨error, left, refused, kept.trans ByteArray.empty_append⟩,
    started, opened, contents.trans (ByteArray.empty_append.trans (congrArg (header ++ ·) ?_)),
    ?_, ?_⟩
  · decide +kernel
  · simp [answers, succeeds, fails, fails']
  · rw [count]
    simp [succeeds, fails, fails']

end Recorder

end Testbench
