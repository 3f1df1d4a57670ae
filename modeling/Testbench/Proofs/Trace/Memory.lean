import Testbench.Proofs.Trace.Torn

/-! What a recorder remembers, on sinks that may fail in the middle of anything and go on. The
lines that were written whole are known from the sink alone; a value block forgets the values
before it, and every change line has the value that the recorder remembers from then on. Since the
values are remembered in the order of the signals, a record that breaks off has dealt with the
first signals and with no other ones. -/
namespace Testbench

open Trace

namespace Trace

/-- A change line notes the value it was written for, and a value block forgets every value. -/
def note (values : List UInt64) (held : Nat → Option UInt64) : Line → Nat → Option UInt64
  | .baselineStart => fun _ => none
  | .change c => Function.update held c.wire values[c.wire]?
  | _ => held

def noteAll (held : Nat → Option UInt64) (log : List (Sample × Line)) : Nat → Option UInt64 :=
  log.foldl (fun held entry => note entry.1.values held entry.2) held

/-- The value of the latest change line for each signal since the latest value block has begun. -/
def noted (log : List (Sample × Line)) : Nat → Option UInt64 :=
  noteAll (fun _ => none) log

namespace Sample

def opening (sample : Sample) : List Line :=
  .time sample.time :: if sample.baseline then [.baselineStart] else []

end Sample

/-- How far the record of a sample has come. It has broken off in front of the values, or it has
dealt with the first wires, and with all of them if it has come to its end. -/
inductive Reached (wires : List Wire) (last : List UInt64) (sample : Sample) :
    List Line → List UInt64 → Bool → Prop
  | opened {lines : List Line} (timed : ∀ line ∈ lines, line = .time sample.time) :
      Reached wires last sample lines last false
  | values {part : List Wire} {ending : List Line} {all : Bool} (inside : part <+: wires)
      (complete : all = true → part = wires) (ended : ∀ line ∈ ending, line = .baselineEnd) :
      Reached wires last sample
        (sample.opening ++ (delta part sample.values (sample.continues last)).map .change ++ ending)
        (overwrite part sample.values (sample.continues last)) all

variable {signals : List Signal} {wires part : List Wire} {values last written : List UInt64}
  {sample : Sample} {lines : List Line} {all : Bool} {c : Change}

theorem change?_eq_some_iff {j : Nat} : change? wires values last j = some c ↔
    ∃ wire value, wires[j]? = some wire ∧ values[j]? = some value ∧ last[j]? ≠ some value ∧
      c = ⟨wire.number, .ofNat wire.width value.toNat⟩ := by
  unfold change?
  cases wires[j]? with
  | none => simp
  | some wire =>
    cases values[j]? with
    | none => simp
    | some value => simp [eq_comm]

theorem delta_inside (inside : part <+: wires) :
    delta part values last = (List.range part.length).filterMap (change? wires values last) := by
  obtain ⟨others, rfl⟩ := inside
  apply List.filterMap_congr
  intro j here
  unfold change?
  rw [List.getElem?_append_left (List.mem_range.mp here)]

theorem mem_delta_iff : c ∈ delta wires values last ↔
    ∃ j < wires.length, change? wires values last j = some c := by
  simp [delta]

theorem length_overwrite_le (inside : part <+: wires) (short : last.length ≤ wires.length) :
    (overwrite part values last).length ≤ wires.length := by
  have fewer := inside.length_le
  simp only [overwrite, List.length_append, List.length_take, List.length_drop]
  omega

theorem length_continues_le (sample : Sample) (last : List UInt64) :
    (sample.continues last).length ≤ last.length := by
  unfold Sample.continues
  split
  · exact Nat.zero_le _
  · exact Nat.le_refl _

theorem foldl_note_of_idle {held : Nat → Option UInt64}
    (idle : ∀ line ∈ lines, note values held line = held) :
    lines.foldl (note values) held = held := by
  induction lines with
  | nil => rfl
  | cons line lines ih =>
    rw [List.foldl_cons, idle line (.head _)]
    exact ih fun line here => idle line (.tail _ here)

theorem foldl_note_opening (sample : Sample) (last : List UInt64) :
    sample.opening.foldl (note values) (last[·]?) = ((sample.continues last)[·]?) := by
  cases sample <;> rfl

theorem foldl_note_delta (inside : part <+: Trace.wires signals) :
    ((delta part values last).map .change).foldl (note values) (last[·]?) =
      ((overwrite part values last)[·]?) := by
  funext j
  have fold : (delta part values last).foldl
      (fun (held : Nat → Option UInt64) c => Function.update held c.wire values[c.wire]?)
      (last[·]?) j =
        if j < part.length then
          ((change? (Trace.wires signals) values last j).map (values[·.wire]?)).getD last[j]?
        else last[j]? := by
    rw [delta_inside inside]
    exact foldl_update_filterMap (fun _ _ => wire_of_change?) _ _ j part.length
  rw [List.foldl_map, getElem?_overwrite]
  refine fold.trans ?_
  by_cases here : j < part.length
  · rw [if_pos here, if_pos here]
    cases line : change? (Trace.wires signals) values last j with
    | some c =>
      obtain ⟨wire, value, -, new, -⟩ := change?_eq_some_iff.mp line
      simp [wire_of_change? line, new]
    | none =>
      cases new : values[j]? with
      | none => rfl
      | some value =>
        -- no line is needed for a value that is remembered already
        obtain ⟨others, whole⟩ := inside
        have declared : (Trace.wires signals)[j]? = some part[j] := by
          rw [← whole, List.getElem?_append_left here, List.getElem?_eq_getElem here]
        have kept : last[j]? = some value := by
          by_contra different
          have some := change?_eq_some_iff.mpr ⟨_, _, declared, new, different, rfl⟩
          rw [line] at some
          cases some
        simp [kept]
  · rw [if_neg here, if_neg here]
    rfl

namespace Reached

theorem note_eq (reached : Reached (Trace.wires signals) last sample lines written all) :
    lines.foldl (note sample.values) (last[·]?) = (written[·]?) := by
  cases reached with
  | opened timed =>
    refine foldl_note_of_idle fun line here => ?_
    rw [timed line here]
    rfl
  | values inside complete ended =>
    rw [List.foldl_append, List.foldl_append, foldl_note_opening, foldl_note_delta inside]
    refine foldl_note_of_idle fun line here => ?_
    rw [ended line here]
    rfl

theorem length_le (reached : Reached wires last sample lines written all)
    (short : last.length ≤ wires.length) : written.length ≤ wires.length := by
  cases reached with
  | opened timed => exact short
  | values inside complete ended =>
    exact length_overwrite_le inside (Nat.le_trans (length_continues_le sample last) short)

theorem value_of_mem (reached : Reached (Trace.wires signals) last sample lines written all)
    (here : .change c ∈ lines) : ∃ signal value, signals[c.wire]? = some signal ∧
      sample.values[c.wire]? = some value ∧ c.value = .ofNat signal.width value.toNat := by
  cases reached with
  | opened timed => cases timed _ here
  | @values part ending _ inside complete ended =>
    rw [List.mem_append, List.mem_append] at here
    rcases here with (front | changed) | behind
    · unfold Sample.opening at front
      split at front <;> simp at front
    · obtain ⟨d, among, same⟩ := List.mem_map.mp changed
      obtain rfl := Line.change.inj same
      rw [delta_inside inside, List.mem_filterMap] at among
      obtain ⟨j, -, line⟩ := among
      obtain ⟨wire, value, declared, new, -, rfl⟩ := change?_eq_some_iff.mp line
      rw [getElem?_wires, Option.map_eq_some_iff] at declared
      obtain ⟨signal, declared, rfl⟩ := declared
      exact ⟨signal, value, declared, new, rfl⟩
    · cases ended _ behind

theorem complete {i : Nat} {signal : Signal} {value : UInt64}
    (reached : Reached (Trace.wires signals) last sample lines written true)
    (declared : signals[i]? = some signal) (new : sample.values[i]? = some value) :
    written[i]? = some value ∧ (sample.baseline = true ∨ last[i]? ≠ some value →
      .change ⟨i, .ofNat signal.width value.toNat⟩ ∈ lines) := by
  cases reached with
  | values inside complete ended =>
    obtain rfl := complete rfl
    have wired : (Trace.wires signals)[i]? = some ⟨i, signal.width⟩ := by
      rw [getElem?_wires, declared]
      rfl
    have bound := (List.getElem?_eq_some_iff.mp wired).1
    refine ⟨?_, fun lost => ?_⟩
    · rw [getElem?_overwrite, if_pos bound, new]
      rfl
    · have different : (sample.continues last)[i]? ≠ some value := by
        unfold Sample.continues
        split
        · simp
        · rename_i kept
          exact lost.resolve_left kept
      have line := change?_eq_some_iff.mpr ⟨_, _, wired, new, different, rfl⟩
      exact List.mem_append_left _ (List.mem_append_right _
        (List.mem_map_of_mem (mem_delta_iff.mpr ⟨i, bound, line⟩)))

end Reached

end Trace

namespace Recorder

variable {σ : Type} [Sink σ] {contents : σ → ByteArray}

theorem putChanges_honest (honest : Sink.Honest contents) (wires : List Wire)
    (values last : List UInt64) (sink : σ) :
    ∃ answer part after,
      putChanges wires values last sink = (answer, overwrite part values last, after) ∧
      part <+: wires ∧ (answer.isOk = true → part = wires) ∧
      Wrote contents ((delta part values last).map .change) sink after answer.isOk := by
  induction wires generalizing values last sink with
  | nil =>
    refine ⟨.ok (), [], sink, ?_, List.prefix_rfl, fun _ => rfl, .nothing⟩
    rw [putChanges_nil_wires, overwrite_nil_wires]
  | cons wire wires ih =>
    cases values with
    | nil =>
      refine ⟨.ok (), wire :: wires, sink, ?_, List.prefix_rfl, fun _ => rfl, ?_⟩
      · rw [putChanges_nil_values, overwrite_nil_values]
      · rw [delta_nil_values]
        exact .nothing
    | cons value values =>
      rw [putChanges_cons]
      by_cases same : last.head? = some value
      · obtain ⟨answer, part, after, others, inside, complete, wrote⟩ := ih values last.tail sink
        rw [if_pos same, others]
        refine ⟨answer, wire :: part, after, ?_, List.cons_prefix_cons.mpr ⟨rfl, inside⟩,
          fun ok => congrArg (wire :: ·) (complete ok), ?_⟩
        · rw [overwrite_cons]
        · rw [delta_cons, if_pos same]
          exact wrote
      · obtain ⟨answer, middle, first, one⟩ :=
          putAll_line honest (characters_change wire value) sink
        rw [if_neg same, first]
        cases answer with
        | error error =>
          refine ⟨.error error, [], middle, ?_, List.nil_prefix, nofun, one⟩
          rw [overwrite_nil_wires]
        | ok _ =>
          obtain ⟨answer, part, after, others, inside, complete, two⟩ := ih values last.tail middle
          dsimp only
          rw [others]
          refine ⟨answer, wire :: part, after, ?_, List.cons_prefix_cons.mpr ⟨rfl, inside⟩,
            fun ok => congrArg (wire :: ·) (complete ok), ?_⟩
          · rw [overwrite_cons]
          · rw [delta_cons, if_neg same, List.map_append]
            exact one.append two

structure Remembered (contents : σ → ByteArray) (sample : Sample) (recorder after : Recorder σ)
    (lines : List Line) (all : Bool) : Prop where
  wires : after.wires = recorder.wires
  wrote : Wrote contents lines recorder.sink after.sink all
  reached : Reached recorder.wires recorder.last sample lines after.last all
  records : after.records = recorder.records + all.toNat

theorem record_honest (honest : Sink.Honest contents) (sample : Sample) (recorder : Recorder σ) :
    ∃ answer lines after, recorder.record sample = (answer, after) ∧
      Remembered contents sample recorder after lines answer.isOk := by
  -- A call that fails need not have dealt with all wires.
  have partly {P : Prop} (failed : false = true) : P := absurd failed Bool.false_ne_true
  cases sample with
  | initial frame =>
    obtain ⟨answer, opened, put, one⟩ := putAll_line honest (characters_timestamp 0) recorder.sink
    rw [record, recordInitial, Sink.putAll_append, put]
    cases answer with
    | error error =>
      exact ⟨.error error, [], _, rfl, rfl, one, .opened (List.forall_mem_nil _), rfl⟩
    | ok _ =>
      obtain ⟨answer, begun, put, two⟩ := putAll_line honest characters_baselineStart opened
      dsimp only
      rw [put]
      have opening := one.append two
      cases answer with
      | error error =>
        exact ⟨.error error, [.time 0], _, rfl, rfl, opening,
          .opened fun line here => List.mem_singleton.mp here, rfl⟩
      | ok _ =>
        obtain ⟨answer, part, dumped, put, inside, complete, three⟩ :=
          putChanges_honest honest recorder.wires frame.values.toList [] begun
        dsimp only
        rw [put]
        cases answer with
        | error error =>
          have broken := opening.append three
          rw [← List.append_nil (_ ++ _)] at broken
          exact ⟨.error error, _, _, rfl, rfl, broken,
            .values inside partly (List.forall_mem_nil _), rfl⟩
        | ok _ =>
          obtain ⟨answer, after, put, four⟩ := putAll_line honest characters_baselineEnd dumped
          dsimp only
          rw [put]
          have whole := opening.append (three.append four)
          rw [← List.append_assoc] at whole
          cases answer with
          | error error =>
            exact ⟨.error error, _, _, rfl, rfl, whole,
              .values inside partly (List.forall_mem_nil _), rfl⟩
          | ok _ =>
            exact ⟨.ok (), _, _, rfl, rfl, whole,
              .values inside complete fun line here => List.mem_singleton.mp here, rfl⟩
  | cycle number frame =>
    obtain ⟨answer, opened, put, one⟩ :=
      putAll_line honest (characters_timestamp number) recorder.sink
    rw [record, recordCycle, put]
    cases answer with
    | error error =>
      exact ⟨.error error, [], _, rfl, rfl, one, .opened (List.forall_mem_nil _), rfl⟩
    | ok _ =>
      obtain ⟨answer, part, after, put, inside, complete, two⟩ :=
        putChanges_honest honest recorder.wires frame.values.toList recorder.last opened
      dsimp only
      rw [put]
      have whole := one.append two
      rw [← List.append_nil (_ ++ _)] at whole
      cases answer with
      | error error =>
        exact ⟨.error error, _, _, rfl, rfl, whole,
          .values inside partly (List.forall_mem_nil _), rfl⟩
      | ok _ =>
        exact ⟨.ok (), _, _, rfl, rfl, whole,
          .values inside complete (List.forall_mem_nil _), rfl⟩

/-- The lines that a call has added whole. -/
def added (contents : σ → ByteArray) (sample : Sample) (recorder : Recorder σ) : List Line :=
  gained contents recorder.sink (recorder.record sample).2.sink

/-- The lines that calls have added whole, each with the sample it was written for. -/
def log (contents : σ → ByteArray) : List Sample → Recorder σ → List (Sample × Line)
  | [], _ => []
  | sample :: rest, recorder =>
    (recorder.added contents sample).map (sample, ·) ++
      log contents rest (recorder.record sample).2

theorem Remembered.added_eq {sample : Sample} {recorder after : Recorder σ} {lines : List Line}
    {answer : Except IoError Unit} (call : recorder.record sample = (answer, after))
    (remembered : Remembered contents sample recorder after lines answer.isOk) :
    recorder.added contents sample = lines := by
  rw [added, call]
  exact remembered.wrote.gained_eq

variable {signals : List Signal}

structure AllRemembered (contents : σ → ByteArray) (signals : List Signal) (samples : List Sample)
    (recorder : Recorder σ) (all : List (Except IoError Unit) × Recorder σ) : Prop where
  wires : all.2.wires = Trace.wires signals
  length_le : recorder.last.length ≤ signals.length → all.2.last.length ≤ signals.length
  last : noteAll (recorder.last[·]?) (recorder.log contents samples) = (all.2.last[·]?)
  value_of_mem (sample : Sample) (c : Change)
    (here : (sample, .change c) ∈ recorder.log contents samples) :
    ∃ signal value, signals[c.wire]? = some signal ∧ sample.values[c.wire]? = some value ∧
      c.value = .ofNat signal.width value.toNat
  records : all.2.records = recorder.records + all.1.countP Except.isOk

theorem recordAll_honest (honest : Sink.Honest contents) (samples : List Sample)
    (recorder : Recorder σ) (declared : recorder.wires = Trace.wires signals) :
    AllRemembered contents signals samples recorder (recorder.recordAll samples) := by
  induction samples generalizing recorder with
  | nil => exact ⟨declared, id, rfl, nofun, rfl⟩
  | cons sample rest ih =>
    obtain ⟨answer, lines, middle, call, one⟩ := record_honest honest sample recorder
    have reached := one.reached
    rw [declared] at reached
    have others := ih middle (one.wires.trans declared)
    have log : recorder.log contents (sample :: rest) =
        lines.map (sample, ·) ++ middle.log contents rest := by
      rw [Recorder.log, one.added_eq call, call]
    rw [recordAll, call]
    constructor
    · exact others.wires
    · intro short
      have length := reached.length_le (by rwa [length_wires])
      rw [length_wires] at length
      exact others.length_le length
    · rw [log, noteAll, List.foldl_append, List.foldl_map, reached.note_eq]
      exact others.last
    · intro other c here
      rw [log, List.mem_append] at here
      rcases here with first | later
      · obtain ⟨line, among, same⟩ := List.mem_map.mp first
        obtain ⟨rfl, rfl⟩ := Prod.mk.inj same
        exact reached.value_of_mem among
      · exact others.value_of_mem other c later
    · rw [others.records, one.records, List.countP_cons]
      cases answer.isOk with
      | true => simp; omega
      | false => simp

/-- On a sink that may refuse any write and take others later, the recorder remembers for each
signal the value of the latest change line that was written whole since the latest value block has
begun, and nothing else. A call that succeeds leaves its own values there, so the next one that
does writes every value of its frame that differs from the last whole line for its signal, whatever
has failed since. -/
theorem recordAll_remembers_whole_lines (honest : Sink.Honest contents) (signals : List Signal)
    (sink : σ) (started : Recorder σ) (opened : start signals sink = .ok started)
    (samples : List Sample) :
    let answers := (started.recordAll samples).1
    let after := (started.recordAll samples).2
    let log := started.log contents samples
    after.last.length ≤ signals.length ∧
      (∀ i : Nat, after.last[i]? = noted log i) ∧
      (∀ sample c, (sample, .change c) ∈ log → ∃ signal value,
        signals[c.wire]? = some signal ∧ sample.values[c.wire]? = some value ∧
          c.value = .ofNat signal.width value.toNat) ∧
      after.records = answers.countP Except.isOk ∧
      ∀ next : Sample, (after.record next).1.isOk = true →
        ∀ (i : Nat) (signal : Signal) (value : UInt64), signals[i]? = some signal →
          next.values[i]? = some value →
          (after.record next).2.last[i]? = some value ∧
            (next.baseline = true ∨ noted log i ≠ some value →
              .change ⟨i, .ofNat signal.width value.toNat⟩ ∈ after.added contents next) := by
  intro answers after log
  have fresh : started.wires = Trace.wires signals ∧ started.last = [] ∧ started.records = 0 := by
    unfold start at opened
    split at opened
    · cases opened
      exact ⟨rfl, rfl, rfl⟩
    · cases opened
  obtain ⟨declared, empty, none⟩ := fresh
  have all := recordAll_honest honest samples started declared
  have last : ∀ i : Nat, after.last[i]? = noted log i := by
    intro i
    have same := congrFun all.last i
    rw [empty] at same
    exact same.symm
  have records := all.records
  rw [none, Nat.zero_add] at records
  refine ⟨all.length_le (by simp [empty]), last, all.value_of_mem, records, ?_⟩
  intro next ok i signal value here new
  obtain ⟨answer, lines, final, call, one⟩ := record_honest honest next after
  rw [call] at ok
  have reached := one.reached
  rw [all.wires, show answer.isOk = true from ok] at reached
  rw [one.added_eq call, call, ← last]
  exact reached.complete here new

/-- A device that fails once, behind the first of two values, which the next record need not
repeat. -/
theorem recordAll_remembers_whole_lines_of_torn_record :
    let signals : List Signal := [⟨"q", 1⟩, ⟨"r", 1⟩]
    let samples : List Sample := [.initial ⟨#[0, 0]⟩, .cycle 1 ⟨#[1, 1]⟩]
    ∃ started, start signals (Device.ofLimit (some 158) true false) = .ok started ∧
      let after := (started.recordAll samples).2
      let log := started.log Device.contents samples
      after.last = [1, 0] ∧ after.records = 1 ∧ noted log 0 = some 1 ∧ noted log 1 = some 0 ∧
        .change ⟨1, .bit true⟩ ∈ after.added Device.contents (.cycle 2 ⟨#[1, 1]⟩) := by
  intro signals samples
  have run : (start signals (Device.ofLimit (some 158) true false)).toOption.map (fun started =>
      ((started.recordAll samples).2.last, (started.recordAll samples).1.map Except.isOk,
        ((started.recordAll samples).2.record (.cycle 2 ⟨#[1, 1]⟩)).1.isOk)) =
      some ([1, 0], [true, false], true) := by
    decide +kernel
  cases opened : start signals (Device.ofLimit (some 158) true false) with
  | error refused =>
    rw [opened] at run
    cases run
  | ok started =>
    rw [opened] at run
    obtain ⟨last, others⟩ := Prod.mk.inj (Option.some.inj run)
    obtain ⟨answers, ok⟩ := Prod.mk.inj others
    obtain ⟨-, remembers, -, records, next⟩ :=
      recordAll_remembers_whole_lines Device.honest signals _ started opened samples
    refine ⟨started, rfl, last, ?_, ?_, ?_, ?_⟩
    · have count := congrArg (List.countP id) answers
      rw [List.countP_map] at count
      exact records.trans count
    · rw [← remembers, last]
      rfl
    · rw [← remembers, last]
      rfl
    · refine (next (.cycle 2 ⟨#[1, 1]⟩) ok 1 ⟨"r", 1⟩ 1 rfl rfl).2 (.inr ?_)
      rw [← remembers, last]
      decide

end Recorder

end Testbench
