import Testbench.Proofs.Trace.Format
import Mathlib.Data.List.Induction
import Mathlib.Logic.Function.Basic

/-! Records that hold only what changed, and what a reader makes of them. The encoder
compares each sample with the values it wrote last, which are those supplied since the
latest baseline; a reader who replays the changes holds the value supplied last for every
signal, whether or not it was written again. -/
namespace Testbench.Trace

/-- What one call supplies: a baseline, or the values of a cycle. -/
inductive Sample where
  | initial (frame : Frame)
  | cycle (number : Nat) (frame : Frame)
  deriving DecidableEq, Repr

namespace Sample

def time : Sample → Nat
  | .initial _ => 0
  | .cycle number _ => number

def baseline : Sample → Bool
  | .initial _ => true
  | .cycle _ _ => false

def values : Sample → List UInt64
  | .initial frame => frame.values.toList
  | .cycle _ frame => frame.values.toList

/-- A baseline starts over; a cycle goes on from what was there. -/
def continues (sample : Sample) (before : List α) : List α :=
  if sample.baseline then [] else before

end Sample

def supplied (samples : List Sample) (j : Nat) : Option UInt64 :=
  (samples.filterMap (·.values[j]?)).getLast?

def sinceInitial (samples : List Sample) : List Sample :=
  samples.foldl (fun kept sample => sample.continues kept ++ [sample]) []

/-- Whether a sample has a value for a signal other than the last one since the latest
baseline. -/
def emits (before : List Sample) (sample : Sample) (j : Nat) : Bool :=
  sample.values[j]?.any fun value =>
    supplied (sample.continues (sinceInitial before)) j ≠ some value

def replay (held : Nat → Option Nat) (changes : List Change) : Nat → Option Nat :=
  changes.foldl (fun held c => Function.update held c.wire (some c.value.toNat)) held

def held (records : List Record) : Nat → Option Nat :=
  replay (fun _ => none) (records.flatMap Record.changes)

def change? (wires : List Wire) (values last : List UInt64) (j : Nat) : Option Change := do
  let wire ← wires[j]?
  let value ← values[j]?
  if last[j]? = some value then none else some ⟨wire.number, .ofNat wire.width value.toNat⟩

def delta (wires : List Wire) (values last : List UInt64) : List Change :=
  (List.range wires.length).filterMap (change? wires values last)

def overwrite (wires : List Wire) (values last : List UInt64) : List UInt64 :=
  values.take wires.length ++ last.drop (min wires.length values.length)

namespace Sample

def record (wires : List Wire) (last : List UInt64) (sample : Sample) : Record :=
  ⟨sample.time, sample.baseline, delta wires sample.values (sample.continues last)⟩

def written (wires : List Wire) (last : List UInt64) (sample : Sample) : List UInt64 :=
  overwrite wires sample.values (sample.continues last)

end Sample

def writtenAll (wires : List Wire) (last : List UInt64) (samples : List Sample) : List UInt64 :=
  samples.foldl (Sample.written wires) last

def encode (wires : List Wire) (last : List UInt64) : List Sample → List Record
  | [] => []
  | sample :: rest => sample.record wires last :: encode wires (sample.written wires last) rest

variable {wires : List Wire} {values last : List UInt64}

theorem delta_nil_wires : delta [] values last = [] :=
  rfl

theorem delta_nil_values : delta wires [] last = [] := by
  apply List.filterMap_eq_nil_iff.mpr
  intro j _
  cases h : wires[j]? <;> simp [change?, h]

theorem delta_cons (wire : Wire) (value : UInt64) :
    delta (wire :: wires) (value :: values) last =
      (if last.head? = some value then []
        else [⟨wire.number, .ofNat wire.width value.toNat⟩]) ++
        delta wires values last.tail := by
  have later : change? (wire :: wires) (value :: values) last ∘ Nat.succ =
      change? wires values last.tail := by
    funext j
    simp [change?]
  rw [delta, List.length_cons, List.range_succ_eq_map, List.filterMap_cons,
    List.filterMap_map, later]
  by_cases same : last.head? = some value
  · simp [change?, ← List.head?_eq_getElem?, same, delta]
  · simp [change?, ← List.head?_eq_getElem?, same, delta]

theorem overwrite_nil_wires : overwrite [] values last = last := by
  simp [overwrite]

theorem overwrite_nil_values : overwrite wires [] last = last := by
  simp [overwrite]

theorem overwrite_cons (wire : Wire) (value : UInt64) :
    overwrite (wire :: wires) (value :: values) last =
      value :: overwrite wires values last.tail := by
  simp [overwrite, List.drop_tail, Nat.add_min_add_right]

theorem getElem?_overwrite (j : Nat) :
    (overwrite wires values last)[j]? =
      (if j < wires.length then values[j]? else none).or last[j]? := by
  induction wires generalizing values last j with
  | nil => rw [overwrite_nil_wires]; rfl
  | cons wire wires ih =>
    cases values with
    | nil => simp [overwrite_nil_values]
    | cons value values =>
      rw [overwrite_cons]
      cases j with
      | zero => simp
      | succ j => simp [ih]

theorem getElem?_wires (signals : List Signal) (j : Nat) :
    (Trace.wires signals)[j]? = signals[j]?.map fun signal => ⟨j, signal.width⟩ := by
  simp [Trace.wires, List.getElem?_zipIdx, Function.comp_def]

theorem wire_of_change? {signals : List Signal} {j : Nat} {c : Change}
    (h : change? (Trace.wires signals) values last j = some c) : c.wire = j := by
  unfold change? at h
  rw [getElem?_wires] at h
  cases declared : signals[j]? with
  | none => simp [declared] at h
  | some signal =>
    cases new : values[j]? with
    | none => simp [declared, new] at h
    | some value =>
      simp [declared, new] at h
      exact h.2 ▸ rfl

theorem supplied_concat (samples : List Sample) (sample : Sample) (j : Nat) :
    supplied (samples ++ [sample]) j = sample.values[j]?.or (supplied samples j) := by
  unfold supplied
  rw [List.filterMap_append, List.getLast?_append]
  cases h : sample.values[j]? <;> simp [h]

theorem sinceInitial_concat (samples : List Sample) (sample : Sample) :
    sinceInitial (samples ++ [sample]) = sample.continues (sinceInitial samples) ++ [sample] :=
  List.foldl_concat _ _ _ _

theorem writtenAll_concat (samples : List Sample) (sample : Sample) :
    writtenAll wires last (samples ++ [sample]) =
      sample.written wires (writtenAll wires last samples) :=
  List.foldl_concat _ _ _ _

theorem supplied_of_continues {samples : List Sample} {sample : Sample} {j : Nat}
    {value : UInt64} (h : supplied (sample.continues samples) j = some value) :
    supplied samples j = some value := by
  unfold Sample.continues at h
  split at h
  · exact nomatch h
  · exact h

theorem getElem?_continues {samples : List Sample} (sample : Sample) {j : Nat}
    (same : last[j]? = supplied samples j) :
    (sample.continues last)[j]? = supplied (sample.continues samples) j := by
  unfold Sample.continues
  split
  · rfl
  · exact same

theorem supplied_of_sinceInitial {samples : List Sample} {j : Nat} {value : UInt64}
    (h : supplied (sinceInitial samples) j = some value) : supplied samples j = some value := by
  induction samples using List.reverseRecOn with
  | nil => exact h
  | append_singleton samples sample ih =>
    rw [sinceInitial_concat, supplied_concat] at h
    rw [supplied_concat]
    cases new : sample.values[j]? with
    | some latest =>
      rw [new] at h
      exact h
    | none =>
      rw [new, Option.none_or] at h
      exact ih (supplied_of_continues h)

theorem getElem?_writtenAll (samples : List Sample) {j : Nat} (declared : j < wires.length) :
    (writtenAll wires [] samples)[j]? = supplied (sinceInitial samples) j := by
  induction samples using List.reverseRecOn with
  | nil => rfl
  | append_singleton samples sample ih =>
    rw [writtenAll_concat, sinceInitial_concat, supplied_concat, Sample.written,
      getElem?_overwrite, if_pos declared, getElem?_continues sample ih]

theorem change?_writtenAll {signals : List Signal} (before : List Sample) (sample : Sample)
    {j : Nat} {signal : Signal} (declared : signals[j]? = some signal) :
    change? (Trace.wires signals) sample.values
        (sample.continues (writtenAll (Trace.wires signals) [] before)) j =
      if emits before sample j then
        sample.values[j]?.map fun value => ⟨j, .ofNat signal.width value.toNat⟩
      else none := by
  have bound : j < (Trace.wires signals).length := by
    rw [length_wires]
    exact (List.getElem?_eq_some_iff.mp declared).1
  unfold change? emits
  rw [getElem?_wires, declared, getElem?_continues sample (getElem?_writtenAll before bound)]
  cases sample.values[j]? with
  | none => rfl
  | some value =>
    by_cases same : supplied (sample.continues (sinceInitial before)) j = some value
    · simp [same]
    · simp [same]

theorem wires_record (signals : List Signal) (before : List Sample) (sample : Sample) :
    (sample.record (Trace.wires signals)
        (writtenAll (Trace.wires signals) [] before)).changes.map Change.wire =
      (List.range signals.length).filter (emits before sample) := by
  unfold Sample.record delta
  rw [List.map_filterMap, length_wires, ← List.filterMap_eq_filter]
  apply List.filterMap_congr
  intro j mem
  have declared := List.getElem?_eq_getElem (List.mem_range.mp mem)
  rw [change?_writtenAll before sample declared]
  cases new : sample.values[j]? with
  | none => simp [emits, new, Option.guard]
  | some value =>
    by_cases emitted : emits before sample j = true
    · simp [emitted, Option.guard]
    · simp [emitted, Option.guard]

theorem replay_append (start : Nat → Option Nat) (first second : List Change) :
    replay start (first ++ second) = replay (replay start first) second :=
  List.foldl_append

theorem foldl_update_filterMap {α : Type} {f : Nat → Option Change}
    (own : ∀ i c, f i = some c → c.wire = i) (value : Change → α) (start : Nat → α) (j n : Nat) :
    ((List.range n).filterMap f).foldl
        (fun held c => Function.update held c.wire (value c)) start j =
      if j < n then ((f j).map value).getD (start j) else start j := by
  induction n with
  | zero => rfl
  | succ n ih =>
    rw [List.range_succ, List.filterMap_append, List.foldl_append]
    by_cases here : j = n
    · subst here
      rw [if_neg (Nat.lt_irrefl j)] at ih
      rw [if_pos (Nat.lt_succ_self j)]
      cases line : f j with
      | none => simpa [line] using ih
      | some c => simp [line, own j c line]
    · have same : j < n + 1 ↔ j < n := by omega
      simp only [same]
      rw [← ih]
      cases line : f n with
      | none => simp [line]
      | some c =>
        have other : j ≠ c.wire := own n c line ▸ here
        simp [line, Function.update_of_ne other]

theorem replay_filterMap {f : Nat → Option Change} (own : ∀ i c, f i = some c → c.wire = i)
    (start : Nat → Option Nat) (j n : Nat) :
    replay start ((List.range n).filterMap f) j =
      if j < n then ((f j).map (·.value.toNat)).or (start j) else start j := by
  rw [replay, foldl_update_filterMap own]
  cases f j <;> rfl

theorem held_concat (records : List Record) (record : Record) :
    held (records ++ [record]) = replay (held records) record.changes := by
  unfold held
  rw [List.flatMap_append, List.flatMap_singleton, replay_append]

theorem encode_concat (samples : List Sample) (sample : Sample) :
    encode wires last (samples ++ [sample]) =
      encode wires last samples ++ [sample.record wires (writtenAll wires last samples)] := by
  induction samples generalizing last with
  | nil => rfl
  | cons first rest ih =>
    rw [List.cons_append, encode, ih]
    rfl

theorem take_encode (samples : List Sample) (n : Nat) :
    (encode wires last samples).take n = encode wires last (samples.take n) := by
  induction samples generalizing last n with
  | nil => simp [encode]
  | cons sample rest ih =>
    cases n with
    | zero => rfl
    | succ n => simp [encode, ih]

theorem getElem?_encode (samples : List Sample) (n : Nat) :
    (encode wires last samples)[n]? =
      samples[n]?.map (Sample.record wires (writtenAll wires last (samples.take n))) := by
  induction samples generalizing last n with
  | nil => rfl
  | cons sample rest ih =>
    cases n with
    | zero => rfl
    | succ n =>
      rw [encode, List.getElem?_cons_succ, ih]
      rfl

/-- A reader holds what was supplied last, although most of it is not written again. -/
theorem held_encode (signals : List Signal) (samples : List Sample) {j : Nat} {signal : Signal}
    (declared : signals[j]? = some signal) :
    held (encode (Trace.wires signals) [] samples) j =
      (supplied samples j).map (·.toNat % 2 ^ signal.width) := by
  have bound : j < signals.length := (List.getElem?_eq_some_iff.mp declared).1
  induction samples using List.reverseRecOn with
  | nil => rfl
  | append_singleton samples sample ih =>
    rw [encode_concat, held_concat, supplied_concat, Sample.record, delta,
      replay_filterMap fun _ _ => wire_of_change?, length_wires, if_pos bound,
      change?_writtenAll samples sample declared, ih]
    cases new : sample.values[j]? with
    | none => simp
    | some value =>
      by_cases emitted : emits samples sample j = true
      · simp [emitted]
      · -- a value that is not written is the one the reader holds already
        have kept : supplied (sample.continues (sinceInitial samples)) j = some value := by
          simpa [emits, new] using emitted
        simp [emitted, supplied_of_sinceInitial (supplied_of_continues kept)]

/-- What a reader learns from records about the samples they were made from: which record
stems from which sample, which signals a record has a line for, and, after every record,
the values supplied last. -/
structure Decodes (signals : List Signal) (samples : List Sample) (records : List Record) :
    Prop where
  times : records.map Record.time = samples.map Sample.time
  baselines : records.map Record.baseline = samples.map Sample.baseline
  lines : ∀ n sample record, samples[n]? = some sample → records[n]? = some record →
    record.changes.map Change.wire =
      (List.range signals.length).filter (emits (samples.take n) sample)
  values : ∀ n j signal, signals[j]? = some signal →
    held (records.take n) j = (supplied (samples.take n) j).map (·.toNat % 2 ^ signal.width)

theorem map_encode {α : Type} (field : Record → α) (origin : Sample → α)
    (same : ∀ last sample, field (Sample.record wires last sample) = origin sample)
    (samples : List Sample) :
    (encode wires last samples).map field = samples.map origin := by
  induction samples generalizing last with
  | nil => rfl
  | cons sample rest ih => rw [encode, List.map_cons, List.map_cons, same, ih]

theorem decodes_encode (signals : List Signal) (samples : List Sample) :
    Decodes signals samples (encode (Trace.wires signals) [] samples) where
  times := map_encode Record.time Sample.time (fun _ _ => rfl) samples
  baselines := map_encode Record.baseline Sample.baseline (fun _ _ => rfl) samples
  lines := by
    intro n sample record given written
    rw [getElem?_encode, given] at written
    rw [← Option.some.inj written]
    exact wires_record signals (samples.take n) sample
  values := by
    intro n j signal declared
    rw [take_encode]
    exact held_encode signals (samples.take n) declared

end Testbench.Trace
