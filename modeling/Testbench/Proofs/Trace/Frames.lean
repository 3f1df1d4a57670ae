import Testbench.Proofs.Trace.Delta

/-! Traces of a run: a baseline and one record for each cycle, all of whole frames. Although a
record holds only what changed, replaying the trace up to any record gives the frame that
this record was made from. -/
namespace Testbench.Trace

def cycleSamples (frame : Nat → Frame) (done cycles : Nat) : List Sample :=
  (List.range cycles).map fun c => .cycle (done + c + 1) (frame (c + 1))

def runSamples (frame : Nat → Frame) (cycles : Nat) : List Sample :=
  .initial (frame 0) :: cycleSamples frame 0 cycles

variable {frame : Nat → Frame} {cycles : Nat}

theorem cycleSamples_succ (frame : Nat → Frame) (done cycles : Nat) :
    cycleSamples frame done (cycles + 1) =
      .cycle (done + 1) (frame 1) :: cycleSamples (fun c => frame (c + 1)) (done + 1) cycles := by
  simp only [cycleSamples, List.range_succ_eq_map, List.map_cons, List.map_map, Function.comp_def]
  simp only [Nat.add_zero, Nat.zero_add, Nat.succ_eq_add_one, Nat.add_assoc, Nat.add_comm 1]

theorem length_runSamples : (runSamples frame cycles).length = cycles + 1 := by
  simp [runSamples, cycleSamples]

theorem time_runSamples : (runSamples frame cycles).map Sample.time = List.range (cycles + 1) := by
  rw [List.range_succ_eq_map]
  simp [runSamples, cycleSamples, Sample.time, Function.comp_def]

theorem baseline_runSamples :
    (runSamples frame cycles).map Sample.baseline = true :: List.replicate cycles false := by
  simp [runSamples, cycleSamples, Sample.baseline, Function.comp_def, List.map_const']

theorem values_runSamples (frame : Nat → Frame) {c : Nat} (within : c ≤ cycles) :
    ∃ sample, (runSamples frame cycles)[c]? = some sample ∧
      sample.values = (frame c).values.toList := by
  cases c with
  | zero => exact ⟨_, rfl, rfl⟩
  | succ c =>
    refine ⟨.cycle (c + 1) (frame (c + 1)), ?_, rfl⟩
    simp [runSamples, cycleSamples, List.getElem?_range within]

theorem supplied_runSamples {c j : Nat} (within : c ≤ cycles)
    (inside : j < (frame c).values.size) :
    supplied ((runSamples frame cycles).take (c + 1)) j = (frame c).values[j]? := by
  obtain ⟨sample, taken, values⟩ := values_runSamples frame within
  rw [List.take_add_one, taken, Option.toList_some, supplied_concat, values,
    Array.getElem?_toList, Array.getElem?_eq_getElem inside, Option.some_or]

theorem held_encode_of_undeclared (signals : List Signal) (samples : List Sample) {j : Nat}
    (undeclared : signals.length ≤ j) :
    held (encode (Trace.wires signals) [] samples) j = none := by
  induction samples using List.reverseRecOn with
  | nil => rfl
  | append_singleton samples sample ih =>
    rw [encode_concat, held_concat, Sample.record, delta,
      replay_filterMap fun _ _ => wire_of_change?, length_wires,
      if_neg (Nat.not_lt.mpr undeclared), ih]

/-- A reader of some records finds a baseline at time zero, then one record for each cycle, and
holds after each of them just the values of its frame, cut to the widths of the signals. -/
structure Replays (signals : List Signal) (frame : Nat → Frame) (cycles : Nat)
    (records : List Record) : Prop where
  times : records.map Record.time = List.range (cycles + 1)
  baselines : records.map Record.baseline = true :: List.replicate cycles false
  frames : ∀ c ≤ cycles, ∀ j, held (records.take (c + 1)) j =
    (signals.zip (frame c).values.toList)[j]?.map fun (signal, value) =>
      value.toNat % 2 ^ signal.width

theorem replays_encode (signals : List Signal) (frame : Nat → Frame) (cycles : Nat)
    (whole : ∀ c ≤ cycles, (frame c).size = signals.length) :
    Replays signals frame cycles (encode (Trace.wires signals) [] (runSamples frame cycles)) where
  times := by rw [(decodes_encode signals _).times, time_runSamples]
  baselines := by rw [(decodes_encode signals _).baselines, baseline_runSamples]
  frames := by
    intro c within j
    rw [take_encode]
    by_cases declared : j < signals.length
    · have inside : j < (frame c).values.size := by
        rw [← whole c within] at declared
        exact declared
      rw [held_encode signals _ (List.getElem?_eq_getElem declared),
        supplied_runSamples within inside]
      simp [declared, inside]
    · rw [held_encode_of_undeclared signals _ (Nat.le_of_not_lt declared)]
      simp [declared]

/-- The bytes of a trace of all the frames: the header, and behind it records that replay
them. -/
def Traces (signals : List Signal) (frame : Nat → Frame) (cycles : Nat) (contents : ByteArray) :
    Prop :=
  ∃ text records,
    contents = (Sink.characters (header signals) ++ text).utf8Encode ∧
      read? text = some records ∧ Replays signals frame cycles records

theorem traces_encode (signals : List Signal) (frame : Nat → Frame) (cycles : Nat)
    (whole : ∀ c ≤ cycles, (frame c).size = signals.length) :
    Traces signals frame cycles (Sink.characters (header signals) ++
      render (encode (Trace.wires signals) [] (runSamples frame cycles))).utf8Encode :=
  ⟨_, _, rfl, read?_render _, replays_encode signals frame cycles whole⟩

end Testbench.Trace
