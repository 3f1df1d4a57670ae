import Testbench.Proofs.Trace.Frames

/-! Frames that fit their signals. A trace has room for as many bits of a value as its signal is
wide, so a reader has every value back only if none is wider. -/
namespace Testbench.Trace

structure Fits (signals : List Signal) (frame : Frame) : Prop where
  size : frame.size = signals.length
  value_lt : ∀ (i : Nat) (signal : Signal) (value : UInt64), signals[i]? = some signal →
    frame.values[i]? = some value → value.toNat < 2 ^ signal.width

theorem fits_of_wired {signals : List Signal} {frame : Frame} {wired : List (Signal × Nat)}
    (declared : wired.map Prod.fst = signals)
    (sampled : wired.map Prod.snd = frame.values.toList.map UInt64.toNat)
    (narrow : ∀ entry ∈ wired, entry.2 < 2 ^ entry.1.width) : Fits signals frame where
  size := by
    have lengths := congrArg List.length sampled
    rw [List.length_map, List.length_map, Array.length_toList] at lengths
    rw [← declared, List.length_map]
    exact lengths.symm
  value_lt := by
    intro i signal value here there
    rw [← declared, List.getElem?_map, Option.map_eq_some_iff] at here
    obtain ⟨entry, wires, rfl⟩ := here
    have same := congrArg (·[i]?) sampled
    simp only [List.getElem?_map, wires, Array.getElem?_toList, there, Option.map_some,
      Option.some.injEq] at same
    rw [← same]
    exact narrow entry (List.mem_of_getElem? wires)

/-- A reader of some records finds a baseline at time zero, then one record for each cycle, and
holds after each of them every bit of its frame and nothing else. -/
structure Retains (frame : Nat → Frame) (cycles : Nat) (records : List Record) : Prop where
  times : records.map Record.time = List.range (cycles + 1)
  baselines : records.map Record.baseline = true :: List.replicate cycles false
  frames : ∀ c ≤ cycles, ∀ j, held (records.take (c + 1)) j = (frame c).values[j]?.map UInt64.toNat

theorem Replays.retains {signals : List Signal} {frame : Nat → Frame} {cycles : Nat}
    {records : List Record} (replays : Replays signals frame cycles records)
    (fits : ∀ c ≤ cycles, Fits signals (frame c)) : Retains frame cycles records where
  times := replays.times
  baselines := replays.baselines
  frames := by
    intro c within j
    rw [replays.frames c within j]
    by_cases inside : j < (frame c).values.size
    · have declared : j < signals.length := by
        rw [← (fits c within).size]
        exact inside
      have narrow := (fits c within).value_lt j _ _ (List.getElem?_eq_getElem declared)
        (Array.getElem?_eq_getElem inside)
      simp [declared, inside, Nat.mod_eq_of_lt narrow]
    · have size : (frame c).values.toList.length = (frame c).values.size := Array.length_toList
      have outside : (signals.zip (frame c).values.toList).length ≤ j := by
        rw [List.length_zip, size]
        omega
      rw [List.getElem?_eq_none outside, Array.getElem?_eq_none (Nat.le_of_not_lt inside)]
      rfl

/-- The bytes of a trace of which no bit of any frame is lost. -/
def Keeps (signals : List Signal) (frame : Nat → Frame) (cycles : Nat) (contents : ByteArray) :
    Prop :=
  ∃ text records,
    contents = (Sink.characters (header signals) ++ text).utf8Encode ∧
      read? text = some records ∧ Retains frame cycles records

theorem Traces.keeps {signals : List Signal} {frame : Nat → Frame} {cycles : Nat}
    {contents : ByteArray} (traces : Traces signals frame cycles contents)
    (fits : ∀ c ≤ cycles, Fits signals (frame c)) : Keeps signals frame cycles contents := by
  obtain ⟨text, records, bytes, readable, replays⟩ := traces
  exact ⟨text, records, bytes, readable, replays.retains fits⟩

end Testbench.Trace
