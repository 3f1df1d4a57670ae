import Testbench.Design.Counter
import Testbench.Proofs.Memory.Load
import Testbench.Proofs.Run.Observation

/-! The counter fills memory with addresses, one word in each cycle, and halts in the cycle
that writes the last one. The write takes the old count and the halt looks at the new one, so
everything about a cycle is said by its number: that many words are filled. -/
namespace Testbench

namespace Counter

def filled (memory : Image) : (count : Nat) → Image
  | 0 => memory
  | count + 1 => (filled memory count).write count (UInt32.ofNat count)

@[simp] theorem depth_filled (memory : Image) (count : Nat) :
    (filled memory count).depth = memory.depth := by
  induction count with
  | zero => rfl
  | succ count ih => rw [filled, Image.depth_write, ih]

theorem read_filled (memory : Image) {count address : Nat} (within : count ≤ memory.depth)
    (inside : address < memory.depth) :
    (filled memory count).read address =
      if address < count then UInt32.ofNat address else memory.read address := by
  induction count with
  | zero => rfl
  | succ count ih =>
    rw [filled, Image.read_write, depth_filled, Nat.mod_eq_of_lt inside,
      Nat.mod_eq_of_lt within, ih (Nat.le_of_succ_le within)]
    by_cases here : address = count
    · rw [if_pos here, if_pos (by omega), here]
    · rw [if_neg here]
      exact if_congr (by omega) rfl rfl

/-- The counter so many cycles after its reset, up to the halt. -/
def counted (memory : Image) (count : Nat) : Counter where
  memory := filled memory count
  count := UInt32.ofNat count
  nextCount := UInt32.ofNat count
  halted := decide (memory.depth ≤ count)
  nextHalted := decide (memory.depth ≤ count)
  reset := count == 0

theorem tick_of_halted (state : Counter) (halted : state.halted = true) :
    design.tick false state =
      { state with reset := false, nextCount := state.count, nextHalted := true } := by
  simp [Design.tick, design, stepLow, stepHigh, halted]

theorem tick_of_running (state : Counter) (running : state.halted = false) :
    let full := decide (state.memory.depth ≤ (state.count + 1).toNat)
    design.tick false state =
      { memory := state.memory.write state.count.toNat state.count, count := state.count + 1,
        nextCount := state.count + 1, halted := full, nextHalted := full, reset := false } := by
  simp [Design.tick, design, stepLow, stepHigh, running]

theorem tick_reset (state : Counter) : design.tick true state = counted state.memory 0 := by
  have started : decide (state.memory.depth ≤ 0) = false :=
    decide_eq_false (Nat.not_le_of_lt state.memory.depth_pos)
  simp only [Design.tick, design, stepLow, stepHigh, counted, filled, started, if_true,
    Bool.not_true, Bool.false_and, Bool.false_eq_true, if_false, beq_self_eq_true]
  rfl

variable {memory : Image}

theorem tick_counted {count : Nat} (fits : memory.depth < 2 ^ 32) (running : count < memory.depth) :
    design.tick false (counted memory count) = counted memory (count + 1) := by
  have old : (UInt32.ofNat count).toNat = count :=
    UInt32.toNat_ofNat_of_lt' (by show count < 2 ^ 32; omega)
  have new : (UInt32.ofNat (count + 1)).toNat = count + 1 :=
    UInt32.toNat_ofNat_of_lt' (by show count + 1 < 2 ^ 32; omega)
  have next : UInt32.ofNat count + 1 = UInt32.ofNat (count + 1) := (UInt32.ofNat_add count 1).symm
  rw [tick_of_running _ (decide_eq_false (Nat.not_le_of_lt running))]
  simp only [counted, filled, depth_filled, next, old, new]
  rfl

theorem tick_full : design.tick false (counted memory memory.depth) =
    counted memory memory.depth := by
  have later : (memory.depth == 0) = false := beq_false_of_ne (Nat.ne_of_gt memory.depth_pos)
  rw [tick_of_halted _ (decide_eq_true (Nat.le_refl _))]
  simp [counted, later]

theorem iterate_tick_counted (fits : memory.depth < 2 ^ 32) (n : Nat) :
    (design.tick false)^[n] (counted memory 0) = counted memory (min n memory.depth) := by
  induction n with
  | zero => rw [Nat.zero_min, Function.iterate_zero_apply]
  | succ n ih =>
    rw [Function.iterate_succ_apply', ih]
    rcases Nat.lt_or_ge n memory.depth with running | full
    · rw [Nat.min_eq_left (Nat.le_of_lt running), Nat.min_eq_left running,
        tick_counted fits running]
    · rw [Nat.min_eq_right full, Nat.min_eq_right (Nat.le_succ_of_le full), tick_full]

theorem halted_counted {count : Nat} :
    (counted memory count).halted = true ↔ memory.depth ≤ count :=
  decide_eq_true_iff

theorem firstHalt_counted (fits : memory.depth < 2 ^ 32) :
    design.firstHalt (counted memory 0) = memory.depth := by
  have halts (n : Nat) : design.HaltsAfter (counted memory 0) n ↔
      1 ≤ n ∧ memory.depth ≤ min n memory.depth := by
    unfold Design.HaltsAfter
    rw [iterate_tick_counted fits]
    exact and_congr_right fun _ => halted_counted
  apply design.firstHalt_eq
  · exact (halts _).mpr ⟨memory.depth_pos, by omega⟩
  · intro earlier before reached
    have := (halts earlier).mp reached
    omega

end Counter

namespace Bench

theorem depth_loaded {σ : Type u} (bench : Bench σ) (files : FileSystem) :
    (bench.design.memory (bench.loaded files).2).depth =
      (bench.design.memory (bench.design.init bench.state)).depth := by
  unfold loaded
  dsimp only
  split
  · rfl
  · rw [bench.design.memory_withMemory, Image.depth_load]

variable {ω : Type} [Sink ω]

/-- A run of the counter fills memory with addresses, one word in each cycle, until the memory
is full or the budget spent. It halts if it is full, and then nothing changes any more. -/
theorem run_fills_memory (config : Config) (state : Counter) (phase : Phase)
    (files : FileSystem) (out : ω) (small : state.memory.depth < 2 ^ 32)
    (loads : ((Bench.mk Counter.design config state phase).loaded files).1 = .ok ()) :
    let bench := Bench.mk Counter.design config state phase
    let depth := state.memory.depth
    let count := min config.maxCycles.toNat depth
    let start := (bench.loaded files).2
    let ticked := fun n => (Counter.design.tick false)^[n] (Counter.design.tick true start)
    let outcome := bench.run files out
    let final := outcome.bench.state
    ∃ summary, outcome.result = .ok summary ∧ summary.cycles = count ∧
      (summary.halted = true ↔ depth ≤ config.maxCycles.toNat) ∧
      (final.halted = true ↔ depth ≤ config.maxCycles.toNat) ∧
      final = ticked count ∧ final.count.toNat = count ∧ final.memory.depth = depth ∧
      (∀ address < depth, (final.memory.read address).toNat =
        if address < count then address else (start.memory.read address).toNat) ∧
      (∀ n < depth, (ticked n).halted = false ∧
        (ticked (n + 1)).memory = (ticked n).memory.write n (UInt32.ofNat n)) ∧
      ∀ n, depth ≤ n → (ticked n).halted = true ∧ ticked n = ticked depth := by
  intro bench depth count start ticked outcome final
  have same : start.memory.depth = depth := bench.depth_loaded files
  have fits : start.memory.depth < 2 ^ 32 := same ▸ small
  have run : ∀ n, ticked n = Counter.counted start.memory (min n depth) := by
    intro n
    simp only [ticked]
    rw [Counter.tick_reset, Counter.iterate_tick_counted fits, same]
  have first : Counter.design.firstHalt (Counter.design.tick true start) = depth := by
    rw [Counter.tick_reset, Counter.firstHalt_counted fits, same]
  obtain ⟨summary, result, cycles, halts, reached⟩ := bench.run_of_firstHalt files out loads first
  have within : count ≤ start.memory.depth := by omega
  have ended : final = Counter.counted start.memory count := by
    refine (reached.trans (run count)).trans ?_
    rw [Nat.min_eq_left (Nat.min_le_right _ _)]
  refine ⟨summary, result, cycles, halts, ?_, reached, ?_, ?_, ?_, ?_, ?_⟩
  · rw [ended, Counter.halted_counted]
    omega
  · rw [ended]
    exact UInt32.toNat_ofNat_of_lt' (Nat.lt_of_le_of_lt within fits)
  · rw [ended, Counter.counted, Counter.depth_filled, same]
  · intro address inside
    rw [ended, Counter.counted, Counter.read_filled _ within (same ▸ inside)]
    split
    · exact UInt32.toNat_ofNat_of_lt' (by show address < 2 ^ 32; omega)
    · rfl
  · intro n running
    rw [run, run, Nat.min_eq_left (Nat.le_of_lt running), Nat.min_eq_left running]
    refine ⟨?_, rfl⟩
    rw [← Bool.not_eq_true, Counter.halted_counted, same]
    exact Nat.not_le_of_lt running
  · intro n full
    rw [run, run, Nat.min_eq_right full, Nat.min_self]
    exact ⟨Counter.halted_counted.mpr (Nat.le_of_eq same), rfl⟩

theorem run_fills_memory_up_to_budget :
    let files := FileSystem.initial.addFile ["image"] "7 8 9".toUTF8
    let config : Config := { initialMemory := some "image", maxCycles := 2 }
    let state := Counter.ofMemory (.zeros 3 (by decide))
    let bench := Bench.mk Counter.design config state .configuring
    let outcome := bench.run files Device.accepting
    state.memory.depth < 2 ^ 32 ∧ (bench.loaded files).1 = .ok () ∧
      ∃ summary, outcome.result = .ok summary ∧ summary.cycles = 2 ∧
        ¬summary.halted = true ∧ outcome.bench.state.count.toNat = 2 ∧
        (outcome.bench.state.memory.read 1).toNat = 1 ∧
        (outcome.bench.state.memory.read 2).toNat = 9 := by
  intro files config state bench outcome
  have small : state.memory.depth < 2 ^ 32 := by decide
  have loads : (bench.loaded files).1 = .ok () := by rfl
  have start : (bench.loaded files).2.memory.read 2 = 9 := by rfl
  obtain ⟨summary, result, cycles, halts, -, -, count, -, words, -, -⟩ :=
    run_fills_memory config state .configuring files Device.accepting small loads
  have budget : min config.maxCycles.toNat state.memory.depth = 2 := by decide
  rw [budget] at cycles count words
  have written := words 1 (by decide)
  have kept := words 2 (by decide)
  rw [if_pos (by decide)] at written
  rw [if_neg (by decide), start] at kept
  -- With the names spelled out nothing has to be run to see that both runs are the same.
  simp only [outcome, bench]
  exact ⟨small, loads, summary, result, cycles, fun halted => absurd (halts.mp halted) (by decide),
    count, written, kept⟩

end Bench

end Testbench
