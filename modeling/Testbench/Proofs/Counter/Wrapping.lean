import Testbench.Design.Bundled
import Testbench.Proofs.Counter.Filling

/-! The register of the counter has 32 bits, its memory any depth. The halt compares the two, so
a depth that the register reaches is met in the cycle that fills the memory, and a larger one
never: the register wraps, the counter starts over at the first word and runs on. -/
namespace Testbench

namespace Counter

def rewritten (memory : Image) : (cycles : Nat) → Image
  | 0 => memory
  | cycles + 1 => (rewritten memory cycles).write (cycles % 2 ^ 32) (UInt32.ofNat cycles)

def unending (memory : Image) (cycles : Nat) : Counter where
  memory := rewritten memory cycles
  count := UInt32.ofNat cycles
  nextCount := UInt32.ofNat cycles
  halted := false
  nextHalted := false
  reset := cycles == 0

variable {memory : Image}

@[simp] theorem depth_rewritten (memory : Image) (cycles : Nat) :
    (rewritten memory cycles).depth = memory.depth := by
  induction cycles with
  | zero => rfl
  | succ cycles ih => rw [rewritten, Image.depth_write, ih]

theorem rewritten_of_le {cycles : Nat} (before : cycles ≤ 2 ^ 32) :
    rewritten memory cycles = filled memory cycles := by
  induction cycles with
  | zero => rfl
  | succ cycles ih =>
    rw [rewritten, filled, ih (by omega), Nat.mod_eq_of_lt (by omega)]

theorem tick_unending (large : 2 ^ 32 ≤ memory.depth) (cycles : Nat) :
    design.tick false (unending memory cycles) = unending memory (cycles + 1) := by
  have next : UInt32.ofNat cycles + 1 = UInt32.ofNat (cycles + 1) :=
    (UInt32.ofNat_add cycles 1).symm
  have short : decide (memory.depth ≤ (UInt32.ofNat (cycles + 1)).toNat) = false := by
    have := (UInt32.ofNat (cycles + 1)).toNat_lt
    simp
    omega
  have address : (UInt32.ofNat cycles).toNat = cycles % 2 ^ 32 := UInt32.toNat_ofNat'
  rw [tick_of_running _ rfl]
  simp only [unending, rewritten, depth_rewritten, next, short, address]
  rfl

theorem iterate_tick_unending (large : 2 ^ 32 ≤ memory.depth) (n : Nat) :
    (design.tick false)^[n] (unending memory 0) = unending memory n := by
  induction n with
  | zero => rfl
  | succ n ih => rw [Function.iterate_succ_apply', ih, tick_unending large]

theorem counted_zero_of_large (large : 2 ^ 32 ≤ memory.depth) :
    counted memory 0 = unending memory 0 := by
  have running : decide (memory.depth ≤ 0) = false := by
    simp
    omega
  simp only [counted, unending, filled, rewritten, running]

theorem iterate_tick_reset (state : Counter) (n : Nat) :
    (design.tick false)^[n] (design.tick true state) =
      if state.memory.depth < 2 ^ 32 then counted state.memory (min n state.memory.depth)
      else unending state.memory n := by
  rw [tick_reset]
  split
  · rename_i small
    exact iterate_tick_counted small n
  · rename_i large
    rw [counted_zero_of_large (Nat.le_of_not_lt large),
      iterate_tick_unending (Nat.le_of_not_lt large)]

/-- After its reset the counter writes one word in each cycle. It halts in the cycle that fills
the memory, and stays halted, if the depth of the memory fits the register, and never else. -/
theorem halted_iff_full_and_countable (state : Counter) :
    let depth := state.memory.depth
    let ticked := fun n => (design.tick false)^[n] (design.tick true state)
    (∀ n, (ticked n).halted = true ↔ depth ≤ n ∧ depth < 2 ^ 32) ∧
      (∀ n, (ticked n).halted = false →
        (ticked (n + 1)).memory = (ticked n).memory.write (n % 2 ^ 32) (UInt32.ofNat n)) ∧
      ∀ n, depth ≤ n → depth < 2 ^ 32 → ∀ address < depth,
        ((ticked n).memory.read address).toNat = address := by
  intro depth ticked
  have run (n : Nat) : ticked n = if depth < 2 ^ 32 then counted state.memory (min n depth)
      else unending state.memory n := iterate_tick_reset state n
  have halts (n : Nat) : (ticked n).halted = true ↔ depth ≤ n ∧ depth < 2 ^ 32 := by
    rw [run]
    split
    · rw [halted_counted]
      omega
    · simp only [unending, Bool.false_eq_true, false_iff]
      omega
  refine ⟨halts, fun n running => ?_, fun n full small address inside => ?_⟩
  · have early : ¬(depth ≤ n ∧ depth < 2 ^ 32) := by
      rw [← halts n, running]
      exact Bool.false_ne_true
    rw [run, run]
    split
    · rename_i small
      rw [Nat.min_eq_left (by omega), Nat.min_eq_left (by omega), Nat.mod_eq_of_lt (by omega)]
      rfl
    · rfl
  · rw [run, if_pos small, Nat.min_eq_right full]
    show ((filled state.memory depth).read address).toNat = address
    rw [read_filled state.memory (Nat.le_refl depth) inside, if_pos inside]
    exact UInt32.toNat_ofNat_of_lt' (by show address < 2 ^ 32; omega)

/-- With one word more than the register can count, the halt does not rise although every word
has been written. -/
theorem running_after_last_word :
    ∃ state : Counter, Bundled.build .counter (2 ^ 32) = .ok state ∧
      let final := (design.tick false)^[2 ^ 32] (design.tick true state)
      (∀ address < 2 ^ 32, (final.memory.read address).toNat = address) ∧
        final.halted = false := by
  let memory := Image.zeros (2 ^ 32) (by decide)
  have depth : memory.depth = 2 ^ 32 := Image.depth_zeros _ _
  have built : Bundled.build .counter (2 ^ 32) = .ok (ofMemory memory) := by
    simp [Bundled.build, Image.ofDepth, Bundled.ofMemory, memory]
  refine ⟨ofMemory memory, built, ?_⟩
  intro final
  have reached : final = unending memory (2 ^ 32) := by
    have run := iterate_tick_reset (ofMemory memory) (2 ^ 32)
    rw [if_neg (by show ¬memory.depth < 2 ^ 32; omega)] at run
    exact run
  clear_value memory
  rw [reached]
  refine ⟨fun address inside => ?_, rfl⟩
  show ((rewritten memory (2 ^ 32)).read address).toNat = address
  rw [rewritten_of_le (Nat.le_refl _), read_filled memory (Nat.le_of_eq depth.symm) (by omega),
    if_pos inside]
  exact UInt32.toNat_ofNat_of_lt' inside

end Counter

end Testbench
