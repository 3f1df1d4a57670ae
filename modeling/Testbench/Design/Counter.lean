import Testbench.Design
import Testbench.Text.Number

/-! A counter that fills memory: in every cycle out of reset it stores its value at
the address equal to that value and increments. Halt rises in the cycle that writes
the last word. -/
namespace Testbench

structure Counter where
  memory : Image
  count : UInt32
  nextCount : UInt32
  halted : Bool
  nextHalted : Bool
  reset : Bool
  deriving DecidableEq

namespace Counter

def ofMemory (memory : Image) : Counter :=
  ⟨memory, 0, 0, false, false, false⟩

def init (state : Counter) : Counter :=
  ofMemory state.memory

def stepLow (reset : Bool) (state : Counter) : Counter :=
  if reset then { state with reset, nextCount := 0, nextHalted := false }
  else if state.halted then { state with reset, nextCount := state.count, nextHalted := true }
  else
    let nextCount := state.count + 1
    { state with reset, nextCount, nextHalted := state.memory.depth ≤ nextCount.toNat }

def stepHigh (reset : Bool) (state : Counter) : Counter :=
  if !reset && !state.halted then
    { state with
      memory := state.memory.write state.count.toNat state.count
      count := state.nextCount
      halted := state.nextHalted }
  else { state with count := state.nextCount, halted := state.nextHalted }

def signals : List Signal :=
  [⟨"reset", 1⟩, ⟨"count", 32⟩, ⟨"halted", 1⟩]

def sample (state : Counter) : Frame :=
  Frame.empty
    |>.pushBit state.reset
    |>.push state.count.toUInt64
    |>.pushBit state.halted

theorem size_sample (state : Counter) : state.sample.size = signals.length := by
  simp [sample, signals, Frame.pushBit, Frame.empty, Frame.size, Frame.push]

def stateLine (state : Counter) : String :=
  "count=" ++ Text.hexadecimal 8 state.count.toNat ++
    " halted=" ++ (if state.halted then "1" else "0")

def design : Design Counter where
  name := fun _ => "counter"
  init := init
  stepLow := stepLow
  stepHigh := stepHigh
  halted := halted
  signals := fun _ => signals
  sample := sample
  stateLine := stateLine
  memory := memory
  withMemory := fun memory state => { state with memory }
  memory_withMemory := fun _ _ => rfl
  withMemory_memory := fun _ => rfl

end Counter

end Testbench
