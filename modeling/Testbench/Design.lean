import Testbench.Memory.Image

/-! A clocked design as a test bench sees it: a state of any type, moved on only by
`init`, the two halves of a clock tick and access to its memory, and looked at
through probes. Probes are functions of the state, so looking changes nothing. -/
namespace Testbench

structure Signal where
  name : String
  width : Nat
  deriving DecidableEq, Repr

structure Frame where
  values : Array UInt64
  deriving DecidableEq, Repr

namespace Frame

def empty : Frame :=
  ⟨#[]⟩

def push (value : UInt64) (frame : Frame) : Frame :=
  ⟨frame.values.push value⟩

def pushBit (bit : Bool) (frame : Frame) : Frame :=
  frame.push (if bit then 1 else 0)

def size (frame : Frame) : Nat :=
  frame.values.size

def isEmpty (frame : Frame) : Bool :=
  frame.values.isEmpty

end Frame

structure Design (σ : Type u) where
  name : σ → String
  /-- Puts everything but the memory into its power-on condition. -/
  init : σ → σ
  /-- Evaluates next-state values. -/
  stepLow : (reset : Bool) → σ → σ
  /-- Latches them and commits memory writes. -/
  stepHigh : (reset : Bool) → σ → σ
  halted : σ → Bool
  signals : σ → List Signal
  sample : σ → Frame
  stateLine : σ → String
  memory : σ → Image
  withMemory : Image → σ → σ
  memory_withMemory : ∀ image state, memory (withMemory image state) = image
  withMemory_memory : ∀ state, withMemory (memory state) state = state

def Design.tick {σ : Type u} (design : Design σ) (reset : Bool) (state : σ) : σ :=
  design.stepHigh reset (design.stepLow reset state)

inductive Call where
  | init
  | stepLow (reset : Bool)
  | stepHigh (reset : Bool)
  | halted
  | signals
  | sample
  | stateLine
  | memory
  | withMemory
  deriving DecidableEq, Repr

end Testbench
