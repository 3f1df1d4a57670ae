import Testbench.Design

/-! A design that plays back prepared answers, for benches that are themselves under
test. It counts nothing but cycles out of reset: in a run the baseline is sampled
before the first cycle, and a state line and the halt output are asked for after each
one, so the number of an answer follows from the number of the cycle. -/
namespace Testbench

structure Script where
  signals : List Signal
  frames : Array Frame
  lines : Array String
  halts : Array Bool
  writes : Array (Option (Nat × UInt32))

namespace Script

/-- A numbered answer. The last one is repeated for ever, and an empty list gives the
answer `missing`. -/
def answer {α : Type} (missing : α) (answers : Array α) (number : Nat) : α :=
  answers[number]?.getD (answers.back?.getD missing)

def frame (script : Script) (number : Nat) : Frame :=
  answer .empty script.frames number

def line (script : Script) (number : Nat) : String :=
  answer "" script.lines number

def halt (script : Script) (number : Nat) : Bool :=
  answer false script.halts number

structure State where
  memory : Image
  cycles : Nat

def stepHigh (script : Script) (reset : Bool) (state : State) : State :=
  if reset then state
  else match script.writes[state.cycles]?.join with
    | some (address, word) => ⟨state.memory.write address word, state.cycles + 1⟩
    | none => ⟨state.memory, state.cycles + 1⟩

def design (script : Script) : Design State where
  name := fun _ => "scripted"
  init := fun state => ⟨state.memory, 0⟩
  stepLow := fun _ state => state
  stepHigh := script.stepHigh
  halted := fun state => script.halt (state.cycles - 1)
  signals := fun _ => script.signals
  sample := fun state => script.frame state.cycles
  stateLine := fun state => script.line (state.cycles - 1)
  memory := State.memory
  withMemory := fun memory state => ⟨memory, state.cycles⟩
  memory_withMemory := fun _ _ => rfl
  withMemory_memory := fun _ => rfl

def nextAnswers (script : Script) (calls : Array Call) : String × Bool :=
  (script.line (calls.count .stateLine), script.halt (calls.count .halted))

end Script

end Testbench
