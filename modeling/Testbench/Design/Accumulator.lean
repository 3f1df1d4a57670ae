import Testbench.Design
import Testbench.Design.Instruction
import Testbench.Text.Number

/-! A processor with a single accumulator that executes one instruction from its
memory in every cycle. The low half of a tick fetches and evaluates into shadow
registers and a write port; the high half commits both. Halt is kept until the next
reset, and an unknown opcode halts the machine with a fault. -/
namespace Testbench

namespace Accumulator

structure Registers where
  pc : UInt32
  acc : UInt32
  halted : Bool
  fault : Bool
  deriving DecidableEq, Repr

def Registers.cleared : Registers :=
  ⟨0, 0, false, false⟩

structure WritePort where
  enable : Bool
  address : UInt32
  data : UInt32
  deriving DecidableEq, Repr

def WritePort.idle : WritePort :=
  ⟨false, 0, 0⟩

end Accumulator

open Accumulator in
structure Accumulator where
  memory : Image
  registers : Registers
  next : Registers
  port : WritePort
  instruction : UInt32
  reset : Bool
  deriving DecidableEq

namespace Accumulator

def ofMemory (memory : Image) : Accumulator :=
  ⟨memory, .cleared, .cleared, .idle, 0, false⟩

/-- Next-state values of the registers and what the instruction writes. -/
def evaluate (memory : Image) (registers : Registers) (instruction : Instruction) :
    Registers × WritePort :=
  let next := { registers with pc := registers.pc + 1 }
  match instruction with
  | .halt => ({ registers with halted := true }, .idle)
  | .loadImmediate operand => ({ next with acc := operand }, .idle)
  | .load address => ({ next with acc := memory.read address.toNat }, .idle)
  | .store address => (next, ⟨true, address, registers.acc⟩)
  | .add address => ({ next with acc := registers.acc + memory.read address.toNat }, .idle)
  | .subtract address => ({ next with acc := registers.acc - memory.read address.toNat }, .idle)
  | .addImmediate operand => ({ next with acc := registers.acc + operand }, .idle)
  | .jump target => ({ registers with pc := target }, .idle)
  | .jumpIfZero target =>
    (if registers.acc = 0 then { registers with pc := target } else next, .idle)
  | .unknown => ({ registers with halted := true, fault := true }, .idle)

def init (state : Accumulator) : Accumulator :=
  ofMemory state.memory

def stepLow (reset : Bool) (state : Accumulator) : Accumulator :=
  if reset then
    { state with reset, instruction := 0, next := .cleared, port := .idle }
  else if state.registers.halted then
    { state with reset, next := state.registers, port := .idle }
  else
    let instruction := state.memory.read state.registers.pc.toNat
    let (next, port) := evaluate state.memory state.registers (.decode instruction)
    { state with reset, instruction, next, port }

def stepHigh (reset : Bool) (state : Accumulator) : Accumulator :=
  if reset then { state with registers := .cleared }
  else if state.port.enable then
    { state with
      memory := state.memory.write state.port.address.toNat state.port.data
      registers := state.next }
  else { state with registers := state.next }

def signals : List Signal :=
  [⟨"reset", 1⟩, ⟨"pc", 32⟩, ⟨"acc", 32⟩, ⟨"instr", 32⟩, ⟨"mem_we", 1⟩, ⟨"mem_addr", 24⟩,
    ⟨"mem_data", 32⟩, ⟨"halted", 1⟩, ⟨"fault", 1⟩]

def sample (state : Accumulator) : Frame :=
  Frame.empty
    |>.pushBit state.reset
    |>.push state.registers.pc.toUInt64
    |>.push state.registers.acc.toUInt64
    |>.push state.instruction.toUInt64
    |>.pushBit state.port.enable
    |>.push state.port.address.toUInt64
    |>.push state.port.data.toUInt64
    |>.pushBit state.registers.halted
    |>.pushBit state.registers.fault

def stateLine (state : Accumulator) : String :=
  "pc=" ++ Text.hexadecimal 6 state.registers.pc.toNat ++
    " instr=" ++ Text.hexadecimal 8 state.instruction.toNat ++
    " acc=" ++ Text.hexadecimal 8 state.registers.acc.toNat ++
    (if state.port.enable then
      " mem[" ++ Text.hexadecimal 6 state.port.address.toNat ++ "]<=" ++
        Text.hexadecimal 8 state.port.data.toNat
    else "") ++
    (if state.registers.fault then " FAULT" else if state.registers.halted then " HALT" else "")

def design : Design Accumulator where
  name := fun _ => "accumulator"
  init := init
  stepLow := stepLow
  stepHigh := stepHigh
  halted := fun state => state.registers.halted
  signals := fun _ => signals
  sample := sample
  stateLine := stateLine
  memory := memory
  withMemory := fun memory state => { state with memory }
  memory_withMemory := fun _ _ => rfl
  withMemory_memory := fun _ => rfl

end Accumulator

end Testbench
