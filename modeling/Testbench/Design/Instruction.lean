/-! Instruction words: the opcode is the most significant byte and the operand the
rest. Memory operands are word addresses. -/
namespace Testbench

inductive Instruction where
  | halt
  | loadImmediate (operand : UInt32)
  | load (address : UInt32)
  | store (address : UInt32)
  | add (address : UInt32)
  | subtract (address : UInt32)
  | addImmediate (operand : UInt32)
  | jump (target : UInt32)
  | jumpIfZero (target : UInt32)
  | unknown
  deriving DecidableEq, Repr

namespace Instruction

def operandMask : UInt32 := 0x00FFFFFF

def encode (opcode : UInt8) (operand : UInt32) : UInt32 :=
  (opcode.toUInt32 <<< 24) ||| (operand &&& operandMask)

def decode (word : UInt32) : Instruction :=
  let operand := word &&& operandMask
  match (word >>> 24).toNat with
  | 0 => halt
  | 1 => loadImmediate operand
  | 2 => load operand
  | 3 => store operand
  | 4 => add operand
  | 5 => subtract operand
  | 6 => addImmediate operand
  | 7 => jump operand
  | 8 => jumpIfZero operand
  | _ => unknown

end Instruction

end Testbench
