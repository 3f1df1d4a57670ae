import Testbench.Proofs.Accumulator.Machine
import Testbench.Proofs.Design.Operation

/-! What the registers of the accumulator, their shadows and the write port have to do with each
other in every state, in whatever order the halves of its ticks have come. A halt is latched from
the shadows, so the port must be idle as soon as a halt is evaluated and not only once it shows. -/
namespace Testbench.Accumulator

/-- Registers or shadows together with the port that is served when they are latched. -/
structure Settled (registers : Registers) (port : WritePort) : Prop where
  halted_of_fault : registers.fault = true → registers.halted = true
  idle_of_halted : registers.halted = true → port = .idle

structure Consistent (state : Accumulator) : Prop where
  registers : Settled state.registers state.port
  next : Settled state.next state.port
  /-- The port has 32 bits, an address in an instruction 24. -/
  address_lt : state.port.address.toNat < 2 ^ 24

theorem settled_cleared (port : WritePort) : Settled .cleared port :=
  ⟨nofun, nofun⟩

theorem Settled.withIdle {registers : Registers} {port : WritePort}
    (settled : Settled registers port) : Settled registers .idle :=
  ⟨settled.halted_of_fault, fun _ => rfl⟩

theorem address_idle_lt : WritePort.idle.address.toNat < 2 ^ 24 := by
  decide

theorem port_evaluate_of_halted (memory : Image) {registers : Registers} {instruction : Instruction}
    (running : registers.halted = false)
    (halts : (evaluate memory registers instruction).1.halted = true) :
    (evaluate memory registers instruction).2 = .idle := by
  cases instruction with
  | store address => exact absurd (running.symm.trans halts) Bool.false_ne_true
  | _ => rfl

theorem fault_evaluate (memory : Image) {registers : Registers} {instruction : Instruction}
    (sound : registers.fault = false)
    (faults : (evaluate memory registers instruction).1.fault = true) :
    (evaluate memory registers instruction).1.halted = true := by
  cases instruction with
  | halt => rfl
  | unknown => rfl
  | jumpIfZero target =>
    unfold evaluate at faults
    dsimp only at faults
    split at faults <;> exact absurd (sound.symm.trans faults) Bool.false_ne_true
  | _ => exact absurd (sound.symm.trans faults) Bool.false_ne_true

theorem settled_evaluate (memory : Image) {registers : Registers} {port : WritePort}
    (settled : Settled registers port) (running : registers.halted = false)
    (instruction : Instruction) :
    Settled (evaluate memory registers instruction).1
      (evaluate memory registers instruction).2 := by
  have sound : registers.fault = false := by
    rw [← Bool.not_eq_true]
    intro fault
    exact Bool.false_ne_true (running.symm.trans (settled.halted_of_fault fault))
  exact ⟨fault_evaluate memory sound, port_evaluate_of_halted memory running⟩

theorem address_evaluate_lt (memory : Image) (registers : Registers) (word : UInt32) :
    (evaluate memory registers (.decode word)).2.address.toNat < 2 ^ 24 := by
  have operand : (word &&& Instruction.operandMask).toNat < 2 ^ 24 := by
    rw [toNat_operand]
    exact Nat.mod_lt _ (by decide)
  unfold Instruction.decode
  dsimp only
  split
  case h_4 => exact operand
  all_goals exact address_idle_lt

theorem consistent_ofMemory (memory : Image) : Consistent (ofMemory memory) :=
  ⟨settled_cleared _, settled_cleared _, address_idle_lt⟩

theorem invariant_consistent : design.Invariant Consistent where
  init state := consistent_ofMemory state.memory
  stepLow reset {state} before := by
    show Consistent (state.stepLow reset)
    unfold stepLow
    split
    · exact ⟨before.registers.withIdle, settled_cleared _, address_idle_lt⟩
    · split
      · exact ⟨before.registers.withIdle, before.registers.withIdle, address_idle_lt⟩
      · rename_i running
        have running : state.registers.halted = false := Bool.eq_false_iff.mpr running
        refine ⟨⟨before.registers.halted_of_fault, fun halted => ?_⟩,
          settled_evaluate state.memory before.registers running _, address_evaluate_lt ..⟩
        exact absurd (running.symm.trans halted) Bool.false_ne_true
  stepHigh reset {state} before := by
    show Consistent (state.stepHigh reset)
    unfold stepHigh
    split
    · exact ⟨settled_cleared _, before.next, before.address_lt⟩
    · split <;> exact ⟨before.next, before.next, before.address_lt⟩
  edit _ _ before := ⟨before.registers, before.next, before.address_lt⟩

theorem consistent_perform (memory : Image) (operations : List Operation) :
    Consistent (design.perform operations (ofMemory memory)) :=
  invariant_consistent.perform operations (consistent_ofMemory memory)

end Testbench.Accumulator
