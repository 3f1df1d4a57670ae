import Testbench.Design.Accumulator
import Mathlib.Algebra.Group.Nat.Defs
import Mathlib.Logic.Function.Iterate

/-! The processor as its programs see it: a machine over natural numbers that executes
one instruction per step, with no shadow registers and no write port. A full tick is
one step of it from any state at all, because the low half overwrites whatever an
earlier half left behind before the high half reads it. -/
namespace Testbench

/-- What a sample holds for the first signal declared under a name. -/
def Design.probe {σ : Type u} (design : Design σ) (name : String) (state : σ) : Option UInt64 :=
  ((design.signals state).findIdx? (·.name == name)).bind ((design.sample state).values[·]?)

namespace Accumulator

structure Machine where
  pc : Nat
  acc : Nat
  halted : Bool
  fault : Bool
  memory : List Nat
  deriving DecidableEq, Repr

namespace Machine

def load (address : Nat) (machine : Machine) : Nat :=
  machine.memory.getD (address % machine.memory.length) 0

def store (address word : Nat) (machine : Machine) : Machine :=
  { machine with memory := machine.memory.set (address % machine.memory.length) word }

def advance (machine : Machine) : Machine :=
  { machine with pc := (machine.pc + 1) % 2 ^ 32 }

def fetched (machine : Machine) : Nat :=
  machine.load machine.pc

def execute (word : Nat) (machine : Machine) : Machine :=
  let x := word % 2 ^ 24
  match word / 2 ^ 24 with
  | 0 => { machine with halted := true }
  | 1 => { machine.advance with acc := x }
  | 2 => { machine.advance with acc := machine.load x }
  | 3 => machine.advance.store x machine.acc
  | 4 => { machine.advance with acc := (machine.acc + machine.load x) % 2 ^ 32 }
  | 5 => { machine.advance with acc := (machine.acc + 2 ^ 32 - machine.load x) % 2 ^ 32 }
  | 6 => { machine.advance with acc := (machine.acc + x) % 2 ^ 32 }
  | 7 => { machine with pc := x }
  | 8 => if machine.acc = 0 then { machine with pc := x } else machine.advance
  | _ => { machine with halted := true, fault := true }

def step (machine : Machine) : Machine :=
  if machine.halted then machine else machine.execute machine.fetched

end Machine

def Registers.machine (memory : Image) (registers : Registers) : Machine :=
  ⟨registers.pc.toNat, registers.acc.toNat, registers.halted, registers.fault,
    memory.words.toList.map UInt32.toNat⟩

def machine (state : Accumulator) : Machine :=
  state.registers.machine state.memory

theorem load_machine (memory : Image) (registers : Registers) (address : Nat) :
    (registers.machine memory).load address = (memory.read address).toNat := by
  have inside := Nat.mod_lt address memory.size_pos
  simp [Machine.load, Registers.machine, Image.read, inside]

theorem store_machine (memory : Image) (registers : Registers) (address : Nat) (word : UInt32) :
    (registers.machine memory).store address word.toNat =
      registers.machine (memory.write address word) := by
  simp [Machine.store, Registers.machine, Image.write, List.map_set]

theorem toNat_opcode (word : UInt32) : (word >>> 24).toNat = word.toNat / 2 ^ 24 := by
  rw [UInt32.toNat_shiftRight, Nat.shiftRight_eq_div_pow]
  rfl

theorem toNat_operand (word : UInt32) :
    (word &&& Instruction.operandMask).toNat = word.toNat % 2 ^ 24 := by
  rw [UInt32.toNat_and]
  exact Nat.and_two_pow_sub_one_eq_mod word.toNat 24

theorem toNat_sub (a b : UInt32) : (a - b).toNat = (a.toNat + 2 ^ 32 - b.toNat) % 2 ^ 32 := by
  have bound := b.toNat_lt
  rw [UInt32.toNat_sub]
  congr 1
  omega

theorem advance_machine (memory : Image) (registers : Registers) :
    (registers.machine memory).advance =
      ({ registers with pc := registers.pc + 1 } : Registers).machine memory := by
  simp [Machine.advance, Registers.machine]

def WritePort.commit (memory : Image) (port : WritePort) : Image :=
  if port.enable then memory.write port.address.toNat port.data else memory

@[simp] theorem commit_idle (memory : Image) : WritePort.idle.commit memory = memory :=
  rfl

theorem stepHigh_false (state : Accumulator) :
    state.stepHigh false =
      { state with memory := state.port.commit state.memory, registers := state.next } := by
  unfold stepHigh WritePort.commit
  cases state.port.enable <;> rfl

theorem machine_evaluate (memory : Image) (registers : Registers) (word : UInt32) :
    (evaluate memory registers (.decode word)).1.machine
        ((evaluate memory registers (.decode word)).2.commit memory) =
      (registers.machine memory).execute word.toNat := by
  have operand := toNat_operand word
  unfold Instruction.decode Machine.execute
  rw [toNat_opcode]
  generalize word &&& Instruction.operandMask = x at operand
  generalize word.toNat % 2 ^ 24 = y at operand
  generalize word.toNat / 2 ^ 24 = opcode
  subst operand
  simp only [load_machine, advance_machine]
  -- One goal for each opcode in turn, the last one for all that mean nothing.
  rcases opcode with _ | _ | _ | _ | _ | _ | _ | _ | _ | _
  · rfl
  · rfl
  · rfl
  · exact (store_machine memory { registers with pc := registers.pc + 1 } _ _).symm
  · have sum := UInt32.toNat_add registers.acc (memory.read x.toNat)
    simp only [evaluate, Registers.machine, commit_idle, sum]
  · have difference := toNat_sub registers.acc (memory.read x.toNat)
    simp only [evaluate, Registers.machine, commit_idle, difference]
  · have sum := UInt32.toNat_add registers.acc x
    simp only [evaluate, Registers.machine, commit_idle, sum]
  · rfl
  · have zero : registers.acc = 0 ↔ registers.acc.toNat = 0 := by
      rw [← UInt32.toNat_inj]
      rfl
    by_cases h : registers.acc = 0
    · simp only [evaluate, if_pos h, commit_idle]
      exact (if_pos (zero.mp h)).symm
    · simp only [evaluate, if_neg h, commit_idle]
      exact (if_neg (mt zero.mpr h)).symm
  · rfl

theorem tick_of_halted (state : Accumulator) (halted : state.registers.halted = true) :
    design.tick false state =
      { state with reset := false, next := state.registers, port := .idle } := by
  simp [Design.tick, design, stepLow, stepHigh_false, halted]

theorem tick_of_running (state : Accumulator) (running : state.registers.halted = false) :
    let word := state.memory.read state.registers.pc.toNat
    let evaluated := evaluate state.memory state.registers (.decode word)
    design.tick false state =
      { memory := evaluated.2.commit state.memory, registers := evaluated.1, next := evaluated.1,
        port := evaluated.2, instruction := word, reset := false } := by
  simp [Design.tick, design, stepLow, stepHigh_false, running]

theorem machine_tick (state : Accumulator) :
    (design.tick false state).machine = state.machine.step := by
  unfold Machine.step
  cases h : state.registers.halted with
  | true =>
    have halted : state.machine.halted = true := h
    rw [tick_of_halted state h, if_pos halted]
    rfl
  | false =>
    have running : state.machine.halted = false := h
    rw [tick_of_running state h, running, if_neg Bool.false_ne_true]
    have fetch := load_machine state.memory state.registers state.registers.pc.toNat
    have execute := machine_evaluate state.memory state.registers
      (state.memory.read state.registers.pc.toNat)
    rw [← fetch] at execute
    exact execute

theorem machine_run (state : Accumulator) (n : Nat) :
    ((design.tick false)^[n] state).machine = Machine.step^[n] state.machine := by
  induction n with
  | zero => rfl
  | succ n ih => rw [Function.iterate_succ_apply', Function.iterate_succ_apply', machine_tick, ih]

theorem probe_instruction (state : Accumulator) :
    design.probe "instr" state = some state.instruction.toUInt64 :=
  rfl

theorem probe_instruction_tick (state : Accumulator) :
    (design.probe "instr" (design.tick false state)).map UInt64.toNat =
      if state.machine.halted then (design.probe "instr" state).map UInt64.toNat
      else some state.machine.fetched := by
  cases h : state.registers.halted with
  | true =>
    have halted : state.machine.halted = true := h
    rw [tick_of_halted state h, if_pos halted]
    rfl
  | false =>
    have running : state.machine.halted = false := h
    rw [tick_of_running state h, running, if_neg Bool.false_ne_true, probe_instruction,
      Option.map_some, UInt32.toNat_toUInt64]
    exact congrArg some (load_machine state.memory state.registers _).symm

namespace Machine

theorem length_memory_step (machine : Machine) :
    machine.step.memory.length = machine.memory.length := by
  unfold step execute
  split
  · rfl
  · split <;> try rfl
    · simp [store, advance]
    · split <;> rfl

theorem length_memory_iterate (machine : Machine) (n : Nat) :
    (step^[n] machine).memory.length = machine.memory.length := by
  induction n with
  | zero => rfl
  | succ n ih => rw [Function.iterate_succ_apply', length_memory_step, ih]

theorem load_store (machine : Machine) (address other word : Nat)
    (nonempty : 0 < machine.memory.length)
    (same : other % machine.memory.length = address % machine.memory.length) :
    (machine.store address word).load other = word := by
  have inside := Nat.mod_lt address nonempty
  unfold load store
  simp only [List.length_set, same, List.getD_eq_getElem?_getD]
  rw [List.getElem?_set_self inside, Option.getD_some]

theorem fetched_step_of_store (machine : Machine) (running : machine.halted = false)
    (opcode : machine.fetched / 2 ^ 24 = 3)
    (next : machine.step.pc % machine.memory.length =
      machine.fetched % 2 ^ 24 % machine.memory.length)
    (nonempty : 0 < machine.memory.length) :
    machine.step.halted = false ∧ machine.step.fetched = machine.acc := by
  have stored : machine.step = machine.advance.store (machine.fetched % 2 ^ 24) machine.acc := by
    unfold step execute
    rw [running, if_neg Bool.false_ne_true, opcode]
    rfl
  refine ⟨by rw [stored]; exact running, ?_⟩
  rw [stored] at next
  rw [stored, fetched]
  exact load_store machine.advance _ _ machine.acc nonempty next

end Machine

/-- Whatever state a run of ticks starts from, it executes the program in memory one
instruction per tick, and a program that rewrites itself runs as rewritten. -/
theorem iterate_tick_executes_program (state : Accumulator) (n : Nat) :
    let ticked := fun n => (design.tick false)^[n] state
    let machine := Machine.step^[n] state.machine
    let instruction := fun n => (design.probe "instr" (ticked n)).map UInt64.toNat
    (ticked n).machine = machine ∧
      (machine.halted = false → instruction (n + 1) = some machine.fetched) ∧
      (machine.halted = true → instruction (n + 1) = instruction n) ∧
      (machine.halted = false → machine.fetched / 2 ^ 24 = 3 →
        machine.step.pc % state.memory.depth =
          machine.fetched % 2 ^ 24 % state.memory.depth →
        instruction (n + 2) = some machine.acc) := by
  intro ticked machine instruction
  have run : (ticked n).machine = machine := machine_run state n
  have traced (n : Nat) : instruction (n + 1) =
      if (ticked n).machine.halted then instruction n else some (ticked n).machine.fetched := by
    have unfolded : ticked (n + 1) = design.tick false (ticked n) :=
      Function.iterate_succ_apply' _ n state
    simp only [instruction, unfolded]
    exact probe_instruction_tick (ticked n)
  refine ⟨run, fun running => ?_, fun halted => ?_, fun running opcode next => ?_⟩
  · rw [traced, run, if_neg (by simp [running])]
  · rw [traced, run, if_pos halted]
  · have depth : machine.memory.length = state.memory.depth := by
      rw [Machine.length_memory_iterate]
      exact (List.length_map _).trans Array.length_toList
    obtain ⟨still, fetched⟩ := machine.fetched_step_of_store running opcode
      (by rw [depth]; exact next) (by rw [depth]; exact state.memory.depth_pos)
    have run' : (ticked (n + 1)).machine = machine.step := by
      rw [← Function.iterate_succ_apply' Machine.step n state.machine]
      exact machine_run state (n + 1)
    rw [traced, run', if_neg (by simp [still]), fetched]

/-- The program `LDI 0; ST 2` overwrites the unknown instruction behind it with a halt. -/
theorem iterate_tick_executes_rewritten_halt :
    let start := ofMemory ⟨#[0x01000000, 0x03000002, 0xFF000000, 7], by decide⟩
    let machine := Machine.step^[1] start.machine
    machine.halted = false ∧ machine.fetched / 2 ^ 24 = 3 ∧
      machine.step.pc % start.memory.depth = machine.fetched % 2 ^ 24 % start.memory.depth ∧
      (Machine.step^[0] start.machine).halted = false ∧
      (Machine.step^[3] start.machine).halted = true ∧
      (design.probe "instr" ((design.tick false)^[3] start)).map UInt64.toNat = some 0 := by
  intro start machine
  have law := iterate_tick_executes_program start
  have rewritten := (law 1).2.2.2 (by decide) (by decide) (by decide)
  exact ⟨by decide, by decide, by decide, by decide, by decide, rewritten.trans (by decide)⟩

end Accumulator

end Testbench
