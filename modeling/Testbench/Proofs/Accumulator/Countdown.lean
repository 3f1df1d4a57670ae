import Testbench.Proofs.Accumulator.WriteLog
import Testbench.Proofs.Run.Observation

/-! A program that counts the accumulator down to zero, followed instruction by instruction: what
comes before its loop, one round of the loop, and what comes behind it. Each round takes three
cycles and takes one off the accumulator, so the number it starts from says in which cycle it
halts. -/
namespace Testbench

namespace Accumulator

open Instruction

/-- A memory that holds the program: load a number, leave the loop when it is zero, else subtract
the word at 10 and go back; behind the loop store the zero at 11 and halt. -/
structure Countdown (start : Nat) (memory : Image) : Prop where
  roomy : 12 ≤ memory.depth
  load : memory.read 0 = encode 1 (.ofNat start)
  leave : memory.read 1 = encode 8 5
  subtract : memory.read 2 = encode 5 10
  back : memory.read 3 = encode 7 1
  store : memory.read 5 = encode 3 11
  halt : ∃ operand, memory.read 6 = encode 0 operand
  one : memory.read 10 = 1

theorem toNat_encode (opcode : UInt8) (operand : UInt32) :
    (encode opcode operand).toNat = opcode.toNat * 2 ^ 24 + operand.toNat % 2 ^ 24 := by
  have bound := opcode.toNat_lt
  have low : operand.toNat % 2 ^ 24 < 2 ^ 24 := Nat.mod_lt _ (by decide)
  have shifted : (opcode.toUInt32 <<< 24).toNat = opcode.toNat <<< 24 := by
    have fits : opcode.toNat <<< 24 < 2 ^ 32 := by
      rw [Nat.shiftLeft_eq]
      omega
    rw [UInt32.toNat_shiftLeft, UInt8.toNat_toUInt32]
    exact Nat.mod_eq_of_lt fits
  rw [encode, UInt32.toNat_or, toNat_operand, shifted, ← Nat.shiftLeft_add_eq_or_of_lt low,
    Nat.shiftLeft_eq]

theorem machine_inj {memory other : Image} {registers others : Registers}
    (same : registers.machine memory = others.machine other) :
    registers = others ∧ memory = other := by
  obtain ⟨pc, acc, halted, fault⟩ := registers
  obtain ⟨pc', acc', halted', fault'⟩ := others
  obtain ⟨words, _⟩ := memory
  obtain ⟨words', _⟩ := other
  simp only [Registers.machine, Machine.mk.injEq, UInt32.toNat_inj] at same
  obtain ⟨rfl, rfl, rfl, rfl, contents⟩ := same
  have equal : words = words' :=
    Array.toList_inj.mp (List.map_inj_right (fun _ _ => UInt32.toNat_inj.mp) |>.mp contents)
  subst equal
  exact ⟨rfl, rfl⟩

namespace Machine

def running (memory : Image) (pc acc : Nat) : Machine :=
  ⟨pc, acc, false, false, memory.words.toList.map UInt32.toNat⟩

theorem load_running (memory : Image) (pc acc address : Nat) :
    (running memory pc acc).load address = (memory.read address).toNat :=
  load_machine memory .cleared address

theorem store_running (memory : Image) (pc acc address : Nat) (word : UInt32) :
    (running memory pc acc).store address word.toNat =
      running (memory.write address word) pc acc := by
  have stored := congrArg Machine.memory (store_machine memory .cleared address word)
  exact congrArg (Machine.mk pc acc false false) stored

theorem step_running {memory : Image} {pc word : Nat} (acc : Nat)
    (fetched : (memory.read pc).toNat = word) :
    (running memory pc acc).step = (running memory pc acc).execute word := by
  have fetch : (running memory pc acc).fetched = word :=
    (load_running memory pc acc pc).trans fetched
  rw [step, fetch]
  exact if_neg Bool.false_ne_true

theorem step_of_halted {machine : Machine} (halted : machine.halted = true) :
    machine.step = machine :=
  if_pos halted

theorem halted_iterate_of_le {machine : Machine} {n m : Nat} (le : n ≤ m)
    (halted : (step^[n] machine).halted = true) : (step^[m] machine).halted = true := by
  obtain ⟨more, rfl⟩ := Nat.exists_eq_add_of_le' le
  rw [Function.iterate_add_apply, Function.iterate_fixed (step_of_halted halted)]
  exact halted

end Machine

theorem firstHalt_of_machine {state : Accumulator} {before : Nat}
    (running : (Machine.step^[before] state.machine).halted = false)
    (halts : (Machine.step^[before + 1] state.machine).halted = true) :
    design.firstHalt state = (before + 1 : Nat) := by
  have seen (n : Nat) : design.HaltsAfter state n ↔
      1 ≤ n ∧ (Machine.step^[n] state.machine).halted = true := by
    rw [← machine_run]
    exact Iff.rfl
  apply design.firstHalt_eq
  · exact (seen _).mpr ⟨Nat.le_add_left 1 before, halts⟩
  · intro earlier early reached
    have still := Machine.halted_iterate_of_le (Nat.le_of_lt_succ early) ((seen _).mp reached).2
    exact Bool.false_ne_true (running.symm.trans still)

namespace Countdown

open Machine

variable {start : Nat} {memory : Image}

theorem step_load (program : Countdown start memory) (small : start < 2 ^ 24) (acc : Nat) :
    (running memory 0 acc).step = running memory 1 start := by
  have fetched : (memory.read 0).toNat = 2 ^ 24 + start := by
    rw [program.load, toNat_encode, UInt32.toNat_ofNat']
    show 1 * 2 ^ 24 + start % 2 ^ 32 % 2 ^ 24 = 2 ^ 24 + start
    omega
  have opcode : (2 ^ 24 + start) / 2 ^ 24 = 1 := by omega
  have operand : (2 ^ 24 + start) % 2 ^ 24 = start := by omega
  rw [step_running acc fetched, execute, opcode, operand]
  rfl

theorem round (program : Countdown start memory) {left : Nat} (small : left + 1 < 2 ^ 32) :
    step^[3] (running memory 1 (left + 1)) = running memory 1 left := by
  have leave : (memory.read 1).toNat = 8 * 2 ^ 24 + 5 := congrArg UInt32.toNat program.leave
  have subtract : (memory.read 2).toNat = 5 * 2 ^ 24 + 10 := congrArg UInt32.toNat program.subtract
  have back : (memory.read 3).toNat = 7 * 2 ^ 24 + 1 := congrArg UInt32.toNat program.back
  have tested : (running memory 1 (left + 1)).step = running memory 2 (left + 1) := by
    rw [step_running _ leave]
    rfl
  have less : (running memory 2 (left + 1)).step = running memory 3 left := by
    have one : (running memory 2 (left + 1)).load 10 = 1 := by
      rw [load_running, program.one]
      rfl
    have difference : (left + 1 + 2 ^ 32 - 1) % 2 ^ 32 = left := by omega
    rw [step_running _ subtract]
    show { (running memory 2 (left + 1)).advance with
      acc := (left + 1 + 2 ^ 32 - (running memory 2 (left + 1)).load 10) % 2 ^ 32 } = _
    rw [one, difference]
    rfl
  have again : (running memory 3 left).step = running memory 1 left := by
    rw [step_running _ back]
    rfl
  show (running memory 1 (left + 1)).step.step.step = _
  rw [tested, less, again]

theorem rounds (program : Countdown start memory) (left : Nat) (small : left < 2 ^ 32) :
    step^[3 * left] (running memory 1 left) = running memory 1 0 := by
  induction left with
  | zero => rfl
  | succ left ih =>
    rw [Nat.mul_succ, Function.iterate_add_apply, program.round small, ih (by omega)]

theorem leaves (program : Countdown start memory) :
    step^[2] (running memory 1 0) = running (memory.write 11 0) 6 0 := by
  have leave : (memory.read 1).toNat = 8 * 2 ^ 24 + 5 := congrArg UInt32.toNat program.leave
  have store : (memory.read 5).toNat = 3 * 2 ^ 24 + 11 := congrArg UInt32.toNat program.store
  have left : (running memory 1 0).step = running memory 5 0 := by
    rw [step_running _ leave]
    rfl
  have stored : (running memory 5 0).step = running (memory.write 11 0) 6 0 := by
    rw [step_running _ store]
    exact store_running memory 6 0 11 0
  show (running memory 1 0).step.step = _
  rw [left, stored]

theorem halts (program : Countdown start memory) :
    (running (memory.write 11 0) 6 0).step =
      Registers.machine (memory.write 11 0) ⟨6, 0, true, false⟩ := by
  obtain ⟨operand, halt⟩ := program.halt
  have apart : 6 % memory.depth ≠ 11 % memory.depth := by
    have roomy := program.roomy
    rw [Nat.mod_eq_of_lt (by omega), Nat.mod_eq_of_lt (by omega)]
    decide
  have fetched : ((memory.write 11 0).read 6).toNat = operand.toNat % 2 ^ 24 := by
    rw [Image.read_write, if_neg apart, halt, toNat_encode]
    exact Nat.zero_add _
  have opcode : operand.toNat % 2 ^ 24 / 2 ^ 24 = 0 :=
    Nat.div_eq_of_lt (Nat.mod_lt _ (by decide))
  rw [step_running 0 fetched, execute, opcode]
  rfl

theorem before_halt (program : Countdown start memory) (small : start < 2 ^ 24) :
    step^[3 * start + 3] (running memory 0 0) = running (memory.write 11 0) 6 0 := by
  have split : 3 * start + 3 = 2 + 3 * start + 1 := by omega
  rw [split, Function.iterate_succ_apply, program.step_load small, Function.iterate_add_apply,
    program.rounds start (by omega), program.leaves]

end Countdown

end Accumulator

namespace Bench

open Accumulator

variable {ω : Type} [Sink ω]

/-- A run of the program that counts down takes three cycles for each number down to zero and four
more, or ends with its budget before that. Once it has halted, the zero is where it belongs and no
other word has changed. -/
theorem run_counts_down (config : Config) (state : Accumulator) (phase : Phase)
    (files : FileSystem) (out : ω) (start : Nat) (small : start < 2 ^ 24)
    (program : Countdown start state.memory) (unloaded : config.initialMemory = none) :
    let budget := config.maxCycles.toNat
    let outcome := (Bench.mk Accumulator.design config state phase).run files out
    let final := outcome.bench.state
    ∃ summary, outcome.result = .ok summary ∧
      summary.cycles = min budget (3 * start + 4) ∧
      (summary.halted = true ↔ 3 * start + 4 ≤ budget) ∧
      (summary.halted = true →
        final.registers.pc = 6 ∧ final.registers.acc = 0 ∧ final.registers.fault = false ∧
          final.memory.depth = state.memory.depth ∧ final.memory.read 11 = 0 ∧
          ∀ address < state.memory.depth, address ≠ 11 →
            final.memory.read address = state.memory.read address) := by
  intro budget outcome final
  let bench : Bench Accumulator := ⟨Accumulator.design, config, state, phase⟩
  have loaded : bench.loaded files = (.ok (), Accumulator.design.init state) := by
    simp only [bench, Bench.loaded, unloaded]
  have loads : (bench.loaded files).1 = .ok () := congrArg Prod.fst loaded
  let reset := Accumulator.design.tick true (Accumulator.design.init state)
  have begins : reset.machine = Machine.running state.memory 0 0 := by
    simp only [reset, tick_of_reset]
    rfl
  have before := program.before_halt small
  have after : Machine.step^[3 * start + 4] (Machine.running state.memory 0 0) =
      Registers.machine (state.memory.write 11 0) ⟨6, 0, true, false⟩ := by
    rw [Function.iterate_succ_apply', before, program.halts]
  have first : Accumulator.design.firstHalt reset = (3 * start + 4 : Nat) := by
    apply firstHalt_of_machine
    · rw [begins, before]
      rfl
    · rw [begins, after]
      rfl
  obtain ⟨summary, result, cycles, halts, reached⟩ :=
    bench.run_of_firstHalt files out loads (by rw [loaded]; exact first)
  refine ⟨summary, result, cycles, halts, fun halted => ?_⟩
  have enough : min budget (3 * start + 4) = 3 * start + 4 :=
    Nat.min_eq_right (halts.mp halted)
  have ran : final.machine = Registers.machine (state.memory.write 11 0) ⟨6, 0, true, false⟩ := by
    have there : final = (Accumulator.design.tick false)^[min budget (3 * start + 4)] reset := by
      rw [loaded] at reached
      exact reached
    rw [there, enough, machine_run, begins, after]
  obtain ⟨registers, memory⟩ := machine_inj ran
  have depth := program.roomy
  rw [registers, memory]
  refine ⟨rfl, rfl, rfl, Image.depth_write _ _ _, ?_, fun address inside other => ?_⟩
  · rw [Image.read_write, if_pos rfl]
  · have apart : address % state.memory.depth ≠ 11 % state.memory.depth := by
      rwa [Nat.mod_eq_of_lt inside, Nat.mod_eq_of_lt (by omega)]
    rw [Image.read_write, if_neg apart]

/-- The largest number an instruction can load, in a memory of sixteen words whose unused words
hold anything, under a budget that is just large enough. -/
theorem run_counts_down_from_largest_number :
    let memory : Image := ⟨#[0x01FFFFFF, 0x08000005, 0x0500000A, 0x07000001, 0xFFFFFFFF, 0x0300000B,
      0x00000009, 7, 8, 9, 1, 0xFFFFFFFF, 12, 13, 14, 15], by decide⟩
    let config : Config := { maxCycles := 50331649 }
    let bench := Bench.mk Accumulator.design config (.ofMemory memory) .configuring
    let outcome := bench.run .initial Device.accepting
    let final := outcome.bench.state
    2 ^ 24 - 1 < 2 ^ 24 ∧ Countdown (2 ^ 24 - 1) memory ∧ config.initialMemory = none ∧
      memory.depth = 16 ∧
      ∃ summary, outcome.result = .ok summary ∧ summary.cycles = 50331649 ∧
        summary.halted = true ∧ final.registers.pc = 6 ∧ final.registers.acc = 0 ∧
        final.registers.fault = false ∧ final.memory.read 11 = 0 ∧
        final.memory.read 4 = 0xFFFFFFFF := by
  intro memory config bench outcome final
  have small : 2 ^ 24 - 1 < 2 ^ 24 := by decide
  have program : Countdown (2 ^ 24 - 1) memory :=
    ⟨by decide, by decide, by decide, by decide, by decide, by decide, ⟨9, by decide⟩, by decide⟩
  have unloaded : config.initialMemory = none := rfl
  have depth : memory.depth = 16 := by decide
  have unused : memory.read 4 = 0xFFFFFFFF := by decide
  have budget : config.maxCycles.toNat = 3 * (2 ^ 24 - 1) + 4 := by decide
  -- The fifty million cycles are not run: all that counts about the memory is said by now.
  clear_value memory config
  obtain ⟨summary, result, cycles, halts, ended⟩ := run_counts_down config (.ofMemory memory)
    .configuring .initial Device.accepting (2 ^ 24 - 1) small program unloaded
  rw [budget, Nat.min_self] at cycles
  have halted : summary.halted = true := halts.mpr (Nat.le_of_eq budget.symm)
  obtain ⟨pc, acc, fault, -, stored, kept⟩ := ended halted
  have other : final.memory.read 4 = memory.read 4 :=
    kept 4 (by show 4 < memory.depth; omega) (by decide)
  exact ⟨small, program, unloaded, depth, summary, result, cycles, halted, pc, acc, fault, stored,
    other.trans unused⟩

end Bench

end Testbench
