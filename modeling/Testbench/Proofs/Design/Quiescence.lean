import Testbench.Proofs.Accumulator.Consistency
import Testbench.Proofs.Accumulator.WriteLog
import Testbench.Proofs.Counter.Filling

/-! Halted designs stand still. The tick that raises the halt has already settled every register on
what the next tick would give it, so nothing at all changes from then on until a reset. For the
accumulator this rests on the port being idle whenever a halt is latched, which its halves keep in
every order. -/
namespace Testbench

namespace Design

variable {σ : Type u}

/-- A halt is raised by a tick out of reset, never by anything else, and then nothing moves. -/
structure HaltsForGood (design : Design σ) : Prop where
  running_init (state : σ) : design.halted (design.init state) = false
  running_reset (state : σ) : design.halted (design.tick true state) = false
  rests (state : σ) (halted : design.halted (design.tick false state) = true) :
    design.tick false (design.tick false state) = design.tick false state

variable {design : Design σ}

theorem HaltsForGood.clocked (forGood : design.HaltsForGood) (start : σ) (resets : Nat → Bool)
    (n : Nat) (halted : design.halted (design.clocked resets (design.init start) n) = true) :
    design.tick false (design.clocked resets (design.init start) n) =
      design.clocked resets (design.init start) n := by
  cases n with
  | zero => exact absurd ((forGood.running_init start).symm.trans halted) Bool.false_ne_true
  | succ n =>
    rw [Design.clocked] at halted ⊢
    cases reset : resets n with
    | true =>
      rw [reset] at halted
      exact absurd ((forGood.running_reset _).symm.trans halted) Bool.false_ne_true
    | false =>
      rw [reset] at halted
      exact forGood.rests _ halted

end Design

theorem Accumulator.haltsForGood : design.HaltsForGood where
  running_init _ := rfl
  running_reset state := by
    rw [tick_of_reset]
    rfl
  rests state halted := by
    cases h : state.registers.halted with
    | true =>
      rw [tick_of_halted state h]
      exact tick_of_halted _ h
    | false =>
      rw [tick_of_running state h] at halted ⊢
      have idle := port_evaluate_of_halted state.memory h halted
      rw [tick_of_halted _ halted]
      simp only [idle]

namespace Counter

theorem haltsForGood : design.HaltsForGood where
  running_init _ := rfl
  running_reset state := by
    rw [tick_reset, ← Bool.not_eq_true]
    intro halted
    exact absurd (halted_counted.mp halted) (Nat.not_le_of_lt state.memory.depth_pos)
  rests state halted := by
    cases h : state.halted with
    | true =>
      rw [tick_of_halted state h]
      exact tick_of_halted _ h
    | false =>
      rw [tick_of_running state h] at halted ⊢
      have full : decide (state.memory.depth ≤ (state.count + 1).toNat) = true := halted
      rw [tick_of_halted _ halted]
      simp only [full]

end Counter

namespace Bundled

def faulted : (kind : Bundled) → kind.State → Bool
  | .accumulator, state => state.registers.fault
  | .counter, _ => false

theorem haltsForGood (kind : Bundled) : kind.design.HaltsForGood := by
  cases kind with
  | accumulator => exact Accumulator.haltsForGood
  | counter => exact Counter.haltsForGood

theorem faulted_tick_reset (kind : Bundled) (state : kind.State) :
    kind.faulted (kind.design.tick true state) = false := by
  cases kind with
  | accumulator =>
    show (Accumulator.design.tick true state).registers.fault = false
    rw [Accumulator.tick_of_reset]
    rfl
  | counter => rfl

/-- A design that has halted after some ticks, under whatever resets, is left as it is by every
further tick out of reset: its memory, its registers and all that is seen of them. One tick under
reset takes back the halt and the fault. In the accumulator, in whatever order its halves have come
and whatever has been put into its memory, a fault is a halt, and a halt leaves nothing to write. -/
theorem halted_until_reset (kind : Bundled) (start : kind.State) (resets : Nat → Bool) (n : Nat)
    (memory : Image) (operations : List Operation) :
    let design := kind.design
    let reached := design.clocked resets (design.init start) n
    let machine := Accumulator.design.perform operations (Accumulator.ofMemory memory)
    (design.halted reached = true →
        (∀ ticks, (design.tick false)^[ticks] reached = reached) ∧
          design.halted (design.tick true reached) = false ∧
          kind.faulted (design.tick true reached) = false) ∧
      (machine.registers.fault = true → machine.registers.halted = true) ∧
      (machine.registers.halted = true → machine.port.enable = false ∧
        ∀ reset, (machine.stepHigh reset).memory = machine.memory) := by
  intro design reached machine
  refine ⟨fun halted => ⟨fun ticks => ?_, kind.haltsForGood.running_reset reached,
    kind.faulted_tick_reset reached⟩, ?_, fun halted => ?_⟩
  · exact Function.iterate_fixed (kind.haltsForGood.clocked start resets n halted) ticks
  · exact (Accumulator.consistent_perform memory operations).registers.halted_of_fault
  · have idle : machine.port = .idle :=
      (Accumulator.consistent_perform memory operations).registers.idle_of_halted halted
    refine ⟨by rw [idle]; rfl, fun reset => ?_⟩
    unfold Accumulator.stepHigh
    rw [idle]
    cases reset <;> rfl

/-- A program that stores a word and then runs into an unknown opcode. A second machine is stopped
by one that is put under its nose, after a low half whose write a reset has swallowed. -/
theorem halted_until_reset_of_fault :
    let start := accumulator.ofMemory ⟨#[0x01000005, 0x03000003, 0xFF000000, 9], by decide⟩
    let reached := accumulator.design.clocked (fun n => n == 0) (accumulator.design.init start) 4
    let operations := [.stepLow false, .stepHigh true, .edit (.write 0 0xFF000000),
      .stepLow false, .stepHigh false]
    let machine := Accumulator.design.perform operations
      (Accumulator.ofMemory ⟨#[0x03000001, 0], by decide⟩)
    accumulator.design.halted reached = true ∧
      ((accumulator.design.memory reached).read 3 = 5 ∧
        (accumulator.design.tick false)^[1000] reached = reached ∧
        accumulator.design.halted (accumulator.design.tick true reached) = false ∧
        accumulator.faulted (accumulator.design.tick true reached) = false) ∧
      machine.registers.fault = true ∧ machine.registers.halted = true ∧
      machine.port.enable = false ∧ (machine.stepHigh false).memory = machine.memory := by
  intro start reached operations machine
  obtain ⟨quiet, halts, idle⟩ := accumulator.halted_until_reset start (fun n => n == 0) 4
    ⟨#[0x03000001, 0], by decide⟩ operations
  have halted : accumulator.design.halted reached = true := by decide
  have fault : machine.registers.fault = true := by decide
  obtain ⟨rests, runs, clears⟩ := quiet halted
  obtain ⟨nothing, keeps⟩ := idle (halts fault)
  exact ⟨halted, ⟨by decide, rests 1000, runs, clears⟩, fault, halts fault, nothing, keeps false⟩

end Bundled

end Testbench
