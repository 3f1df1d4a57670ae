import Testbench.Proofs.Accumulator.Machine
import Testbench.Proofs.Design.Operation

/-! What the two halves of a tick have to do with each other. A design comes apart into what it has
latched and what is pending: the low half evaluates from what is latched and overwrites all that is
pending, the high half looks at nothing else. So a low half may come as often as it likes, and of
several in a row only the last one counts. -/
namespace Testbench

namespace Design

variable {σ : Type u} {α : Type v} {β : Type w}

/-- What is pending is a function of what is latched, and the next latched state one of both. -/
structure TwoPhase (design : Design σ) (latched : σ → α) (pending : σ → β)
    (evaluate : Bool → α → β) (latch : Bool → α → β → α) : Prop where
  latched_stepLow (reset : Bool) (state : σ) : latched (design.stepLow reset state) = latched state
  pending_stepLow (reset : Bool) (state : σ) :
    pending (design.stepLow reset state) = evaluate reset (latched state)
  latched_stepHigh (reset : Bool) (state : σ) :
    latched (design.stepHigh reset state) = latch reset (latched state) (pending state)

def lows (resets : List Bool) : List Operation :=
  resets.map .stepLow

variable {design : Design σ} {latched : σ → α} {pending : σ → β} {evaluate : Bool → α → β}
  {latch : Bool → α → β → α}

theorem TwoPhase.latched_lows (twoPhase : design.TwoPhase latched pending evaluate latch)
    (resets : List Bool) (state : σ) :
    latched (design.perform (lows resets) state) = latched state := by
  induction resets generalizing state with
  | nil => rfl
  | cons reset resets ih =>
    exact (ih (design.stepLow reset state)).trans (twoPhase.latched_stepLow reset state)

theorem TwoPhase.latched_stepHigh_lows (twoPhase : design.TwoPhase latched pending evaluate latch)
    (resets : List Bool) (reset edge : Bool) (state : σ) :
    latched (design.perform (lows (resets ++ [reset]) ++ [.stepHigh edge]) state) =
      latch edge (latched state) (evaluate reset (latched state)) := by
  have apart : design.perform (lows (resets ++ [reset]) ++ [.stepHigh edge]) state =
      design.stepHigh edge (design.stepLow reset (design.perform (lows resets) state)) := by
    rw [lows, List.map_append, perform_append, perform_append]
    rfl
  rw [apart, twoPhase.latched_stepHigh, twoPhase.latched_stepLow, twoPhase.pending_stepLow,
    twoPhase.latched_lows]

end Design

structure Latched (ρ : Type) where
  memory : Image
  halted : Bool
  registers : ρ
  deriving DecidableEq

theorem Image.write_write (image : Image) (address : Nat) (word : UInt32) :
    (image.write address word).write address word = image.write address word := by
  simp [Image.write]

namespace Accumulator

def latched (state : Accumulator) : Latched Registers :=
  ⟨state.memory, state.registers.halted, state.registers⟩

def pending (state : Accumulator) : Registers × WritePort :=
  (state.next, state.port)

def evaluateLow (reset : Bool) (latched : Latched Registers) : Registers × WritePort :=
  if reset then (.cleared, .idle)
  else if latched.halted then (latched.registers, .idle)
  else evaluate latched.memory latched.registers
    (.decode (latched.memory.read latched.registers.pc.toNat))

def latch (reset : Bool) (latched : Latched Registers) (pending : Registers × WritePort) :
    Latched Registers :=
  if reset then ⟨latched.memory, false, .cleared⟩
  else ⟨pending.2.commit latched.memory, pending.1.halted, pending.1⟩

theorem twoPhase : design.TwoPhase latched pending evaluateLow latch where
  latched_stepLow reset state := by
    show (state.stepLow reset).latched = state.latched
    unfold stepLow
    split
    · rfl
    · split <;> rfl
  pending_stepLow reset state := by
    show (state.stepLow reset).pending = evaluateLow reset state.latched
    unfold stepLow evaluateLow latched
    split
    · rfl
    · split <;> rfl
  latched_stepHigh reset state := by
    show (state.stepHigh reset).latched = latch reset state.latched state.pending
    cases reset with
    | true => rfl
    | false =>
      rw [stepHigh_false]
      rfl

theorem stepHigh_stepHigh (reset : Bool) (state : Accumulator) :
    (state.stepHigh reset).stepHigh reset = state.stepHigh reset := by
  cases reset with
  | true => rfl
  | false =>
    have served : state.port.commit (state.port.commit state.memory) =
        state.port.commit state.memory := by
      unfold WritePort.commit
      split
      · exact Image.write_write _ _ _
      · rfl
    rw [stepHigh_false, stepHigh_false, served]

end Accumulator

namespace Counter

def latched (state : Counter) : Latched UInt32 :=
  ⟨state.memory, state.halted, state.count⟩

def pending (state : Counter) : UInt32 × Bool :=
  (state.nextCount, state.nextHalted)

def evaluateLow (reset : Bool) (latched : Latched UInt32) : UInt32 × Bool :=
  if reset then (0, false)
  else if latched.halted then (latched.registers, true)
  else (latched.registers + 1, latched.memory.depth ≤ (latched.registers + 1).toNat)

/-- The word that is written is the count from before the tick, not the pending one. -/
def latch (reset : Bool) (latched : Latched UInt32) (pending : UInt32 × Bool) : Latched UInt32 :=
  if !reset && !latched.halted then
    ⟨latched.memory.write latched.registers.toNat latched.registers, pending.2, pending.1⟩
  else ⟨latched.memory, pending.2, pending.1⟩

theorem twoPhase : design.TwoPhase latched pending evaluateLow latch where
  latched_stepLow reset state := by
    show (state.stepLow reset).latched = state.latched
    unfold stepLow
    split
    · rfl
    · split <;> rfl
  pending_stepLow reset state := by
    show (state.stepLow reset).pending = evaluateLow reset state.latched
    unfold stepLow evaluateLow latched
    split
    · rfl
    · split <;> rfl
  latched_stepHigh reset state := by
    show (state.stepHigh reset).latched = latch reset state.latched state.pending
    unfold stepHigh latch latched
    dsimp only
    split <;> rfl

end Counter

namespace Bundled

abbrev Registers : Bundled → Type
  | accumulator => Accumulator.Registers
  | counter => UInt32

def registers : (kind : Bundled) → kind.State → kind.Registers
  | accumulator, state => Accumulator.registers state
  | counter, state => Counter.count state

def latched (kind : Bundled) (state : kind.State) : Latched kind.Registers :=
  ⟨kind.design.memory state, kind.design.halted state, kind.registers state⟩

theorem exists_latch (kind : Bundled) : ∃ (β : Type) (pending : kind.State → β)
    (evaluate : Bool → Latched kind.Registers → β)
    (latch : Bool → Latched kind.Registers → β → Latched kind.Registers),
    kind.design.TwoPhase kind.latched pending evaluate latch := by
  cases kind with
  | accumulator => exact ⟨_, _, _, _, Accumulator.twoPhase⟩
  | counter => exact ⟨_, _, _, _, Counter.twoPhase⟩

/-- In whatever state a design is, low halves under any resets change neither its memory nor its
halt output nor its registers, and behind several of them a high half does what it would do behind
the last one alone. Once an accumulator has latched, further high halves under the same reset
change nothing at all. -/
theorem latches_last_evaluation (kind : Bundled) (state : kind.State) (resets : List Bool)
    (reset edge : Bool) (machine : Accumulator) (again : Nat) :
    let design := kind.design
    kind.latched (design.perform (Design.lows resets) state) = kind.latched state ∧
      kind.latched (design.perform (Design.lows (resets ++ [reset]) ++ [.stepHigh edge]) state) =
        kind.latched (design.perform (Design.lows [reset] ++ [.stepHigh edge]) state) ∧
      (Accumulator.stepHigh edge)^[again] (machine.stepHigh edge) = machine.stepHigh edge := by
  intro design
  obtain ⟨_, _, _, _, twoPhase⟩ := kind.exists_latch
  refine ⟨twoPhase.latched_lows resets state, ?_, ?_⟩
  · rw [twoPhase.latched_stepHigh_lows, ← List.nil_append [reset], twoPhase.latched_stepHigh_lows]
  · exact Function.iterate_fixed (machine.stepHigh_stepHigh edge) again

/-- A counter that latches twice writes twice: its second word is the count it has just latched. -/
example :
    let latched := (Counter.ofMemory ⟨#[7, 7], by decide⟩).stepLow false |>.stepHigh false
    (latched.memory.read 1, (latched.stepHigh false).memory.read 1) = (7, 1) := by
  decide

end Bundled

end Testbench
