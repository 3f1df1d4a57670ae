import Testbench.Proofs.Accumulator.Machine

/-! The write port in the samples is a complete log of the memory. A sample is taken after
the high half, from the port the low half of the same tick has set up, so it shows the write
that has just been made and nothing else: a reset or a halt idles the port before it is
served. -/
namespace Testbench

def Design.clocked {σ : Type u} (design : Design σ) (resets : Nat → Bool) (state : σ) : Nat → σ
  | 0 => state
  | n + 1 => design.tick (resets n) (design.clocked resets state n)

namespace Accumulator

structure Write where
  address : Nat
  word : Nat
  deriving DecidableEq, Repr

def sampledWrite? (state : Accumulator) : Option Write := do
  let enable ← design.probe "mem_we" state
  let address ← design.probe "mem_addr" state
  let word ← design.probe "mem_data" state
  if enable = 1 then some ⟨address.toNat, word.toNat⟩ else none

/-- The words of a memory after some writes, one after the other. Addresses wrap. -/
def replay (words : List Nat) (log : List Write) : List Nat :=
  log.foldl (fun words write => words.set (write.address % words.length) write.word) words

theorem probe_enable (state : Accumulator) :
    design.probe "mem_we" state = some (if state.port.enable then 1 else 0) :=
  rfl

theorem sampledWrite?_eq (state : Accumulator) :
    state.sampledWrite? =
      if state.port.enable then some ⟨state.port.address.toNat, state.port.data.toNat⟩
      else none := by
  have address : design.probe "mem_addr" state = some state.port.address.toUInt64 := rfl
  have word : design.probe "mem_data" state = some state.port.data.toUInt64 := rfl
  unfold sampledWrite?
  rw [probe_enable, address, word]
  cases state.port.enable with
  | false => rfl
  | true => simp

theorem commit_eq_replay (memory : Image) (registers : Registers) (state : Accumulator) :
    (registers.machine (state.port.commit memory)).memory =
      replay (registers.machine memory).memory state.sampledWrite?.toList := by
  rw [sampledWrite?_eq]
  unfold WritePort.commit
  cases state.port.enable with
  | false => rfl
  | true => exact congrArg Machine.memory (store_machine memory registers _ _).symm

theorem tick_of_reset (state : Accumulator) :
    design.tick true state =
      { state with
        reset := true, instruction := 0, registers := .cleared, next := .cleared
        port := .idle } := by
  simp [Design.tick, design, stepLow, stepHigh]

/-- Whatever the port held before, a tick serves the one it leaves behind. -/
theorem memory_tick (reset : Bool) (state : Accumulator) :
    (design.tick reset state).memory = (design.tick reset state).port.commit state.memory := by
  cases reset with
  | true => rw [tick_of_reset, commit_idle]
  | false =>
    cases h : state.registers.halted with
    | true => rw [tick_of_halted state h, commit_idle]
    | false => rw [tick_of_running state h]

theorem port_tick_of_idle (reset : Bool) (state : Accumulator)
    (idle : reset = true ∨ state.machine.halted = true) :
    (design.tick reset state).port = .idle := by
  cases reset with
  | true => rw [tick_of_reset]
  | false =>
    have halted : state.registers.halted = true := idle.resolve_left Bool.false_ne_true
    rw [tick_of_halted state halted]

theorem memory_machine_tick (reset : Bool) (state : Accumulator) :
    (design.tick reset state).machine.memory =
      replay state.machine.memory (design.tick reset state).sampledWrite?.toList := by
  have served := commit_eq_replay state.memory state.registers (design.tick reset state)
  rw [← memory_tick] at served
  exact served

theorem replay_append (words : List Nat) (first second : List Write) :
    replay words (first ++ second) = replay (replay words first) second :=
  List.foldl_append

/-- From any state on, and under any resets, the memory is what it was with the sampled writes
made in order. No write is sampled in a tick under reset or of a halted machine, and none is
made. -/
theorem memory_eq_replay_sampled (state : Accumulator) (resets : Nat → Bool) (n : Nat) :
    let ticked := design.clocked resets state
    let writes := (List.range n).filterMap fun k => (ticked (k + 1)).sampledWrite?
    (ticked n).machine.memory = replay state.machine.memory writes ∧
      (resets n = true ∨ (ticked n).machine.halted = true →
        design.probe "mem_we" (ticked (n + 1)) = some 0 ∧
          (ticked (n + 1)).machine.memory = (ticked n).machine.memory) := by
  intro ticked writes
  constructor
  · induction n with
    | zero => rfl
    | succ n ih =>
      have last : (ticked (n + 1)).machine.memory =
          replay (ticked n).machine.memory (ticked (n + 1)).sampledWrite?.toList :=
        memory_machine_tick (resets n) (ticked n)
      simp only [writes]
      rw [last, ih, List.range_succ, List.filterMap_append, replay_append]
      rfl
  · intro quiet
    have idle : (ticked (n + 1)).port = .idle := port_tick_of_idle (resets n) (ticked n) quiet
    have same : (ticked (n + 1)).memory = (ticked n).memory := by
      have served : (ticked (n + 1)).memory = (ticked (n + 1)).port.commit (ticked n).memory :=
        memory_tick (resets n) (ticked n)
      rw [served, idle, commit_idle]
    rw [probe_enable, idle]
    exact ⟨rfl, congrArg (·.words.toList.map UInt32.toNat) same⟩

/-- The program `LDI 5; ST 7; HALT` writes behind the end of four words, is reset when it is
about to halt and then writes once more before it does. -/
theorem memory_eq_replay_sampled_across_reset :
    let start := design.init (ofMemory ⟨#[0x01000005, 0x03000007, 0, 9], by decide⟩)
    let resets := fun n => n == 0 || n == 3
    let ticked := design.clocked resets start
    (resets 3 = true ∨ (ticked 3).machine.halted = true) ∧
      design.probe "mem_we" (ticked 4) = some 0 ∧
      (ticked 4).machine.memory = (ticked 3).machine.memory ∧
      (ticked 7).machine.memory = replay start.machine.memory [⟨7, 5⟩, ⟨7, 5⟩] ∧
      (ticked 7).machine.halted = true ∧
      design.probe "mem_we" (ticked 8) = some 0 := by
  intro start resets ticked
  have reset : resets 3 = true ∨ (ticked 3).machine.halted = true := Or.inl rfl
  have halted : (ticked 7).machine.halted = true := by decide
  obtain ⟨-, quiet⟩ := memory_eq_replay_sampled start resets 3
  obtain ⟨log, still⟩ := memory_eq_replay_sampled start resets 7
  have writes : ((List.range 7).filterMap fun k => (ticked (k + 1)).sampledWrite?) =
      [⟨7, 5⟩, ⟨7, 5⟩] := by decide
  rw [writes] at log
  exact ⟨reset, (quiet reset).1, (quiet reset).2, log, halted, (still (.inr halted)).1⟩

end Accumulator

end Testbench
