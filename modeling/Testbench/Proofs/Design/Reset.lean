import Testbench.Proofs.Accumulator.WriteLog
import Testbench.Proofs.Counter.Filling
import Testbench.Proofs.Design.Operation

/-! A full tick under reset erases history. The accumulator clears what it evaluates in the low half
and its registers in the high half, the counter evaluates zeros and latches them; in both designs
every register that a later cycle reads is overwritten by one of the halves, and nothing is written
to memory. -/
namespace Testbench

/-- A tick under reset leaves no trace of the state it starts from but its memory. -/
structure Design.ErasedByReset {σ : Type u} (design : Design σ) (cleared : Image → σ) : Prop where
  tick_reset (state : σ) : design.tick true state = cleared (design.memory state)
  memory_cleared (memory : Image) : design.memory (cleared memory) = memory

theorem Accumulator.erasedByReset :
    design.ErasedByReset fun memory => ⟨memory, .cleared, .cleared, .idle, 0, true⟩ where
  tick_reset state := tick_of_reset state
  memory_cleared _ := rfl

theorem Counter.erasedByReset : design.ErasedByReset fun memory => counted memory 0 where
  tick_reset state := tick_reset state
  memory_cleared _ := rfl

namespace Bundled

variable (kind : Bundled)

theorem exists_erasedByReset : ∃ cleared, kind.design.ErasedByReset cleared := by
  cases kind with
  | accumulator => exact ⟨_, Accumulator.erasedByReset⟩
  | counter => exact ⟨_, Counter.erasedByReset⟩

theorem memory_ofMemory (memory : Image) : kind.design.memory (kind.ofMemory memory) = memory := by
  cases kind <;> rfl

theorem exists_build (memory : Image) :
    ∃ built, kind.build memory.depth = .ok built ∧
      kind.design.init (kind.design.withMemory memory built) = kind.ofMemory memory := by
  refine ⟨kind.ofMemory (.zeros memory.depth memory.depth_pos), ?_, ?_⟩
  · simp [build, Image.ofDepth, memory.depth_pos]
  · cases kind <;> rfl

/-- Whatever has been done to a design, one tick under reset keeps every word of its memory and
otherwise takes it to where a design is that has just been built, given this memory, initialised
and reset for one tick. Nothing done afterwards tells the two apart. -/
theorem tick_reset_erases_history (memory : Image) (history : List Operation) :
    let design := kind.design
    let state := design.perform history (kind.ofMemory memory)
    let reset := design.tick true state
    ∃ built, kind.build (design.memory state).depth = .ok built ∧
      let fresh := design.tick true (design.init (design.withMemory (design.memory state) built))
      design.memory reset = design.memory state ∧ reset = fresh ∧
        ∀ later, design.view (design.perform later reset) =
          design.view (design.perform later fresh) := by
  intro design state reset
  obtain ⟨cleared, erased⟩ := kind.exists_erasedByReset
  obtain ⟨built, builds, filled⟩ := kind.exists_build (design.memory state)
  have cleared_reset : reset = cleared (design.memory state) := erased.tick_reset state
  refine ⟨built, builds, ?_⟩
  intro fresh
  have same : reset = fresh := by
    simp only [fresh]
    rw [cleared_reset, filled, erased.tick_reset, memory_ofMemory]
  refine ⟨?_, same, fun later => by rw [same]⟩
  rw [cleared_reset, erased.memory_cleared]

end Bundled

end Testbench
