import Testbench.Proofs.Accumulator.Consistency
import Testbench.Proofs.Trace.Fitting

/-! Which register stands behind each signal of the bundled designs. A sample shows the registers in
the order in which the signals are declared, and no register is wider than its signal; only for
the address of the accumulator this is no matter of types. -/
namespace Testbench

theorem toNat_bit (bit : Bool) : (if bit then 1 else 0 : UInt64).toNat = bit.toNat := by
  cases bit <;> rfl

namespace Accumulator

def wired (state : Accumulator) : List (Signal × Nat) :=
  [(⟨"reset", 1⟩, state.reset.toNat), (⟨"pc", 32⟩, state.registers.pc.toNat),
    (⟨"acc", 32⟩, state.registers.acc.toNat), (⟨"instr", 32⟩, state.instruction.toNat),
    (⟨"mem_we", 1⟩, state.port.enable.toNat), (⟨"mem_addr", 24⟩, state.port.address.toNat),
    (⟨"mem_data", 32⟩, state.port.data.toNat), (⟨"halted", 1⟩, state.registers.halted.toNat),
    (⟨"fault", 1⟩, state.registers.fault.toNat)]

theorem sampled_wired (state : Accumulator) :
    state.wired.map Prod.snd = state.sample.values.toList.map UInt64.toNat := by
  simp [wired, sample, Frame.pushBit, Frame.push, Frame.empty, toNat_bit]

theorem narrow_wired {state : Accumulator} (consistent : Consistent state) :
    ∀ entry ∈ state.wired, entry.2 < 2 ^ entry.1.width := by
  simp only [wired, List.forall_mem_cons]
  exact ⟨Bool.toNat_lt _, UInt32.toNat_lt _, UInt32.toNat_lt _, UInt32.toNat_lt _, Bool.toNat_lt _,
    consistent.address_lt, UInt32.toNat_lt _, Bool.toNat_lt _, Bool.toNat_lt _, nofun⟩

end Accumulator

namespace Counter

def wired (state : Counter) : List (Signal × Nat) :=
  [(⟨"reset", 1⟩, state.reset.toNat), (⟨"count", 32⟩, state.count.toNat),
    (⟨"halted", 1⟩, state.halted.toNat)]

theorem sampled_wired (state : Counter) :
    state.wired.map Prod.snd = state.sample.values.toList.map UInt64.toNat := by
  simp [wired, sample, Frame.pushBit, Frame.push, Frame.empty, toNat_bit]

theorem narrow_wired (state : Counter) : ∀ entry ∈ state.wired, entry.2 < 2 ^ entry.1.width := by
  simp only [wired, List.forall_mem_cons]
  exact ⟨Bool.toNat_lt _, UInt32.toNat_lt _, Bool.toNat_lt _, nofun⟩

end Counter

namespace Bundled

def wired : (kind : Bundled) → kind.State → List (Signal × Nat)
  | .accumulator, state => Accumulator.wired state
  | .counter, state => Counter.wired state

variable (kind : Bundled)

theorem declared_wired (state : kind.State) :
    (kind.wired state).map Prod.fst = kind.design.signals state := by
  cases kind <;> rfl

theorem sampled_wired (state : kind.State) :
    (kind.wired state).map Prod.snd =
      (kind.design.sample state).values.toList.map UInt64.toNat := by
  cases kind with
  | accumulator => exact Accumulator.sampled_wired state
  | counter => exact Counter.sampled_wired state

theorem narrow_wired (memory : Image) (operations : List Operation) :
    ∀ entry ∈ kind.wired (kind.design.perform operations (kind.ofMemory memory)),
      entry.2 < 2 ^ entry.1.width := by
  cases kind with
  | accumulator => exact Accumulator.narrow_wired (Accumulator.consistent_perform memory operations)
  | counter => exact Counter.narrow_wired _

theorem signals_eq (state other : kind.State) :
    kind.design.signals state = kind.design.signals other := by
  cases kind <;> rfl

theorem fits_perform (memory : Image) (operations : List Operation) (other : kind.State) :
    Trace.Fits (kind.design.signals other)
      (kind.design.sample (kind.design.perform operations (kind.ofMemory memory))) :=
  Trace.fits_of_wired ((kind.declared_wired _).trans (kind.signals_eq _ other))
    (kind.sampled_wired _) (kind.narrow_wired memory operations)

end Bundled

end Testbench
