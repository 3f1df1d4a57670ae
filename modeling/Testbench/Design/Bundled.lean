import Testbench.Design.Accumulator
import Testbench.Design.Counter
import Testbench.Memory.Load

/-! The designs that come with the bench, by name. -/
namespace Testbench

inductive Bundled where
  | accumulator
  | counter
  deriving DecidableEq, Repr

namespace Bundled

def name : Bundled → String
  | accumulator => "accumulator"
  | counter => "counter"

/-- Names are read without regard to the case of ASCII letters. -/
def ofName (name : String) : Except Fault Bundled :=
  let folded := name.map Char.toLower
  if folded = "accumulator" ∨ folded = "acc" then .ok accumulator
  else if folded = "counter" then .ok counter
  else .error (.unknownDesign name)

theorem ofName_name (kind : Bundled) : ofName kind.name = .ok kind := by
  have unchanged : kind.name.map Char.toLower = kind.name := by
    rw [← String.toList_inj, String.toList_map]
    cases kind <;> decide
  cases kind <;> rw [ofName, unchanged] <;> rfl

abbrev State : Bundled → Type
  | accumulator => Accumulator
  | counter => Counter

def design : (kind : Bundled) → Design kind.State
  | accumulator => Accumulator.design
  | counter => Counter.design

def ofMemory (memory : Image) : (kind : Bundled) → kind.State
  | accumulator => Accumulator.ofMemory memory
  | counter => Counter.ofMemory memory

def build (kind : Bundled) (depth : Nat) : Except Fault kind.State :=
  match Image.ofDepth depth 32 with
  | .ok memory => .ok (ofMemory memory kind)
  | .error fault => .error fault

end Bundled

end Testbench
