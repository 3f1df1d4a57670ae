import Testbench.Design.Bundled
import Mathlib.Logic.Function.Iterate

/-! What may be done to a design, in any order: the halves of a tick repeated, left out or under
resets that differ, and its memory changed in between. A run is a sequence of these like any other,
so what no operation breaks holds in every cycle of every run. -/
namespace Testbench

inductive Edit where
  | write (address : Nat) (word : UInt32)
  | parse (text : String)
  | load (path : String) (files : FileSystem)

/-- Of a text with a defect the words before it stay, of a file that cannot be read nothing. -/
def Edit.apply : Edit → Image → Image
  | .write address word, image => image.write address word
  | .parse text, image => (image.parseHex text).2
  | .load path files, image => (image.load path files).2.1

inductive Operation where
  | init
  | stepLow (reset : Bool)
  | stepHigh (reset : Bool)
  | edit (change : Edit)

def Operation.tick (reset : Bool) : List Operation :=
  [.stepLow reset, .stepHigh reset]

structure View where
  frame : Frame
  line : String
  halted : Bool
  memory : Image
  deriving DecidableEq

namespace Design

variable {σ : Type u}

def view (design : Design σ) (state : σ) : View :=
  ⟨design.sample state, design.stateLine state, design.halted state, design.memory state⟩

def apply (design : Design σ) : Operation → σ → σ
  | .init, state => design.init state
  | .stepLow reset, state => design.stepLow reset state
  | .stepHigh reset, state => design.stepHigh reset state
  | .edit change, state => design.withMemory (change.apply (design.memory state)) state

def perform (design : Design σ) (operations : List Operation) (state : σ) : σ :=
  operations.foldl (fun state operation => design.apply operation state) state

theorem perform_append (design : Design σ) (first second : List Operation) (state : σ) :
    design.perform (first ++ second) state = design.perform second (design.perform first state) :=
  List.foldl_append

theorem iterate_tick_eq_perform (design : Design σ) (reset : Bool) (n : Nat) (state : σ) :
    (design.tick reset)^[n] state =
      design.perform (List.replicate n (Operation.tick reset)).flatten state := by
  induction n generalizing state with
  | zero => rfl
  | succ n ih =>
    rw [Function.iterate_succ_apply, ih, List.replicate_succ, List.flatten_cons, perform_append]
    rfl

/-- Holds of a design as soon as it is initialised, and nothing that is done to it breaks it. -/
structure Invariant (design : Design σ) (holds : σ → Prop) : Prop where
  init (state : σ) : holds (design.init state)
  stepLow (reset : Bool) {state : σ} (before : holds state) : holds (design.stepLow reset state)
  stepHigh (reset : Bool) {state : σ} (before : holds state) : holds (design.stepHigh reset state)
  edit (memory : Image) {state : σ} (before : holds state) :
    holds (design.withMemory memory state)

variable {design : Design σ} {holds : σ → Prop}

theorem Invariant.apply (invariant : design.Invariant holds) (operation : Operation) {state : σ}
    (before : holds state) : holds (design.apply operation state) := by
  cases operation with
  | init => exact invariant.init state
  | stepLow reset => exact invariant.stepLow reset before
  | stepHigh reset => exact invariant.stepHigh reset before
  | edit change => exact invariant.edit _ before

theorem Invariant.perform (invariant : design.Invariant holds) (operations : List Operation)
    {state : σ} (before : holds state) : holds (design.perform operations state) := by
  induction operations generalizing state with
  | nil => exact before
  | cons operation rest ih => exact ih (invariant.apply operation before)

end Design

end Testbench
