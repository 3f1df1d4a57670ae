import Testbench.Design
import Testbench.Text.Number

/-! The text of a value-change trace, as the pieces in which it is written. A sink
that refuses a piece gets nothing more of the same record, so the cut between two
pieces is where a record can break. Signals have short names: signal number n is
written in bijective base 94 with the printable characters as digits, least significant
first, and every string of such characters names exactly one signal. -/
namespace Testbench.Trace

def digitCount : Nat := 94

def identifier (n : Nat) : List Char :=
  Char.ofNat ('!'.toNat + n % digitCount) ::
    if n < digitCount then [] else identifier (n / digitCount - 1)
termination_by n
decreasing_by
  rename_i h
  simp only [digitCount] at h ⊢
  omega

structure Wire where
  number : Nat
  width : Nat
  deriving DecidableEq, Repr

def wires (signals : List Signal) : List Wire :=
  signals.zipIdx.map fun (signal, number) => ⟨number, signal.width⟩

theorem length_wires (signals : List Signal) : (wires signals).length = signals.length := by
  simp [wires]

def identifierPieces (number : Nat) : List String :=
  (identifier number).map (String.ofList [·])

def declaration (signal : Signal) (number : Nat) : String :=
  "$var wire " ++ Text.decimal signal.width ++ " " ++ String.ofList (identifier number) ++ " " ++
    signal.name ++ " $end\n"

def header (signals : List Signal) : List String :=
  ["$timescale 1 ns $end\n", "$scope module testbench $end\n"] ++
    signals.zipIdx.map (fun (signal, number) => declaration signal number) ++
    ["$upscope $end\n", "$enddefinitions $end\n"]

def timestamp (time : Nat) : List String :=
  ["#", Text.decimal time, "\n"]

def baselineStart : List String :=
  ["$", "dumpvars", "\n"]

def baselineEnd : List String :=
  ["$end\n"]

def bit (value : UInt64) (position : Nat) : String :=
  if value.toNat.testBit position then "1" else "0"

/-- The new value of a signal: one bit right before the identifier, or all bits of the
declared width, most significant first, behind a mark. -/
def change (wire : Wire) (value : UInt64) : List String :=
  if wire.width = 1 then bit value 0 :: identifierPieces wire.number ++ ["\n"]
  else
    "b" :: (List.range wire.width).reverse.map (bit value) ++
      " " :: identifierPieces wire.number ++ ["\n"]

end Testbench.Trace
