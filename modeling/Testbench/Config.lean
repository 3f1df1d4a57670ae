import Testbench.Design.Bundled
import Testbench.Memory.Dump

/-! The options of a run, each with the value it has when nobody gives one. -/
namespace Testbench

structure Config where
  waveform : Bool := false
  tracePath : String := "trace.vcd"
  dump : Option Dump.Request := none
  /-- A bound on the cycles after reset. -/
  maxCycles : UInt64 := 20000
  initialMemory : Option String := none
  design : Bundled := .accumulator
  memoryDepth : UInt64 := 65536
  echoState : Bool := true
  deriving DecidableEq, Repr

/-- The files that a run writes. -/
def Config.outputs (config : Config) : List String :=
  (if config.waveform then [config.tracePath] else []) ++ (config.dump.map (·.path)).toList

end Testbench
