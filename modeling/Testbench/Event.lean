import Testbench.Fault

/-! What a run announces while it goes on. Events are data, so that statements about
which ones occur need not look into their wording. -/
namespace Testbench

inductive Phase where
  | configuring
  | initializing
  | resetting
  | running
  | draining
  | dumping
  | terminated
  deriving DecidableEq, Repr

def Phase.name : Phase → String
  | .configuring => "configuring"
  | .initializing => "initializing"
  | .resetting => "resetting"
  | .running => "running"
  | .draining => "draining"
  | .dumping => "dumping"
  | .terminated => "terminated"

inductive Level where
  | debug
  | info
  | warn
  | error
  deriving DecidableEq, Repr

def Level.name : Level → String
  | .debug => "DEBUG"
  | .info => "INFO"
  | .warn => "WARN"
  | .error => "ERROR"

inductive Event where
  | phaseEntered (source target : Phase)
  | imageLoaded (path : String) (words : Nat)
  | traceOpened (path : String) (signals : Nat)
  | traceUnavailable (fault : Fault)
  | baselineFailed (error : IoError)
  | stateLineFailed (error : IoError)
  | recordFailed (cycle : Nat) (error : IoError)
  | designHalted (cycle : Nat) (design : String)
  | traceClosed (records : Nat)
  | traceIncomplete (error : IoError)
  | dumpUnavailable (path : String) (error : IoError)
  | dumpRange (first stop : Nat)
  | dumpTruncated (imageBytes requestedBytes availableBytes : Nat)
  | dumpFailed (written : Nat) (error : IoError)
  | dumpWritten (path : String) (bytes : Nat)
  | runFinished (cycles : Nat) (halted : Bool)
  | reportFailed (error : IoError)
  deriving DecidableEq, Repr

namespace Event

def level : Event → Level
  | phaseEntered .. | traceOpened .. | traceClosed _ | dumpRange .. => .debug
  | imageLoaded .. | designHalted .. | dumpWritten .. | runFinished .. => .info
  | traceUnavailable _ | baselineFailed _ | stateLineFailed _ | recordFailed .. | traceIncomplete _
  | dumpTruncated .. | reportFailed _ => .warn
  | dumpUnavailable .. | dumpFailed .. => .error

def field (name value : String) : String :=
  " " ++ name ++ "=" ++ value

def message : Event → String
  | phaseEntered source target =>
    "driver phase" ++ field "from" source.name ++ field "to" target.name
  | imageLoaded path words =>
    "loaded initial memory image" ++ field "path" path ++ field "words" (Text.decimal words)
  | traceOpened path signals =>
    "opened waveform trace" ++ field "path" path ++ field "signals" (Text.decimal signals)
  | traceUnavailable fault => fault.message ++ "; continuing without waveform capture"
  | baselineFailed error =>
    "waveform baseline write failed, disabling trace: " ++ error.message
  | stateLineFailed error =>
    "state output failed, suppressing further state lines: " ++ error.message
  | recordFailed cycle error =>
    "waveform write failed, disabling trace: " ++ error.message ++
      field "cycle" (Text.decimal cycle)
  | designHalted cycle design =>
    "design halted" ++ field "cycle" (Text.decimal cycle) ++ field "design" design
  | traceClosed records => "closed waveform trace" ++ field "records" (Text.decimal records)
  | traceIncomplete error =>
    "waveform flush failed, trace is incomplete: " ++ error.message
  | dumpUnavailable path error =>
    "could not open memory dump file: " ++ error.message ++ field "path" path
  | dumpRange first stop =>
    "memory dump range" ++ field "first" (Text.decimal first) ++ field "end" (Text.decimal stop)
  | dumpTruncated imageBytes requestedBytes availableBytes =>
    "memory dump range exceeds image of " ++ Text.decimal imageBytes ++
      " bytes, truncating to " ++ Text.decimal availableBytes ++ " bytes" ++
      field "requested_bytes" (Text.decimal requestedBytes) ++
      field "available_bytes" (Text.decimal availableBytes)
  | dumpFailed written error =>
    "memory dump write failed, output is partial: " ++ error.message ++
      field "written" (Text.decimal written)
  | dumpWritten path bytes =>
    "wrote memory dump" ++ field "path" path ++ field "bytes" (Text.decimal bytes)
  | runFinished cycles halted =>
    "simulation finished" ++ field "cycles" (Text.decimal cycles) ++
      field "halted" (if halted then "true" else "false")
  | reportFailed error => "could not write final report: " ++ error.message

def text (event : Event) : String :=
  event.level.name ++ " " ++ event.message

end Event

end Testbench
