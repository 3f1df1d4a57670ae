import Testbench.Sink
import Testbench.Memory.HexText
import Testbench.Json.Number

/-! The faults that stop a run before its first clock edge. Each one names its
cause; the wording is in one place. Trouble with outputs is no fault: it is
announced as an event and costs only that output. -/
namespace Testbench

inductive SpecDefect where
  | tooFewFields
  | missingFilename
  | startNotHex
  | lengthNotHex
  deriving DecidableEq, Repr

def SpecDefect.message : SpecDefect → String
  | .tooFewFields => "expected <filename>,<start_hex>,<length_hex>"
  | .missingFilename => "missing filename"
  | .startNotHex => "start is not a hex number"
  | .lengthNotHex => "length is not a hex number"

inductive Fault where
  | dumpSpec (spec : String) (defect : SpecDefect)
  | unknownDesign (name : String)
  | configRead (path : String) (error : IoError)
  | configParse (path : String) (failure : Json.Failure)
  | wordWidth (bits : Nat)
  | emptyMemory
  | initialLoad (path : String) (error : IoError)
  | malformedImage (path : String) (defect : HexText.Defect)
  | traceOpen (path : String) (error : IoError)
  deriving DecidableEq, Repr

namespace Fault

def message : Fault → String
  | dumpSpec spec defect =>
    "invalid memory dump specification '" ++ spec ++ "': " ++ defect.message
  | unknownDesign name =>
    "unknown design '" ++ name ++ "' (expected 'accumulator' or 'counter')"
  | configRead path error =>
    "could not read configuration file '" ++ path ++ "': " ++ error.message
  | configParse path failure =>
    "invalid configuration file '" ++ path ++ "': " ++ failure.message
  | wordWidth bits =>
    "unsupported memory word width: " ++ Text.decimal bits ++
      " bits (only 32-bit words are supported)"
  | emptyMemory => "memory depth must be at least one word"
  | initialLoad path error =>
    "could not read initial memory image '" ++ path ++ "': " ++ error.message
  | malformedImage path defect =>
    "malformed initial memory image '" ++ path ++ "': " ++ defect.message
  | traceOpen path error =>
    "could not open waveform trace '" ++ path ++ "': " ++ error.message

/-- Whether the options are to blame, and not the data they name. -/
def isConfiguration : Fault → Bool
  | dumpSpec .. | unknownDesign _ | configRead .. | configParse .. | wordWidth _
  | emptyMemory => true
  | initialLoad .. | malformedImage .. | traceOpen .. => false

def exitCode (_ : Fault) : UInt8 := 1

end Fault

end Testbench
