import Testbench.Memory.Dump
import Testbench.Text.Layout

/-! Dump requests in the short form `filename,start,length`. The last two commas
separate the fields, so a filename may hold commas of its own. -/
namespace Testbench.Dump

/-- The text before the second-to-last comma, and the two fields behind it. -/
def splitSpec (spec : List Char) : Option (List Char × List Char × List Char) :=
  match (spec.splitOn ',').reverse with
  | length :: start :: field :: fields =>
    some ([','].intercalate (fields.reverse ++ [field]), start, length)
  | _ => none

def offset? (field : List Char) : Option UInt64 :=
  Text.hexadecimal? (Text.trim field)

def parseSpec (spec : List Char) : Except SpecDefect Request :=
  match splitSpec spec with
  | none => .error .tooFewFields
  | some (path, start, length) =>
    if path.isEmpty then .error .missingFilename
    else match offset? start, offset? length with
      | none, _ => .error .startNotHex
      | some _, none => .error .lengthNotHex
      | some start, some length => .ok ⟨String.ofList path, start, length⟩

def Request.ofSpec (spec : String) : Except Fault Request :=
  match parseSpec spec.toList with
  | .ok request => .ok request
  | .error defect => .error (.dumpSpec spec defect)

end Testbench.Dump
