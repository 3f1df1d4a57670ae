import Testbench.Config
import Testbench.Json.Reader

/-! Options in JSON. Every option may be left out; the record may be written as an
object or as an array, whose order of fields is the one given here. -/
namespace Testbench

open Json

namespace Bundled

def ofJsonName : List Char → Except Failure Bundled
  | ['a', 'c', 'c'] => .ok accumulator
  | ['a', 'c', 'c', 'u', 'm', 'u', 'l', 'a', 't', 'o', 'r'] => .ok accumulator
  | ['c', 'o', 'u', 'n', 't', 'e', 'r'] => .ok counter
  | _ => .error .mismatched

/-- A design by its name, or as an object with the name for its only key and no value.
Only a string can be a key, so anything else in its place is malformed, of whatever type. -/
def ofJson : Reader Bundled := fun text =>
  match dropBlanks text with
  | [] => .error .ended
  | '"' :: rest => do
    let (name, rest) ← quoted rest
    return (← ofJsonName name, rest)
  | '{' :: rest =>
    match dropBlanks rest with
    | [] => .error .ended
    | '"' :: rest => do
      let (name, rest) ← quoted rest
      let kind ← ofJsonName name
      let (_, rest) ← null (← colon rest)
      match dropBlanks rest with
      | [] => .error .ended
      | '}' :: rest => .ok (kind, rest)
      | _ => .error .malformed
    | _ => .error .malformed
  | _ => .error .malformed

end Bundled

namespace Dump

structure Draft where
  path : Option String := none
  start : UInt64 := 0
  length : Option UInt64 := none

def Draft.finish? (draft : Draft) : Option Request := do
  return ⟨← draft.path, draft.start, ← draft.length⟩

def fields : List (RecordField Draft) :=
  [.of "path" string fun draft path => { draft with path := some path },
    .of "start" natural fun draft start => { draft with start },
    .of "length" natural fun draft length => { draft with length := some length }]

def Request.ofJson : Reader Request :=
  record fields {} Draft.finish?

end Dump

namespace Config

def fields : List (RecordField Config) :=
  [.of "waveform" bool fun config waveform => { config with waveform },
    .of "trace_path" string fun config tracePath => { config with tracePath },
    .of "dump" (optional Dump.Request.ofJson) fun config dump => { config with dump },
    .of "max_cycles" natural fun config maxCycles => { config with maxCycles },
    .of "initial_memory" (optional string) fun config initialMemory =>
      { config with initialMemory },
    .of "design" Bundled.ofJson fun config design => { config with design },
    .of "memory_depth" natural fun config memoryDepth => { config with memoryDepth },
    .of "echo_state" bool fun config echoState => { config with echoState }]

def ofJson (text : String) : Except Failure Config :=
  whole (record fields {} some) text.toList

def ofFile (path : String) (files : FileSystem) : Except Fault Config :=
  match files.readText path with
  | .error error => .error (.configRead path error)
  | .ok text =>
    match ofJson text with
    | .ok config => .ok config
    | .error failure => .error (.configParse path failure)

end Config

end Testbench
