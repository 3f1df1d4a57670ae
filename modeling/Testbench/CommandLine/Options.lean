import Testbench.CommandLine.Occurrence
import Testbench.Config.Json

/-! What a command line asks for. Occurrences are taken in order, and the first one that
is wrong, or asks for help or the version, decides. -/
namespace Testbench.CommandLine

structure Options where
  waveform : Bool := false
  quiet : Bool := false
  dump : Option Dump.Request := none
  cycles : Option UInt64 := none
  trace : Option String := none
  design : Option Bundled := none
  depth : Option UInt64 := none
  config : Option String := none
  image : Option String := none
  deriving DecidableEq, Repr

inductive Answer where
  | run (options : Options)
  | help
  | version
  | refuse (error : UsageError)
  deriving DecidableEq, Repr

def path? (value : String) : Option String :=
  if value.isEmpty then none else some value

def setOnce {α : Type} (name value : String) (old new : Option α) : Except UsageError (Option α) :=
  match old, new with
  | some _, _ => .error (.repeated name)
  | none, none => .error (.invalidValue name value)
  | none, some new => .ok (some new)

def setSwitch (switch : Switch) (options : Options) : Except UsageError Options :=
  match switch with
  | .waveform =>
    if options.waveform then .error (.repeated "-w") else .ok { options with waveform := true }
  | .quiet =>
    if options.quiet then .error (.repeated "--quiet") else .ok { options with quiet := true }

def setSetting (setting : Setting) (value : String) (options : Options) :
    Except UsageError Options :=
  let name := setting.name
  match setting with
  | .dump => do
    let dump ← setOnce name value options.dump (Dump.Request.ofSpec value).toOption
    return { options with dump }
  | .cycles => do
    let cycles ← setOnce name value options.cycles (Text.decimal? value.toList)
    return { options with cycles }
  | .trace => do
    let trace ← setOnce name value options.trace (path? value)
    return { options with trace }
  | .design => do
    let design ← setOnce name value options.design (Bundled.ofName value).toOption
    return { options with design }
  | .depth => do
    let depth ← setOnce name value options.depth (Text.decimal? value.toList)
    return { options with depth }
  | .config => do
    let config ← setOnce name value options.config (path? value)
    return { options with config }

def setImage (value : String) (options : Options) : Except UsageError Options :=
  match options.image, path? value with
  | some _, _ => .error (.surplus value)
  | none, none => .error (.invalidValue "[IMAGE]" value)
  | none, some image => .ok { options with image := some image }

def answer : List Occurrence → Options → Answer
  | [], options => .run options
  | occurrence :: rest, options =>
    let continueWith := fun (result : Except UsageError Options) => match result with
      | .ok options => answer rest options
      | .error error => .refuse error
    match occurrence with
    | .switch switch => continueWith (setSwitch switch options)
    | .setting setting value => continueWith (setSetting setting value options)
    | .positional value => continueWith (setImage value options)
    | .help => .help
    | .version => .version
    | .wrong error => .refuse error

def read (arguments : List String) : Answer :=
  answer (occurrences arguments) {}

/-- Options given on the command line win over those of a configuration; the two switches
only ever turn something on or off. -/
def Options.over (options : Options) (config : Config) : Config where
  waveform := config.waveform || options.waveform
  tracePath := options.trace.getD config.tracePath
  dump := options.dump <|> config.dump
  maxCycles := options.cycles.getD config.maxCycles
  initialMemory := options.image <|> config.initialMemory
  design := options.design.getD config.design
  memoryDepth := options.depth.getD config.memoryDepth
  echoState := config.echoState && !options.quiet

def Options.resolve (options : Options) (files : FileSystem) : Except Fault Config :=
  match options.config with
  | none => .ok (options.over {})
  | some path => (Config.ofFile path files).map options.over

end Testbench.CommandLine
