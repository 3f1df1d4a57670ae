import Testbench.CommandLine.Options
import Testbench.Run

/-! The program as a function of its arguments, the file system and its standard output.
Whatever goes wrong before the first clock edge ends it with status 1 and nothing
written anywhere. -/
namespace Testbench.CommandLine

def versionText : String := "simulator 0.3.0\n"

def helpLines : List String :=
  ["Resets the design, clocks it until it raises halt or the cycle budget runs out,",
    "then writes the requested memory dump.",
    "",
    "Usage: simulator [OPTIONS] [IMAGE]",
    "",
    "Arguments:",
    "  [IMAGE]  Hex-encoded initial memory image, loaded at address 0",
    "",
    "Options:",
    "  -w                      Record a waveform trace (see --trace for the path)",
    "  -d <FILE,START,LENGTH>  Dump memory after the run: <filename>,<start_hex>,<length_hex>",
    "  -c <CYCLES>             Maximum cycles to run after reset [default: 20000]",
    "      --trace <PATH>      Waveform trace path [default: trace.vcd]",
    "      --design <NAME>     Design to simulate (accumulator, counter) [default: accumulator]",
    "      --depth <WORDS>     System memory depth in words [default: 65536]",
    "      --config <FILE>     JSON run configuration; flags override its values",
    "  -q, --quiet             Suppress the per-cycle state lines",
    "  -h, --help              Print help",
    "  -V, --version           Print version"]

/-- Written by hand: it tells the options and their defaults, but is not what clap prints for `-h`
or for `--help`. -/
def helpText : String :=
  String.join (helpLines.map (· ++ "\n"))

inductive Refusal where
  | usage (error : UsageError)
  | fault (fault : Fault)
  deriving DecidableEq, Repr

def Refusal.message : Refusal → String
  | .usage cause => cause.message
  | .fault cause => cause.message

structure Completion (ω : Type) where
  refusal : Option Refusal
  files : FileSystem
  out : ω
  events : Array Event

def Completion.status {ω : Type} (completion : Completion ω) : UInt8 :=
  match completion.refusal with
  | none => 0
  | some (.usage _) => 1
  | some (.fault cause) => cause.exitCode

variable {ω : Type} [Sink ω]

def execute (config : Config) (files : FileSystem) (out : ω) : Completion ω :=
  match config.design.build config.memoryDepth.toNat with
  | .error fault => ⟨some (.fault fault), files, out, #[]⟩
  | .ok state =>
    let outcome := (Bench.ofDesign config.design.design config state).run files out
    match outcome.result with
    | .error fault => ⟨some (.fault fault), outcome.files, outcome.out, outcome.events⟩
    | .ok _ => ⟨none, outcome.files, outcome.out, outcome.events⟩

def invoke (arguments : List String) (files : FileSystem) (out : ω) : Completion ω :=
  match read arguments with
  | .help => ⟨none, files, (Sink.put helpText.toUTF8 out).2, #[]⟩
  | .version => ⟨none, files, (Sink.put versionText.toUTF8 out).2, #[]⟩
  | .refuse error => ⟨some (.usage error), files, out, #[]⟩
  | .run options =>
    match options.resolve files with
    | .error fault => ⟨some (.fault fault), files, out, #[]⟩
    | .ok config => execute config files out

end Testbench.CommandLine
