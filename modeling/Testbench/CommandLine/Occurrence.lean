import Testbench.Config.DumpSpec

/-! A command line as a list of occurrences: switches, settings with their values and
positional values, in order. Splitting is a matter of spelling alone; whether a value is
any good is decided later. -/
namespace Testbench.CommandLine

inductive Switch where
  | waveform
  | quiet
  deriving DecidableEq, Repr

inductive Setting where
  | dump
  | cycles
  | trace
  | design
  | depth
  | config
  deriving DecidableEq, Repr

def Setting.name : Setting → String
  | .dump => "-d"
  | .cycles => "-c"
  | .trace => "--trace"
  | .design => "--design"
  | .depth => "--depth"
  | .config => "--config"

inductive UsageError where
  | unknown (argument : String)
  | repeated (option : String)
  | missingValue (setting : Setting)
  | unexpectedValue (option : String)
  | invalidValue (option value : String)
  | surplus (argument : String)
  deriving DecidableEq, Repr

def UsageError.message : UsageError → String
  | .unknown argument => "unexpected argument '" ++ argument ++ "' found"
  | .repeated option => "the argument '" ++ option ++ "' cannot be used multiple times"
  | .missingValue setting => "a value is required for '" ++ setting.name ++ "'"
  | .unexpectedValue option => "no value is expected for '" ++ option ++ "'"
  | .invalidValue option value => "invalid value '" ++ value ++ "' for '" ++ option ++ "'"
  | .surplus argument => "unexpected argument '" ++ argument ++ "' found"

inductive Occurrence where
  | switch (switch : Switch)
  | setting (setting : Setting) (value : String)
  | positional (value : String)
  | help
  | version
  | wrong (error : UsageError)
  deriving DecidableEq, Repr

inductive Key where
  | plain (occurrence : Occurrence)
  | valued (setting : Setting)

def shortKey? : Char → Option Key
  | 'w' => some (.plain (.switch .waveform))
  | 'q' => some (.plain (.switch .quiet))
  | 'h' => some (.plain .help)
  | 'V' => some (.plain .version)
  | 'd' => some (.valued .dump)
  | 'c' => some (.valued .cycles)
  | _ => none

def longKey? (name : String) : Option Key :=
  if name = "quiet" then some (.plain (.switch .quiet))
  else if name = "help" then some (.plain .help)
  else if name = "version" then some (.plain .version)
  else if name = "trace" then some (.valued .trace)
  else if name = "design" then some (.valued .design)
  else if name = "depth" then some (.valued .depth)
  else if name = "config" then some (.valued .config)
  else none

/-- The occurrences in one argument. A setting that has got no value yet takes the next
argument. -/
structure Group where
  found : List Occurrence
  awaiting : Option Setting

/-- Short options may be written together. The first setting among them takes whatever
follows as its value, less one equals sign. -/
def shortGroup : List Char → Group
  | [] => ⟨[], none⟩
  | c :: rest =>
    match shortKey? c with
    | none => ⟨[.wrong (.unknown (String.ofList ['-', c]))], none⟩
    | some (.plain occurrence) =>
      let ⟨found, awaiting⟩ := shortGroup rest
      ⟨occurrence :: found, awaiting⟩
    | some (.valued setting) =>
      match rest with
      | [] => ⟨[], some setting⟩
      | '=' :: value => ⟨[.setting setting (String.ofList value)], none⟩
      | value => ⟨[.setting setting (String.ofList value)], none⟩

def longGroup (text : List Char) : Group :=
  let name := String.ofList (text.takeWhile (· ≠ '='))
  match longKey? name, text.dropWhile (· ≠ '=') with
  | none, _ => ⟨[.wrong (.unknown ("--" ++ name))], none⟩
  | some (.plain occurrence), [] => ⟨[occurrence], none⟩
  | some (.plain _), _ :: _ => ⟨[.wrong (.unexpectedValue ("--" ++ name))], none⟩
  | some (.valued setting), [] => ⟨[], some setting⟩
  | some (.valued setting), _ :: value => ⟨[.setting setting (String.ofList value)], none⟩

/-- Whether an argument is a value and not an option; a lone dash is one. -/
def isValue (argument : String) : Bool :=
  match argument.toList with
  | '-' :: _ :: _ => false
  | _ => true

def group (argument : String) : Group :=
  match argument.toList with
  | '-' :: '-' :: name => longGroup name
  | '-' :: c :: rest => shortGroup (c :: rest)
  | _ => ⟨[.positional argument], none⟩

def occurrences : List String → List Occurrence
  | [] => []
  | argument :: rest =>
    if argument = "--" then rest.map .positional
    else match group argument, rest with
      | ⟨found, none⟩, rest => found ++ occurrences rest
      | ⟨found, some setting⟩, [] => found ++ [.wrong (.missingValue setting)]
      | ⟨found, some setting⟩, value :: rest =>
        if isValue value then found ++ .setting setting value :: occurrences rest
        else found ++ [.wrong (.missingValue setting)]

end Testbench.CommandLine
