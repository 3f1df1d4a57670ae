import Testbench.Config.Json
import Testbench.Proofs.Json.Schema

/-! The options as settings of their records, and all the texts in which they may be given. -/
namespace Testbench

open Json

namespace Bundled

def jsonNames : Bundled → List String
  | accumulator => ["accumulator", "acc"]
  | counter => ["counter"]

/-- A design is given by one of its names, or by an object with the name for its only key. -/
inductive Spelled (kind : Bundled) : List Char → Prop
  | name {name : String} {text : List Char} (known : name ∈ kind.jsonNames)
    (spells : SpellsString name text) : Spelled kind text
  | key {name : String} {blanks : List Char} {member : Member} (known : name ∈ kind.jsonNames)
    (blank : Blank blanks) (spaced : member.Spaced) (named : member.Names name)
    (null : SpellsNull () member.value) : Spelled kind (object blanks [member])

theorem ofJsonName_of_mem {kind : Bundled} {name : String} (known : name ∈ kind.jsonNames) :
    ofJsonName name.toList = .ok kind := by
  cases kind with
  | accumulator =>
    simp only [jsonNames, List.mem_cons, List.not_mem_nil, or_false] at known
    rcases known with rfl | rfl <;> rfl
  | counter =>
    obtain rfl := List.mem_singleton.mp known
    rfl

theorem reads_spelled : Reads ofJson Spelled := by
  rintro kind text spelled blanks rest blank stops
  unfold ofJson
  rw [dropBlanks_append blank]
  cases spelled with
  | name known spells =>
    obtain ⟨inner, spells, rfl⟩ := spells
    rw [List.cons_append, dropBlanks_cons (by decide), List.append_assoc]
    simp [bind, Except.bind, pure, Except.pure, quoted_spells spells, ofJsonName_of_mem known]
  | @key name inside member known inner spaced named isNull =>
    let behind := member.element.before ++
      (member.value ++ (member.element.after ++ '}' :: rest))
    let quote := '"' :: (member.key ++ '"' :: (member.after ++ ':' :: behind))
    have parts : object inside [member] ++ rest = '{' :: (inside ++ (member.before ++ quote)) := by
      simp [object, joined, List.intercalate, Member.text, Element.text, Member.value, quote,
        behind]
    have key : dropBlanks (inside ++ (member.before ++ quote)) = quote := by
      rw [dropBlanks_append inner, dropBlanks_append spaced.1, dropBlanks_cons (by decide)]
    have ending : Stops (member.element.after ++ '}' :: rest) :=
      (Stops.cons (.inr (.inr rfl)) rest).append spaced.2.2.2
    have value : Json.null behind = .ok ((), member.element.after ++ '}' :: rest) :=
      reads_null () _ isNull _ _ spaced.2.2.1 ending
    have closed : dropBlanks (member.element.after ++ '}' :: rest) = '}' :: rest := by
      rw [dropBlanks_append spaced.2.2.2, dropBlanks_cons (by decide)]
    rw [parts, dropBlanks_cons (by decide)]
    simp [bind, Except.bind, key, quote, quoted_spells named, ofJsonName_of_mem known,
      colon_append spaced.2.1, value, closed]

end Bundled

namespace Dump

inductive Setting where
  | path (value : String)
  | start (value : UInt64)
  | length (value : UInt64)

def Setting.name : Setting → String
  | path _ => "path"
  | start _ => "start"
  | length _ => "length"

def Setting.set (draft : Draft) : Setting → Draft
  | path value => { draft with path := some value }
  | start value => { draft with start := value }
  | length value => { draft with length := some value }

def Setting.Spelled : Setting → List Char → Prop
  | path value => SpellsString value
  | start value | length value => SpellsNatural value

def schema : Schema Draft Setting where
  fields := fields
  names := ["path", "start", "length"]
  name := Setting.name
  set := Setting.set
  Spelled := Setting.Spelled
  named := rfl
  taken setting := by
    cases setting with
    | path _ => exact ⟨_, rfl, fun _ spelled => RecordField.of_reads reads_string _ _ spelled⟩
    | start _ => exact ⟨_, rfl, fun _ spelled => RecordField.of_reads reads_natural _ _ spelled⟩
    | length _ => exact ⟨_, rfl, fun _ spelled => RecordField.of_reads reads_natural _ _ spelled⟩
  commute record a b different := by
    cases a <;> cases b <;> first | rfl | exact absurd rfl different

/-- The start may be left out if it is zero. -/
def Request.Spelled (request : Request) (text : List Char) : Prop :=
  schema.Written [.path request.path, .start request.start, .length request.length] text ∨
    request.start = 0 ∧ schema.Written [.path request.path, .length request.length] text

theorem Request.reads_spelled : Reads Request.ofJson Request.Spelled := by
  rintro ⟨path, start, length⟩ text spelled blanks rest blank -
  rcases spelled with written | ⟨zero, written⟩
  · exact schema.reads_written written rfl blank
  · obtain rfl : start = 0 := zero
    exact schema.reads_written written rfl blank

theorem Request.Spelled.brace {request : Request} {text : List Char}
    (spelled : request.Spelled text) : ∃ rest, text = '{' :: rest := by
  rcases spelled with ⟨_, _, _, _, rfl⟩ | ⟨_, _, _, _, _, rfl⟩
  · exact ⟨_, rfl⟩
  · exact ⟨_, rfl⟩

end Dump

namespace Config

inductive Setting where
  | waveform (value : Bool)
  | tracePath (value : String)
  | dump (value : Option Dump.Request)
  | maxCycles (value : UInt64)
  | initialMemory (value : Option String)
  | design (value : Bundled)
  | memoryDepth (value : UInt64)
  | echoState (value : Bool)

namespace Setting

def name : Setting → String
  | waveform _ => "waveform"
  | tracePath _ => "trace_path"
  | dump _ => "dump"
  | maxCycles _ => "max_cycles"
  | initialMemory _ => "initial_memory"
  | design _ => "design"
  | memoryDepth _ => "memory_depth"
  | echoState _ => "echo_state"

def set (config : Config) : Setting → Config
  | waveform value => { config with waveform := value }
  | tracePath value => { config with tracePath := value }
  | dump value => { config with dump := value }
  | maxCycles value => { config with maxCycles := value }
  | initialMemory value => { config with initialMemory := value }
  | design value => { config with design := value }
  | memoryDepth value => { config with memoryDepth := value }
  | echoState value => { config with echoState := value }

def Spelled : Setting → List Char → Prop
  | waveform value | echoState value => SpellsBool value
  | tracePath value => SpellsString value
  | dump value => SpellsOptional Dump.Request.Spelled value
  | maxCycles value | memoryDepth value => SpellsNatural value
  | initialMemory value => SpellsOptional SpellsString value
  | design value => value.Spelled

end Setting

theorem reads_dump :
    Reads (optional Dump.Request.ofJson) (SpellsOptional Dump.Request.Spelled) := by
  refine reads_optional Dump.Request.reads_spelled fun request text spelled => ?_
  obtain ⟨rest, rfl⟩ := spelled.brace
  exact ⟨'{', rest, rfl, by decide, by decide⟩

theorem reads_initialMemory : Reads (optional string) (SpellsOptional SpellsString) := by
  refine reads_optional reads_string fun path text spelled => ?_
  obtain ⟨inner, -, rfl⟩ := spelled
  exact ⟨'"', _, rfl, by decide, by decide⟩

def schema : Schema Config Setting where
  fields := fields
  names := ["waveform", "trace_path", "dump", "max_cycles", "initial_memory", "design",
    "memory_depth", "echo_state"]
  name := Setting.name
  set := Setting.set
  Spelled := Setting.Spelled
  named := rfl
  taken setting := by
    cases setting with
    | waveform _ => exact ⟨_, rfl, fun _ spelled => RecordField.of_reads reads_bool _ _ spelled⟩
    | tracePath _ => exact ⟨_, rfl, fun _ spelled => RecordField.of_reads reads_string _ _ spelled⟩
    | dump _ => exact ⟨_, rfl, fun _ spelled => RecordField.of_reads reads_dump _ _ spelled⟩
    | maxCycles _ => exact ⟨_, rfl, fun _ spelled => RecordField.of_reads reads_natural _ _ spelled⟩
    | initialMemory _ =>
      exact ⟨_, rfl, fun _ spelled => RecordField.of_reads reads_initialMemory _ _ spelled⟩
    | design _ =>
      exact ⟨_, rfl, fun _ spelled => RecordField.of_reads Bundled.reads_spelled _ _ spelled⟩
    | memoryDepth _ =>
      exact ⟨_, rfl, fun _ spelled => RecordField.of_reads reads_natural _ _ spelled⟩
    | echoState _ => exact ⟨_, rfl, fun _ spelled => RecordField.of_reads reads_bool _ _ spelled⟩
  commute record a b different := by
    cases a <;> cases b <;> first | rfl | exact absurd rfl different

structure Overrides where
  waveform : Option Bool := none
  tracePath : Option String := none
  dump : Option (Option Dump.Request) := none
  maxCycles : Option UInt64 := none
  initialMemory : Option (Option String) := none
  design : Option Bundled := none
  memoryDepth : Option UInt64 := none
  echoState : Option Bool := none

namespace Overrides

def onto (given : Overrides) (config : Config) : Config where
  waveform := given.waveform.getD config.waveform
  tracePath := given.tracePath.getD config.tracePath
  dump := given.dump.getD config.dump
  maxCycles := given.maxCycles.getD config.maxCycles
  initialMemory := given.initialMemory.getD config.initialMemory
  design := given.design.getD config.design
  memoryDepth := given.memoryDepth.getD config.memoryDepth
  echoState := given.echoState.getD config.echoState

def all (config : Config) : Overrides where
  waveform := some config.waveform
  tracePath := some config.tracePath
  dump := some config.dump
  maxCycles := some config.maxCycles
  initialMemory := some config.initialMemory
  design := some config.design
  memoryDepth := some config.memoryDepth
  echoState := some config.echoState

def settings (given : Overrides) : List Setting :=
  (given.waveform.map .waveform).toList ++ (given.tracePath.map .tracePath).toList ++
    (given.dump.map .dump).toList ++ (given.maxCycles.map .maxCycles).toList ++
    (given.initialMemory.map .initialMemory).toList ++ (given.design.map .design).toList ++
    (given.memoryDepth.map .memoryDepth).toList ++ (given.echoState.map .echoState).toList

theorem foldl_given {α : Type} (given : Option α) (setting : α → Setting) (get : Config → α)
    (keep : ∀ config, (setting (get config)).set config = config) (config : Config) :
    (given.map setting).toList.foldl Setting.set config =
      (setting (given.getD (get config))).set config := by
  cases given with
  | none => exact (keep config).symm
  | some value => rfl

theorem foldl_settings (given : Overrides) (config : Config) :
    given.settings.foldl Setting.set config = given.onto config := by
  simp only [settings, List.foldl_append]
  rw [foldl_given _ .waveform Config.waveform fun _ => rfl,
    foldl_given _ .tracePath Config.tracePath fun _ => rfl,
    foldl_given _ .dump Config.dump fun _ => rfl,
    foldl_given _ .maxCycles Config.maxCycles fun _ => rfl,
    foldl_given _ .initialMemory Config.initialMemory fun _ => rfl,
    foldl_given _ .design Config.design fun _ => rfl,
    foldl_given _ .memoryDepth Config.memoryDepth fun _ => rfl,
    foldl_given _ .echoState Config.echoState fun _ => rfl]
  rfl

theorem names_given {α : Type} (given : Option α) (setting : α → Setting) (name : String)
    (named : ∀ value, (setting value).name = name) :
    ((given.map setting).toList.map Setting.name).Sublist [name] := by
  cases given with
  | none => exact List.nil_sublist _
  | some value => simp [named]

theorem nodup_settings (given : Overrides) : (given.settings.map schema.name).Nodup := by
  have names : (given.settings.map Setting.name).Sublist schema.names := by
    simp only [settings, List.map_append]
    change List.Sublist _ (["waveform"] ++ ["trace_path"] ++ ["dump"] ++ ["max_cycles"] ++
      ["initial_memory"] ++ ["design"] ++ ["memory_depth"] ++ ["echo_state"])
    repeat' apply List.Sublist.append
    all_goals exact names_given _ _ _ fun _ => rfl
  exact names.nodup (by decide)

end Overrides

end Config

end Testbench
