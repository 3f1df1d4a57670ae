import Testbench.CommandLine.Options
import Mathlib.Data.List.Nodup

/-! What options come to that are each given once, with values that can be used. Then their order
does not matter: whether a switch is there and which value a setting has can be looked up, and the
configuration below answers for what is not given. -/
namespace Testbench.CommandLine

inductive Slot where
  | switch (switch : Switch)
  | setting (setting : Setting)
  | image
  | other
  deriving DecidableEq

namespace Occurrence

def slot : Occurrence → Slot
  | switch given => .switch given
  | setting given _ => .setting given
  | positional _ => .image
  | help | version | wrong _ => .other

/-- An option whose value, if it has one, can be used. -/
inductive Valid : Occurrence → Prop
  | switch (given : Switch) : Valid (.switch given)
  | dump {value : String} {request : Dump.Request}
    (reads : Dump.Request.ofSpec value = .ok request) : Valid (.setting .dump value)
  | cycles {value : String} {count : UInt64} (reads : Text.decimal? value.toList = some count) :
    Valid (.setting .cycles value)
  | trace {value : String} (named : value ≠ "") : Valid (.setting .trace value)
  | design {value : String} {kind : Bundled} (reads : Bundled.ofName value = .ok kind) :
    Valid (.setting .design value)
  | depth {value : String} {words : UInt64} (reads : Text.decimal? value.toList = some words) :
    Valid (.setting .depth value)
  | config {value : String} (named : value ≠ "") : Valid (.setting .config value)
  | image {value : String} (named : value ≠ "") : Valid (.positional value)

@[simp] def settingText? (setting : Setting) : Occurrence → Option String
  | .setting given text => if given = setting then some text else none
  | _ => none

@[simp] def imageText? : Occurrence → Option String
  | positional text => some text
  | _ => none

end Occurrence

/-- Every option is given at most once. -/
def Once (found : List Occurrence) : Prop :=
  (found.map Occurrence.slot).Nodup

instance (found : List Occurrence) : Decidable (Once found) :=
  inferInstanceAs (Decidable (List.Nodup _))

def text? (setting : Setting) (found : List Occurrence) : Option String :=
  found.findSome? (Occurrence.settingText? setting)

def image? (found : List Occurrence) : Option String :=
  found.findSome? Occurrence.imageText?

def collect (found : List Occurrence) : Options where
  waveform := decide (.switch .waveform ∈ found)
  quiet := decide (.switch .quiet ∈ found)
  dump := (text? .dump found).bind fun text => (Dump.Request.ofSpec text).toOption
  cycles := (text? .cycles found).bind fun text => Text.decimal? text.toList
  trace := (text? .trace found).bind path?
  design := (text? .design found).bind fun text => (Bundled.ofName text).toOption
  depth := (text? .depth found).bind fun text => Text.decimal? text.toList
  config := (text? .config found).bind path?
  image := (image? found).bind path?

theorem path?_of_ne {value : String} (named : value ≠ "") : path? value = some value := by
  simp [path?, named]

section

variable {before rest found found' : List Occurrence} {occurrence : Occurrence}

@[simp] theorem text?_concat (setting : Setting) :
    text? setting (before ++ [occurrence]) =
      (text? setting before).or (occurrence.settingText? setting) := by
  simp [text?, List.findSome?_append, List.findSome?_singleton]

@[simp] theorem image?_concat :
    image? (before ++ [occurrence]) = (image? before).or occurrence.imageText? := by
  simp [image?, List.findSome?_append, List.findSome?_singleton]

theorem settingText?_of_ne {setting : Setting} (other : occurrence.slot ≠ .setting setting) :
    occurrence.settingText? setting = none := by
  cases occurrence with
  | setting given text => simpa [Occurrence.slot] using other
  | _ => rfl

theorem imageText?_of_ne (other : occurrence.slot ≠ .image) : occurrence.imageText? = none := by
  cases occurrence with
  | positional text => exact absurd rfl other
  | _ => rfl

theorem findSome?_eq_none {look : Occurrence → Option String} {slot : Slot}
    (only : ∀ {occurrence : Occurrence}, occurrence.slot ≠ slot → look occurrence = none)
    (new : slot ∉ before.map Occurrence.slot) : before.findSome? look = none := by
  rw [List.findSome?_eq_none_iff]
  intro occurrence known
  apply only
  rintro rfl
  exact new (List.mem_map_of_mem known)

theorem text?_eq_none {setting : Setting}
    (new : Slot.setting setting ∉ before.map Occurrence.slot) : text? setting before = none :=
  findSome?_eq_none settingText?_of_ne new

theorem image?_eq_none (new : Slot.image ∉ before.map Occurrence.slot) : image? before = none :=
  findSome?_eq_none imageText?_of_ne new

theorem switch_not_mem {switch : Switch}
    (new : Slot.switch switch ∉ before.map Occurrence.slot) : Occurrence.switch switch ∉ before :=
  fun known => new (List.mem_map_of_mem known)

theorem answer_collect (valid : occurrence.Valid)
    (new : occurrence.slot ∉ before.map Occurrence.slot) :
    answer (occurrence :: rest) (collect before) =
      answer rest (collect (before ++ [occurrence])) := by
  cases valid with
  | switch given =>
    have absent := switch_not_mem new
    cases given <;> simp [answer, setSwitch, collect, absent]
  | dump reads | design reads =>
    have absent := text?_eq_none new
    simp [answer, setSetting, setOnce, collect, absent, reads, Except.toOption]
  | cycles reads | depth reads =>
    have absent := text?_eq_none new
    simp [answer, setSetting, setOnce, collect, absent, reads]
  | trace named | config named =>
    have absent := text?_eq_none new
    simp [answer, setSetting, setOnce, collect, absent, path?_of_ne named]
  | image named =>
    have absent := image?_eq_none new
    simp [answer, setImage, collect, absent, path?_of_ne named]

theorem Once.new (once : Once (before ++ occurrence :: rest)) :
    occurrence.slot ∉ before.map Occurrence.slot := by
  rw [Once, List.map_append, List.nodup_append] at once
  exact fun known => once.2.2 _ known _ (.head _) rfl

theorem answer_eq_run (valid : ∀ occurrence ∈ rest, occurrence.Valid)
    (once : Once (before ++ rest)) :
    answer rest (collect before) = .run (collect (before ++ rest)) := by
  induction rest generalizing before with
  | nil => rw [List.append_nil, answer]
  | cons occurrence rest ih =>
    rw [answer_collect (valid _ (.head _)) once.new]
    rw [List.append_cons before occurrence rest] at once ⊢
    exact ih (fun other later => valid other (.tail _ later)) once

theorem findSome?_eq_some_iff (once : Once found) {look : Occurrence → Option String} {slot : Slot}
    (only : ∀ {occurrence : Occurrence}, occurrence.slot ≠ slot → look occurrence = none)
    {text : String} :
    found.findSome? look = some text ↔ ∃ occurrence ∈ found, look occurrence = some text := by
  constructor
  · exact List.exists_of_findSome?_eq_some
  · rintro ⟨occurrence, known, here⟩
    obtain ⟨before, after, rfl⟩ := List.append_of_mem known
    have its : occurrence.slot = slot := by
      by_contra other
      rw [only other] at here
      cases here
    rw [List.findSome?_append, findSome?_eq_none only (its ▸ once.new), Option.none_or,
      List.findSome?_cons, here]

theorem text?_eq_some_iff (once : Once found) {setting : Setting} {text : String} :
    text? setting found = some text ↔ .setting setting text ∈ found := by
  rw [text?, findSome?_eq_some_iff once settingText?_of_ne]
  constructor
  · rintro ⟨occurrence, known, here⟩
    cases occurrence with
    | setting given value =>
      obtain ⟨rfl, rfl⟩ : given = setting ∧ value = text := by simpa using here
      exact known
    | _ => cases here
  · exact fun known => ⟨_, known, by simp⟩

theorem image?_eq_some_iff (once : Once found) {text : String} :
    image? found = some text ↔ .positional text ∈ found := by
  rw [image?, findSome?_eq_some_iff once imageText?_of_ne]
  constructor
  · rintro ⟨occurrence, known, here⟩
    cases occurrence with
    | positional value =>
      cases here
      exact known
    | _ => cases here
  · exact fun known => ⟨_, known, rfl⟩

theorem Once.perm (once : Once found) (perm : found'.Perm found) : Once found' :=
  (perm.map Occurrence.slot).nodup_iff.mpr once

theorem collect_perm (once : Once found) (perm : found'.Perm found) :
    collect found' = collect found := by
  have texts (setting : Setting) : text? setting found' = text? setting found := by
    ext text
    rw [text?_eq_some_iff once, text?_eq_some_iff (once.perm perm), perm.mem_iff]
  have image : image? found' = image? found := by
    ext text
    rw [image?_eq_some_iff once, image?_eq_some_iff (once.perm perm), perm.mem_iff]
  simp only [collect, texts, image, perm.mem_iff]

end

/-- A value is that of an option, if it is given, and otherwise the one below. -/
structure Takes {α : Type} (found : List Occurrence) (option : String → Occurrence)
    (reads : String → α → Prop) (base value : α) : Prop where
  given (text : String) (known : option text ∈ found) : reads text value
  absent (missing : ∀ text, option text ∉ found) : value = base

/-- The configuration that a command line asks for on top of another one. -/
structure Effective (found : List Occurrence) (base config : Config) : Prop where
  waveform : config.waveform = true ↔ base.waveform = true ∨ .switch .waveform ∈ found
  echoState : config.echoState = true ↔ base.echoState = true ∧ .switch .quiet ∉ found
  tracePath : Takes found (.setting .trace) (fun text path => path = text)
    base.tracePath config.tracePath
  dump : Takes found (.setting .dump)
    (fun text dump => ∃ request, Dump.Request.ofSpec text = .ok request ∧ dump = some request)
    base.dump config.dump
  maxCycles : Takes found (.setting .cycles)
    (fun text count => Text.decimal? text.toList = some count) base.maxCycles config.maxCycles
  initialMemory : Takes found .positional (fun text image => image = some text)
    base.initialMemory config.initialMemory
  design : Takes found (.setting .design) (fun text kind => Bundled.ofName text = .ok kind)
    base.design config.design
  memoryDepth : Takes found (.setting .depth)
    (fun text words => Text.decimal? text.toList = some words) base.memoryDepth config.memoryDepth

/-- The configuration below the options: that of the file they name, or the defaults. -/
def Below (found : List Occurrence) (files : FileSystem) : Config → Prop :=
  Takes found (.setting .config) (fun path base => Config.ofFile path files = .ok base) {}

section

variable {found : List Occurrence} {α : Type} {reads : String → α → Prop} {base value : α}

theorem takes_of_lookup {option : String → Occurrence} {looked : Option String}
    (iff : ∀ text, looked = some text ↔ option text ∈ found)
    (given : ∀ text, looked = some text → reads text value)
    (absent : looked = none → value = base) : Takes found option reads base value where
  given text known := given text ((iff text).mpr known)
  absent missing := by
    apply absent
    rw [Option.eq_none_iff_forall_ne_some]
    exact fun text looked => missing text ((iff text).mp looked)

theorem effective_collect (valid : ∀ occurrence ∈ found, occurrence.Valid) (once : Once found)
    (base : Config) : Effective found base ((collect found).over base) := by
  have texts (setting : Setting) (text : String) :
      text? setting found = some text ↔ .setting setting text ∈ found := text?_eq_some_iff once
  constructor
  case waveform => simp [collect, Options.over]
  case echoState => simp [collect, Options.over]
  case tracePath =>
    refine takes_of_lookup (texts .trace) (fun text looked => ?_) fun looked => ?_
    · cases valid _ ((texts .trace text).mp looked) with
      | trace named => simp [collect, Options.over, looked, path?_of_ne named]
    · simp [collect, Options.over, looked]
  case dump =>
    refine takes_of_lookup (texts .dump) (fun text looked => ?_) fun looked => ?_
    · cases valid _ ((texts .dump text).mp looked) with
      | dump reads =>
        exact ⟨_, reads, by simp [collect, Options.over, looked, reads, Except.toOption]⟩
    · simp [collect, Options.over, looked]
  case maxCycles =>
    refine takes_of_lookup (texts .cycles) (fun text looked => ?_) fun looked => ?_
    · cases valid _ ((texts .cycles text).mp looked) with
      | cycles reads => simp [collect, Options.over, looked, reads]
    · simp [collect, Options.over, looked]
  case initialMemory =>
    refine takes_of_lookup (fun text => image?_eq_some_iff once) (fun text looked => ?_)
      fun looked => ?_
    · cases valid _ ((image?_eq_some_iff once).mp looked) with
      | image named => simp [collect, Options.over, looked, path?_of_ne named]
    · simp [collect, Options.over, looked]
  case design =>
    refine takes_of_lookup (texts .design) (fun text looked => ?_) fun looked => ?_
    · cases valid _ ((texts .design text).mp looked) with
      | design reads => simp [collect, Options.over, looked, reads, Except.toOption]
    · simp [collect, Options.over, looked]
  case memoryDepth =>
    refine takes_of_lookup (texts .depth) (fun text looked => ?_) fun looked => ?_
    · cases valid _ ((texts .depth text).mp looked) with
      | depth reads => simp [collect, Options.over, looked, reads]
    · simp [collect, Options.over, looked]

theorem Takes.unique {option : String → Occurrence} {other : α}
    (functional : ∀ {text : String} {one two : α}, reads text one → reads text two → one = two)
    (one : Takes found option reads base value) (two : Takes found option reads base other) :
    value = other := by
  by_cases known : ∃ text, option text ∈ found
  · obtain ⟨text, known⟩ := known
    exact functional (one.given text known) (two.given text known)
  · rw [not_exists] at known
    exact (one.absent known).trans (two.absent known).symm

theorem Effective.unique {base config other : Config} (one : Effective found base config)
    (two : Effective found base other) : config = other := by
  have waveform : config.waveform = other.waveform :=
    Bool.eq_iff_iff.mpr (one.waveform.trans two.waveform.symm)
  have echoState : config.echoState = other.echoState :=
    Bool.eq_iff_iff.mpr (one.echoState.trans two.echoState.symm)
  have tracePath : config.tracePath = other.tracePath :=
    one.tracePath.unique (fun first second => first.trans second.symm) two.tracePath
  have dump : config.dump = other.dump := by
    refine one.dump.unique ?_ two.dump
    rintro text _ _ ⟨request, reads, rfl⟩ ⟨request', reads', rfl⟩
    exact congrArg some (Except.ok.inj (reads.symm.trans reads'))
  have maxCycles : config.maxCycles = other.maxCycles :=
    one.maxCycles.unique (fun first second => Option.some.inj (first.symm.trans second))
      two.maxCycles
  have initialMemory : config.initialMemory = other.initialMemory :=
    one.initialMemory.unique (fun first second => first.trans second.symm) two.initialMemory
  have design : config.design = other.design :=
    one.design.unique (fun first second => Except.ok.inj (first.symm.trans second)) two.design
  have memoryDepth : config.memoryDepth = other.memoryDepth :=
    one.memoryDepth.unique (fun first second => Option.some.inj (first.symm.trans second))
      two.memoryDepth
  cases config
  cases other
  simp_all

theorem resolve_collect (valid : ∀ occurrence ∈ found, occurrence.Valid) (once : Once found)
    {files : FileSystem} {base : Config} (below : Below found files base) :
    (collect found).resolve files = .ok ((collect found).over base) := by
  cases looked : text? .config found with
  | none =>
    have missing (path : String) : .setting .config path ∉ found := fun known =>
      Option.some_ne_none path (((text?_eq_some_iff once).mpr known).symm.trans looked)
    rw [below.absent missing]
    simp [Options.resolve, collect, looked]
  | some path =>
    have known := (text?_eq_some_iff once).mp looked
    cases valid _ known with
    | config named =>
      have config : (collect found).config = some path := by
        simp [collect, looked, path?_of_ne named]
      rw [Options.resolve, config]
      simp only [below.given path known, Except.map]

end

end Testbench.CommandLine
