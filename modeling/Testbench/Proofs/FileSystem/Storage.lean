import Testbench.Proofs.FileSystem.Destination
import Testbench.Proofs.Sink.Alike

/-! What a writer sees of the storage: whether a path can be opened, and which of the writes behind
it fall short. Two file systems that answer alike stay in step while the same text is written to
both, whatever they held before, and in the end the files that were written are the same. -/
namespace Testbench

structure OpenFile.Twins (handle handle' : FileSystem × Location × Bool) (one two : OpenFile) :
    Prop where
  first : one.handle = handle
  second : two.handle = handle'
  contents : one.contents = two.contents
  writes : one.writes = two.writes

theorem OpenFile.alike_twins {handle handle' : FileSystem × Location × Bool}
    (same : (handle.1.medium handle.2.1).shortfall = (handle'.1.medium handle'.2.1).shortfall) :
    Sink.Alike (Twins handle handle') where
  write bytes one two twins := by
    obtain ⟨rfl, rfl, contents, writes⟩ := twins
    show Sink.Agree _ (one.write bytes) (two.write bytes)
    have answer : (one.files.medium one.location).shortfall one.writes =
        (two.files.medium two.location).shortfall two.writes := by
      rw [← writes]
      exact congrFun same one.writes
    unfold OpenFile.write
    rw [answer]
    split
    · exact .same _ ⟨rfl, rfl, contents, writes⟩
    · split
      · refine .same _ ⟨rfl, rfl, ?_, ?_⟩ <;> simp [contents, writes]
      · refine .same _ ⟨rfl, rfl, ?_, ?_⟩ <;> simp [contents, writes]
  flush twins := .same _ twins

namespace FileSystem

variable {files others third : FileSystem} {path : String} {file : OpenFile}

def isDevice (files : FileSystem) (location : Location) : Bool :=
  match files.node? location with
  | some .device => true
  | _ => false

theorem isDevice_iff {location : Location} :
    files.isDevice location = true ↔ files.node? location = some .device := by
  unfold isDevice
  split <;> simp_all

theorem isDevice_put (contents : ByteArray) {location : Location} (named : location ≠ [])
    (regular : files.isDevice location = false) (other : Location) :
    (files.put location (.file contents)).isDevice other = files.isDevice other := by
  by_cases here : other = location
  · subst here
    rw [regular, isDevice, node?_put_self _ _ named]
  · rw [isDevice, isDevice, node?_put_of_ne _ _ named here]

theorem enter_unique {start location location' : Location} {name : String}
    (entered : files.enter start name = .ok location)
    (entered' : others.enter start name = .ok location') : location = location' := by
  unfold enter at entered entered'
  split at entered
  · simp_all
  · split at entered
    · simp_all
    · split at entered
      · cases entered
      · simp only [*, if_false] at entered'
        split at entered <;> split at entered' <;> simp_all

theorem walk_unique {slashed : Bool} {start : Location} {names : List String}
    {target target' : Target} (walked : files.walk slashed start names = .ok target)
    (walked' : others.walk slashed start names = .ok target') : target = target' := by
  induction names generalizing start with
  | nil => exact Except.ok.inj (walked.symm.trans walked')
  | cons name rest ih =>
    cases rest with
    | nil => exact Except.ok.inj (walked.symm.trans walked')
    | cons next rest =>
      unfold walk at walked walked'
      split at walked
      · rename_i entered
        split at walked'
        · rename_i entered'
          cases enter_unique entered entered'
          exact ih walked walked'
        · cases walked'
      · cases walked

theorem resolve_unique {target target' : Target} (resolved : files.resolve path = .ok target)
    (resolved' : others.resolve path = .ok target') : target = target' := by
  unfold resolve at resolved resolved'
  dsimp only at resolved resolved'
  split at resolved
  · cases resolved
  · split at resolved
    · cases resolved
    · split at resolved
      · cases resolved
      · simp only [*, if_false] at resolved'
        exact walk_unique resolved resolved'

theorem create_eq_ok_iff :
    files.create path = .ok file ↔ ∃ parent name,
      files.resolve path = .ok (.entry parent name false) ∧ name.utf8ByteSize ≤ nameLimit ∧
      files.isDirectory (name :: parent) = false ∧
      (files.medium (name :: parent)).createError = none ∧
      file = ⟨files, name :: parent, !files.isDevice (name :: parent), ByteArray.empty, 0⟩ := by
  constructor
  · intro created
    unfold create at created
    split at created
    · cases created
    · cases created
    · rename_i parent name slashed resolved
      split at created
      · cases created
      · rename_i plain
        rw [Bool.not_eq_true] at plain
        subst plain
        split at created
        · cases created
        · rename_i short
          refine ⟨parent, name, resolved, Nat.le_of_not_lt short, ?_⟩
          unfold isDirectory isDevice
          cases found : files.node? (name :: parent) with
          | none => cases possible : (files.medium (name :: parent)).createError <;> simp_all
          | some node =>
            cases node <;> cases possible : (files.medium (name :: parent)).createError <;> simp_all
  · rintro ⟨parent, name, resolved, short, plain, possible, rfl⟩
    unfold isDirectory at plain
    unfold create isDevice
    rw [resolved]
    cases found : files.node? (name :: parent) with
    | none => simp [Nat.not_lt_of_le short, possible, found]
    | some node => cases node <;> simp_all [Nat.not_lt_of_le short]

/-- Two file systems that agree on what is a directory, what a device, and on what lies below. -/
structure SameStorage (files others : FileSystem) : Prop where
  directory (location : Location) : files.isDirectory location = others.isDirectory location
  device (location : Location) : files.isDevice location = others.isDevice location
  medium : files.medium = others.medium

theorem SameStorage.refl (files : FileSystem) : SameStorage files files :=
  ⟨fun _ => rfl, fun _ => rfl, rfl⟩

theorem SameStorage.symm (same : SameStorage files others) : SameStorage others files :=
  ⟨fun location => (same.directory location).symm, fun location => (same.device location).symm,
    same.medium.symm⟩

theorem SameStorage.trans (first : SameStorage files others) (second : SameStorage others third) :
    SameStorage files third :=
  ⟨fun location => (first.directory location).trans (second.directory location),
    fun location => (first.device location).trans (second.device location),
    first.medium.trans second.medium⟩

theorem SameStorage.resolve (same : SameStorage files others) {target : Target}
    (resolved : files.resolve path = .ok target) : others.resolve path = .ok target := by
  have options := toOption_resolve_congr same.directory path
  rw [resolved] at options
  cases resolved' : others.resolve path with
  | error _ => rw [resolved'] at options; cases options
  | ok target' => rw [resolve_unique resolved resolved']

theorem SameStorage.create (same : SameStorage files others)
    (created : files.create path = .ok file) :
    others.create path = .ok { file with files := others } := by
  obtain ⟨parent, name, resolved, short, plain, possible, rfl⟩ := create_eq_ok_iff.mp created
  refine create_eq_ok_iff.mpr ⟨parent, name, same.resolve resolved, short, ?_, ?_, ?_⟩
  · rw [← same.directory, plain]
  · rw [← same.medium, possible]
  · rw [← same.device]

theorem SameStorage.readText (same : SameStorage files others) {text : String}
    (read : files.readText path = .ok text)
    (kept : ∀ location, files.destination? path = some location →
      others.node? location = files.node? location) : others.readText path = .ok text := by
  unfold FileSystem.readText FileSystem.read at read ⊢
  cases resolved : files.resolve path with
  | error _ => simp [resolved] at read
  | ok target =>
    rw [resolved] at read
    rw [same.resolve resolved]
    cases target with
    | directory => simp at read
    | entry parent name slashed =>
      have leads : files.destination? path = some (name :: parent) := by
        rw [destination?, resolved]
      dsimp only
      rw [kept _ leads, ← same.medium]
      exact read

theorem sameStorage_close {final : OpenFile} (created : files.create path = .ok file)
    (same : final.handle = file.handle) : SameStorage files final.close := by
  have opened := opened_of_create created
  rw [close_eq opened same]
  split
  · rename_i keeps
    have regular : files.isDevice file.location = false := by
      obtain ⟨parent, name, -, -, -, -, rfl⟩ := create_eq_ok_iff.mp created
      simpa using keeps
    exact ⟨fun other => (isDirectory_put _ opened.named opened.plain other).symm,
      fun other => (isDevice_put _ opened.named regular other).symm, rfl⟩
  · exact .refl files

/-- How the storage answers to somebody who writes a path: not at all, or with these shortfalls. -/
def answers (files : FileSystem) (path : String) : Option (Nat → Option Shortfall) :=
  match files.create path with
  | .error _ => none
  | .ok file => some (files.medium file.location).shortfall

theorem answers_of_created (created : files.create path = .ok file) :
    files.answers path = some (files.medium file.location).shortfall := by
  rw [answers, created]

theorem SameStorage.answers (same : SameStorage files others) (path : String) :
    files.answers path = others.answers path := by
  cases created : files.create path with
  | error _ =>
    cases created' : others.create path with
    | error _ => rw [FileSystem.answers, FileSystem.answers, created, created']
    | ok _ => exact absurd (created.symm.trans (same.symm.create created')) nofun
  | ok file =>
    rw [answers_of_created created, answers_of_created (same.create created), same.medium]

theorem error_of_answers (alike : files.answers path = others.answers path) {error : IoError}
    (refused : files.create path = .error error) :
    ∃ error', others.create path = .error error' := by
  unfold answers at alike
  rw [refused] at alike
  cases refused' : others.create path with
  | error error' => exact ⟨error', rfl⟩
  | ok _ => rw [refused'] at alike; cases alike

theorem created_of_answers (alike : files.answers path = others.answers path)
    (created : files.create path = .ok file) :
    ∃ file', others.create path = .ok file' ∧
      Sink.Alike (OpenFile.Twins file.handle file'.handle) := by
  unfold answers at alike
  rw [created] at alike
  cases created' : others.create path with
  | error _ => rw [created'] at alike; cases alike
  | ok file' =>
    rw [created'] at alike
    obtain ⟨_, _, resolved, -, -, -, rfl⟩ := create_eq_ok_iff.mp created
    obtain ⟨_, _, resolved', -, -, -, rfl⟩ := create_eq_ok_iff.mp created'
    exact ⟨_, rfl, OpenFile.alike_twins (Option.some.inj alike)⟩

variable {left left' : FileSystem} {paths : List String} {file' final final' : OpenFile}

/-- Nothing is opened at this location by somebody who writes these paths. -/
def Spares (paths : List String) (files : FileSystem) (location : Location) : Prop :=
  ∀ path ∈ paths, ∀ file, files.create path = .ok file → file.location ≠ location

/-- Two file systems after the same text has been written to some paths: the files behind these
paths are the same now, and everything else is as it was. -/
structure InStep (paths : List String) (files others left left' : FileSystem) : Prop where
  storage : SameStorage files left
  storage' : SameStorage others left'
  written : ∀ path ∈ paths, ∀ file, files.create path = .ok file →
    files.isDevice file.location = false → others.isDevice file.location = false →
      left.node? file.location = left'.node? file.location
  kept : ∀ location, files.Spares paths location →
    left.node? location = files.node? location ∧ left'.node? location = others.node? location

theorem twins_of_created (created : left.create path = .ok file)
    (created' : left'.create path = .ok file') :
    OpenFile.Twins file.handle file'.handle file file' := by
  obtain ⟨_, _, -, -, -, -, rfl⟩ := create_eq_ok_iff.mp created
  obtain ⟨_, _, -, -, -, -, rfl⟩ := create_eq_ok_iff.mp created'
  exact ⟨rfl, rfl, rfl, rfl⟩

theorem InStep.start (files others : FileSystem) : InStep [] files others files others :=
  ⟨.refl files, .refl others, nofun, fun _ _ => ⟨rfl, rfl⟩⟩

theorem InStep.answers (step : InStep paths files others left left')
    (alike : files.answers path = others.answers path) : left.answers path = left'.answers path :=
  ((step.storage.answers path).symm.trans alike).trans (step.storage'.answers path)

theorem InStep.refused (step : InStep paths files others left left') {error : IoError}
    (refused : left.create path = .error error) :
    InStep (paths ++ [path]) files others left left' where
  storage := step.storage
  storage' := step.storage'
  written := by
    intro other known file created
    rcases List.mem_append.mp known with known | last
    · exact step.written other known file created
    · rw [List.mem_singleton.mp last] at created
      exact absurd (refused.symm.trans (step.storage.create created)) nofun
  kept location apart :=
    step.kept location fun path known => apart path (List.mem_append_left _ known)

theorem InStep.close (step : InStep paths files others left left')
    (created : left.create path = .ok file) (created' : left'.create path = .ok file')
    (twins : OpenFile.Twins file.handle file'.handle final final') :
    InStep (paths ++ [path]) files others final.close final'.close := by
  have opened := opened_of_create created
  have opened' := opened_of_create created'
  have location : file'.location = file.location := by
    obtain ⟨_, _, resolved, -, -, -, rfl⟩ := create_eq_ok_iff.mp created
    obtain ⟨_, _, resolved', -, -, -, rfl⟩ := create_eq_ok_iff.mp created'
    cases resolve_unique resolved resolved'
    rfl
  have apart {other : Location} (away : other ≠ file.location) :
      final.close.node? other = left.node? other ∧ final'.close.node? other = left'.node? other :=
    ⟨node?_close_of_ne opened twins.first away,
      node?_close_of_ne opened' twins.second (location ▸ away)⟩
  have before : files.create path = .ok { file with files := files } :=
    step.storage.symm.create created
  refine ⟨step.storage.trans (sameStorage_close created twins.first),
    step.storage'.trans (sameStorage_close created' twins.second), ?_, ?_⟩
  · intro other known written recreated regular regular'
    by_cases here : written.location = file.location
    · rw [here] at regular regular' ⊢
      rw [step.storage.device] at regular
      rw [step.storage'.device, ← location] at regular'
      rw [← Bool.not_eq_true, isDevice_iff] at regular regular'
      rw [node?_close opened twins.first regular, ← location,
        node?_close opened' twins.second regular', twins.contents]
    · obtain ⟨first, second⟩ := apart here
      rw [first, second]
      rcases List.mem_append.mp known with known | last
      · exact step.written other known written recreated regular regular'
      · rw [List.mem_singleton.mp last, before] at recreated
        cases recreated
        exact absurd rfl here
  · intro other away
    obtain ⟨first, second⟩ :=
      apart (away path (List.mem_append_right _ (.head _)) _ before).symm
    rw [first, second]
    exact step.kept other fun path known => away path (List.mem_append_left _ known)

end FileSystem

end Testbench
