import Testbench.FileSystem
import Testbench.Proofs.Sink.Faithful

/-! Which file a path leads to when it is written. Only directories are walked through, so a
file that is created, emptied or written leaves every path where it led, and what is written
through a path changes its own destination only. -/
namespace Testbench

namespace OpenFile

def handle (file : OpenFile) : FileSystem × Location × Bool :=
  (file.files, file.location, file.keeps)

theorem preserves_handle : Sink.Preserves handle where
  write bytes file := by
    show handle (file.write bytes).2 = handle file
    unfold OpenFile.write
    split
    · rfl
    · split <;> rfl
  flush _ := rfl

theorem faithful (fixed : FileSystem × Location × Bool) :
    Sink.Faithful (fun file : OpenFile => file.handle = fixed) OpenFile.contents where
  write := by
    intro bytes file after holds written
    have kept := preserves_handle.write bytes file
    rw [written, holds] at kept
    refine ⟨kept, ?_⟩
    have unfolded : file.write bytes = (.ok (), after) := written
    unfold OpenFile.write at unfolded
    split at unfolded
    · rename_i nothing
      cases unfolded
      rw [ByteArray.size_eq_zero_iff.mp (beq_iff_eq.mp nothing), ByteArray.append_empty]
    · split at unfolded <;> cases unfolded
      rfl
  flush := by
    intro file after holds flushed
    cases flushed
    exact ⟨holds, rfl⟩

/-- The storage behind a file takes every write. -/
def Unlimited (file : OpenFile) : Prop :=
  ∀ n, (file.files.medium file.location).shortfall n = none

theorem reliable : Sink.Reliable Unlimited OpenFile.contents where
  write := by
    intro bytes file unlimited
    show ∃ after, file.write bytes = _ ∧ _
    unfold OpenFile.write
    split
    · rename_i nothing
      refine ⟨file, rfl, unlimited, ?_⟩
      rw [ByteArray.size_eq_zero_iff.mp (beq_iff_eq.mp nothing), ByteArray.append_empty]
    · rw [unlimited]
      exact ⟨_, rfl, unlimited, rfl⟩
  flush file unlimited := ⟨file, rfl, unlimited, rfl⟩

end OpenFile

namespace FileSystem

def destination? (files : FileSystem) (path : String) : Option Location :=
  match files.resolve path with
  | .ok (.entry parent name _) => some (name :: parent)
  | _ => none

def isDirectory (files : FileSystem) (location : Location) : Bool :=
  match files.node? location with
  | some .directory => true
  | _ => false

variable {files others : FileSystem} {location : Location}

theorem node?_put_self (node : Node) (files : FileSystem) (named : location ≠ []) :
    (files.put location node).node? location = some node := by
  rw [node?_put location location node files named, if_pos rfl]

theorem node?_put_of_ne {other : Location} (node : Node) (files : FileSystem)
    (named : location ≠ []) (apart : other ≠ location) :
    (files.put location node).node? other = files.node? other := by
  rw [node?_put location other node files named, if_neg apart]

theorem isDirectory_put (contents : ByteArray) (named : location ≠ [])
    (plain : files.isDirectory location = false) (other : Location) :
    (files.put location (.file contents)).isDirectory other = files.isDirectory other := by
  by_cases here : other = location
  · subst here
    rw [plain, isDirectory, node?_put_self _ _ named]
  · rw [isDirectory, isDirectory, node?_put_of_ne _ _ named here]

theorem toOption_enter (files : FileSystem) (start : Location) (name : String) :
    (files.enter start name).toOption =
      if name = "." then some start
      else if name = ".." then some start.tail
      else if nameLimit < name.utf8ByteSize then none
      else if files.isDirectory (name :: start) then some (name :: start)
      else none := by
  unfold enter isDirectory
  split
  · rfl
  · split
    · rfl
    · split
      · rfl
      · split <;> simp_all [Except.toOption]

theorem toOption_walk_congr (same : ∀ other, files.isDirectory other = others.isDirectory other)
    (slashed : Bool) (start : Location) (names : List String) :
    (files.walk slashed start names).toOption = (others.walk slashed start names).toOption := by
  induction names generalizing start with
  | nil => rfl
  | cons name rest ih =>
    cases rest with
    | nil => rfl
    | cons next rest =>
      have entered : (files.enter start name).toOption = (others.enter start name).toOption := by
        rw [toOption_enter, toOption_enter, same]
      unfold walk
      cases first : files.enter start name with
      | error _ =>
        rw [first] at entered
        cases second : others.enter start name with
        | error _ => rfl
        | ok _ => rw [second] at entered; cases entered
      | ok _ =>
        rw [first] at entered
        cases second : others.enter start name with
        | error _ => rw [second] at entered; cases entered
        | ok _ =>
          rw [second] at entered
          cases entered
          exact ih _

theorem toOption_resolve_congr
    (same : ∀ other, files.isDirectory other = others.isDirectory other) (path : String) :
    (files.resolve path).toOption = (others.resolve path).toOption := by
  unfold resolve
  dsimp only
  split
  · rfl
  · split
    · rfl
    · split
      · rfl
      · exact toOption_walk_congr same _ _ _

theorem destination?_eq (files : FileSystem) (path : String) :
    files.destination? path = (files.resolve path).toOption.bind fun
      | .entry parent name _ => some (name :: parent)
      | .directory => none := by
  unfold destination?
  cases files.resolve path with
  | error _ => rfl
  | ok target => cases target <;> rfl

theorem destination?_congr (same : ∀ other, files.isDirectory other = others.isDirectory other)
    (path : String) : files.destination? path = others.destination? path := by
  rw [destination?_eq, destination?_eq, toOption_resolve_congr same]

structure Opened (files : FileSystem) (path : String) (file : OpenFile) : Prop where
  destination : files.destination? path = some file.location
  unchanged : file.files = files
  named : file.location ≠ []
  plain : files.isDirectory file.location = false
  empty : file.contents = ByteArray.empty
  keeps : file.keeps = false → files.node? file.location = some .device

theorem opened_of_create {path : String} {file : OpenFile}
    (created : files.create path = .ok file) : Opened files path file := by
  unfold create at created
  split at created
  · cases created
  · cases created
  · rename_i parent name slashed resolved
    have leads : files.destination? path = some (name :: parent) := by
      rw [destination?, resolved]
    split at created
    · cases created
    · split at created
      · cases created
      · dsimp only at created
        split at created
        · cases created
        · cases created
        · rename_i node _
          cases created
          refine ⟨leads, rfl, List.cons_ne_nil _ _, ?_, rfl, fun _ => node⟩
          rw [isDirectory, node]
        · rename_i plain _ _ _
          cases created
          refine ⟨leads, rfl, List.cons_ne_nil _ _, ?_, rfl, fun discards => nomatch discards⟩
          unfold isDirectory
          split <;> simp_all

variable {path : String} {file final : OpenFile}

theorem close_eq (opened : Opened files path file) (same : final.handle = file.handle) :
    final.close =
      if file.keeps then files.put file.location (.file final.contents) else files := by
  simp only [OpenFile.handle, Prod.mk.injEq] at same
  obtain ⟨unchanged, located, kept⟩ := same
  rw [OpenFile.close, unchanged, located, kept, opened.unchanged]

theorem node?_close (opened : Opened files path file) (same : final.handle = file.handle)
    (regular : files.node? file.location ≠ some .device) :
    final.close.node? file.location = some (.file final.contents) := by
  rw [close_eq opened same]
  cases keeps : file.keeps with
  | true => exact node?_put_self _ _ opened.named
  | false => exact absurd (opened.keeps keeps) regular

theorem node?_close_of_ne (opened : Opened files path file) (same : final.handle = file.handle)
    {other : Location} (apart : other ≠ file.location) :
    final.close.node? other = files.node? other := by
  rw [close_eq opened same]
  split
  · exact node?_put_of_ne _ _ opened.named apart
  · rfl

theorem destination?_close (opened : Opened files path file) (same : final.handle = file.handle)
    (other : String) : final.close.destination? other = files.destination? other := by
  rw [close_eq opened same]
  split
  · exact destination?_congr (isDirectory_put _ opened.named opened.plain) other
  · rfl

/-- Every path leads where it led, and nothing has changed but what one of them leads to. -/
structure Confined (path : String) (before after : FileSystem) : Prop where
  destination (other : String) : after.destination? other = before.destination? other
  node (other : Location) (apart : before.destination? path ≠ some other) :
    after.node? other = before.node? other

theorem Confined.refl (path : String) (files : FileSystem) : Confined path files files :=
  ⟨fun _ => rfl, fun _ _ => rfl⟩

theorem confined_close (opened : Opened files path file) (same : final.handle = file.handle) :
    Confined path files final.close where
  destination := destination?_close opened same
  node other apart := by
    apply node?_close_of_ne opened same
    rintro rfl
    exact apart opened.destination

end FileSystem

end Testbench
