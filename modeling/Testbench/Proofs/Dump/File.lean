import Testbench.Memory.Dump
import Testbench.Proofs.FileSystem.Destination

/-! A dump into a file, however it ends, changes that file only. -/
namespace Testbench

namespace Dump

variable {σ : Type} [Sink σ] {α : Type u} {part : σ → α}

theorem putWord_preserves (preserves : Sink.Preserves part) (word : UInt32) (sink : σ) :
    part (putWord word sink).2 = part sink := by
  have same := preserves.put (wordBytes word) sink
  unfold putWord
  split <;> rename_i h <;> rw [h] at same
  · exact (preserves.flush _).trans same
  · exact same

theorem putWords_preserves (preserves : Sink.Preserves part) (words : List UInt32)
    (written : Nat) (sink : σ) : part (putWords words written sink).2.2 = part sink := by
  induction words generalizing written sink with
  | nil => rfl
  | cons word rest ih =>
    have same := putWord_preserves preserves word sink
    unfold putWords
    split <;> rename_i h <;> rw [h] at same
    · exact (ih _ _).trans same
    · exact same

end Dump

namespace Image

theorem dumpTo_preserves {σ : Type} [Sink σ] {α : Type u} {part : σ → α}
    (preserves : Sink.Preserves part) (image : Image) (start length : UInt64) (sink : σ) :
    part (image.dumpTo start length sink).2.1 = part sink := by
  have same := Dump.putWords_preserves preserves
    (image.slice (Dump.Range.of image start length).first (Dump.Range.of image start length).stop)
    0 sink
  unfold dumpTo
  dsimp only
  split <;> rename_i h <;> rw [h] at same <;> exact same

theorem node?_dump_of_ne (image : Image) {request : Dump.Request} {files : FileSystem}
    {location : Location} (apart : files.destination? request.path ≠ some location) :
    (image.dump request files).2.1.node? location = files.node? location := by
  unfold dump
  split
  · rfl
  · rename_i file created
    have opened := FileSystem.opened_of_create created
    have same := dumpTo_preserves OpenFile.preserves_handle image request.start request.length file
    have other : location ≠ file.location := by
      rintro rfl
      exact apart opened.destination
    exact FileSystem.node?_close_of_ne opened same other

end Image

end Testbench
