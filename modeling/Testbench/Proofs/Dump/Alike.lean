import Testbench.Memory.Dump
import Testbench.Proofs.FileSystem.Storage

/-! The same dump into two sinks that answer alike, and into two files on alike storage: the same
report, and the same bytes behind it. -/
namespace Testbench

open Sink

namespace Dump

variable {σ τ : Type} [Sink σ] [Sink τ] {related : σ → τ → Prop} {one : σ} {two : τ}

theorem putWord_alike (alike : Alike related) (word : UInt32) (start : related one two) :
    Agree related (putWord word one) (putWord word two) := by
  have written := alike.put (wordBytes word) start
  unfold putWord
  generalize Sink.put (wordBytes word) one = first at *
  generalize Sink.put (wordBytes word) two = second at *
  obtain ⟨answer, still⟩ := written
  cases answer with
  | ok _ => exact alike.flush still
  | error _ => exact .same _ still

theorem putWords_alike (alike : Alike related) (words : List UInt32) (written : Nat)
    (start : related one two) :
    Agree (Agree related) (putWords words written one) (putWords words written two) := by
  induction words generalizing written one two with
  | nil => exact .same _ (.same _ start)
  | cons word rest ih =>
    have put := putWord_alike alike word start
    unfold putWords
    generalize putWord word one = first at *
    generalize putWord word two = second at *
    obtain ⟨answer, still⟩ := put
    cases answer with
    | ok _ => exact ih _ still
    | error _ => exact .same _ (.same _ still)

end Dump

namespace Image

theorem dumpTo_alike {σ τ : Type} [Sink σ] [Sink τ] {related : σ → τ → Prop} {one : σ} {two : τ}
    (alike : Alike related) (image : Image) (start length : UInt64) (before : related one two) :
    (image.dumpTo start length one).1 = (image.dumpTo start length two).1 ∧
      related (image.dumpTo start length one).2.1 (image.dumpTo start length two).2.1 := by
  let range := Dump.Range.of image start length
  have words := Dump.putWords_alike alike (image.slice range.first range.stop) 0 before
  unfold dumpTo
  dsimp only
  generalize Dump.putWords (image.slice range.first range.stop) 0 one = first at *
  generalize Dump.putWords (image.slice range.first range.stop) 0 two = second at *
  obtain ⟨written, still⟩ := words
  obtain ⟨trouble, still⟩ := still
  cases trouble <;> exact ⟨rfl, still⟩

theorem dump_alike (image : Image) {request : Dump.Request} {paths : List String}
    {files others left left' : FileSystem} (step : FileSystem.InStep paths files others left left')
    (alike : files.answers request.path = others.answers request.path) :
    (image.dump request left).1 = (image.dump request left').1 ∧
      FileSystem.InStep (paths ++ [request.path]) files others (image.dump request left).2.1
        (image.dump request left').2.1 := by
  have answers := step.answers alike
  unfold dump
  cases created : left.create request.path with
  | error _ =>
    obtain ⟨_, created'⟩ := FileSystem.error_of_answers answers created
    rw [created']
    exact ⟨rfl, step.refused created⟩
  | ok file =>
    obtain ⟨file', created', alike⟩ := FileSystem.created_of_answers answers created
    obtain ⟨report, still⟩ := image.dumpTo_alike alike request.start request.length
      (FileSystem.twins_of_created created created')
    rw [created']
    exact ⟨report, step.close created created' still⟩

end Image

end Testbench
