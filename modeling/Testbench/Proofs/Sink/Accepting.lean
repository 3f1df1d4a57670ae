import Testbench.Sink.Device

/-! Sinks that never refuse a write, or neither a write nor a flush. Which states of a sink
are such, and what it has taken so far, are left to the sink; a text written to one ends up
behind its contents. -/
namespace Testbench

namespace Sink

variable {σ : Type}

structure Accepting [Sink σ] (accepts : σ → Prop) (contents : σ → ByteArray) : Prop where
  write (bytes : ByteArray) (sink : σ) (ready : accepts sink) :
    ∃ after, Sink.write bytes sink = (.ok (), after) ∧ accepts after ∧
      contents after = contents sink ++ bytes

structure Reliable [Sink σ] (accepts : σ → Prop) (contents : σ → ByteArray) : Prop
    extends Accepting accepts contents where
  flush (sink : σ) (ready : accepts sink) :
    ∃ after, Sink.flush sink = (.ok (), after) ∧ accepts after ∧ contents after = contents sink

/-- The sink has taken a text and is ready for more. -/
structure Took (accepts : σ → Prop) (contents : σ → ByteArray) (text : List Char)
    (sink after : σ) : Prop where
  ready : accepts after
  contents_eq : contents after = contents sink ++ text.utf8Encode

variable {accepts : σ → Prop} {contents : σ → ByteArray}

theorem Took.nothing {sink : σ} (ready : accepts sink) : Took accepts contents [] sink sink :=
  ⟨ready, by simp⟩

theorem Took.append {first second : List Char} {sink middle after : σ}
    (one : Took accepts contents first sink middle)
    (two : Took accepts contents second middle after) :
    Took accepts contents (first ++ second) sink after := by
  refine ⟨two.ready, ?_⟩
  rw [two.contents_eq, one.contents_eq, List.utf8Encode_append, ByteArray.append_assoc]

def characters (pieces : List String) : List Char :=
  pieces.flatMap String.toList

@[simp] theorem characters_nil : characters [] = [] :=
  rfl

@[simp] theorem characters_cons (piece : String) (rest : List String) :
    characters (piece :: rest) = piece.toList ++ characters rest :=
  rfl

@[simp] theorem characters_append (first second : List String) :
    characters (first ++ second) = characters first ++ characters second :=
  List.flatMap_append

theorem Accepting.put [Sink σ] (accepting : Accepting accepts contents) (piece : String)
    {sink : σ} (ready : accepts sink) :
    ∃ after, Sink.put piece.toUTF8 sink = (.ok (), after) ∧
      Took accepts contents piece.toList sink after := by
  obtain ⟨after, written, ready, grown⟩ := accepting.write piece.toUTF8 sink ready
  refine ⟨after, ?_, ready, ?_⟩
  · rw [Sink.put, written]
  · rw [grown, ← String.toByteArray_ofList, String.ofList_toList]
    rfl

theorem Accepting.putAll [Sink σ] (accepting : Accepting accepts contents)
    (pieces : List String) {sink : σ} (ready : accepts sink) :
    ∃ after, Sink.putAll pieces sink = (.ok (), after) ∧
      Took accepts contents (characters pieces) sink after := by
  induction pieces generalizing sink with
  | nil => exact ⟨sink, rfl, .nothing ready⟩
  | cons piece rest ih =>
    obtain ⟨middle, first, one⟩ := accepting.put piece ready
    obtain ⟨after, others, two⟩ := ih one.ready
    refine ⟨after, ?_, one.append two⟩
    rw [Sink.putAll, first]
    exact others

end Sink

theorem Device.accepting_of_unlimited :
    Sink.Accepting (fun device : Device => device.room = none) Device.contents where
  write bytes device unlimited := by
    refine ⟨{ device with contents := device.contents ++ bytes }, ?_, unlimited, rfl⟩
    show device.write bytes = _
    rw [Device.write, unlimited]

theorem Device.reliable_of_unlimited :
    Sink.Reliable (fun device : Device => device.room = none ∧ device.refusesFlush = false)
      Device.contents where
  write bytes device ready := by
    obtain ⟨after, written, unlimited, grown⟩ :=
      Device.accepting_of_unlimited.write bytes device ready.1
    refine ⟨after, written, ⟨unlimited, ?_⟩, grown⟩
    have taken : device.write bytes = (.ok (), after) := written
    rw [Device.write, ready.1] at taken
    rw [← (Prod.mk.inj taken).2]
    exact ready.2
  flush device ready := by
    refine ⟨device, ?_, ready, rfl⟩
    show device.flush = _
    rw [Device.flush, ready.2, if_neg Bool.false_ne_true]

end Testbench
