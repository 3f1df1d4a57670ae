import Testbench.Proofs.Sink.Accepting
import Testbench.Sink.Buffered

/-! Sinks that may refuse what they like but lose nothing they have taken: after a write that
succeeded, its bytes stand behind everything that came before. A buffer in front of such a
sink is one too, if its pending bytes are counted in. -/
namespace Testbench

namespace Sink

variable {σ : Type}

/-- In the states of the invariant, success means that everything was taken. -/
structure Faithful [Sink σ] (invariant : σ → Prop) (contents : σ → ByteArray) : Prop where
  write {bytes : ByteArray} {sink after : σ} (holds : invariant sink)
    (written : Sink.write bytes sink = (.ok (), after)) :
    invariant after ∧ contents after = contents sink ++ bytes
  flush {sink after : σ} (holds : invariant sink) (flushed : Sink.flush sink = (.ok (), after)) :
    invariant after ∧ contents after = contents sink

/-- A part of a sink that no write and no flush touches, whether it succeeds or not. -/
structure Preserves [Sink σ] {α : Type u} (part : σ → α) : Prop where
  write (bytes : ByteArray) (sink : σ) : part (Sink.write bytes sink).2 = part sink
  flush (sink : σ) : part (Sink.flush sink).2 = part sink

variable [Sink σ] {invariant : σ → Prop} {contents : σ → ByteArray}

theorem Faithful.put (faithful : Faithful invariant contents) {piece : String} {sink after : σ}
    (holds : invariant sink) (written : Sink.put piece.toUTF8 sink = (.ok (), after)) :
    Took invariant contents piece.toList sink after := by
  unfold Sink.put at written
  split at written
  · rename_i taken
    cases written
    obtain ⟨still, grown⟩ := faithful.write holds taken
    refine ⟨still, ?_⟩
    rw [grown, ← String.toByteArray_ofList, String.ofList_toList]
    rfl
  · cases written

theorem Faithful.putAll (faithful : Faithful invariant contents) {pieces : List String}
    {sink after : σ} (holds : invariant sink)
    (written : Sink.putAll pieces sink = (.ok (), after)) :
    Took invariant contents (characters pieces) sink after := by
  induction pieces generalizing sink with
  | nil =>
    cases written
    exact .nothing holds
  | cons piece rest ih =>
    unfold Sink.putAll at written
    split at written
    · rename_i first
      have one := faithful.put holds first
      exact one.append (ih one.ready written)
    · cases written

theorem Reliable.faithful {accepts : σ → Prop} (reliable : Reliable accepts contents) :
    Faithful accepts contents where
  write ready written := by
    obtain ⟨after, taken, still, grown⟩ := reliable.write _ _ ready
    rw [written] at taken
    cases taken
    exact ⟨still, grown⟩
  flush ready flushed := by
    obtain ⟨after, taken, still, same⟩ := reliable.flush _ ready
    rw [flushed] at taken
    cases taken
    exact ⟨still, same⟩

theorem Preserves.put {α : Type u} {part : σ → α} (preserves : Preserves part)
    (bytes : ByteArray) (sink : σ) : part (Sink.put bytes sink).2 = part sink := by
  have same := preserves.write bytes sink
  unfold Sink.put
  split <;> rename_i h <;> rwa [h] at same

theorem Preserves.putAll {α : Type u} {part : σ → α} (preserves : Preserves part)
    (pieces : List String) (sink : σ) : part (Sink.putAll pieces sink).2 = part sink := by
  induction pieces generalizing sink with
  | nil => rfl
  | cons piece rest ih =>
    have same := preserves.put piece.toUTF8 sink
    unfold Sink.putAll
    split <;> rename_i h <;> rw [h] at same
    · exact (ih _).trans same
    · exact same

end Sink

namespace Buffered

open Sink

variable {σ : Type} [Sink σ] {invariant : σ → Prop} {contents : σ → ByteArray}

/-- What a buffer has taken: the contents of the sink behind it and what is pending. -/
def taken (contents : σ → ByteArray) (buffer : Buffered σ) : ByteArray :=
  contents buffer.sink ++ buffer.pending

theorem spill_faithful (faithful : Faithful invariant contents) {buffer after : Buffered σ}
    (holds : invariant buffer.sink) (spilled : buffer.spill = (.ok (), after)) :
    invariant after.sink ∧ contents after.sink = buffer.taken contents ∧
      after.pending = ByteArray.empty := by
  unfold spill at spilled
  split at spilled
  · rename_i nothing
    cases spilled
    have empty : buffer.pending = ByteArray.empty :=
      ByteArray.size_eq_zero_iff.mp (beq_iff_eq.mp nothing)
    refine ⟨holds, ?_, empty⟩
    rw [taken, empty, ByteArray.append_empty]
  · obtain ⟨pending, sink⟩ := buffer
    dsimp only at spilled
    split at spilled
    · rename_i written
      cases spilled
      obtain ⟨still, grown⟩ := faithful.write holds written
      exact ⟨still, grown, rfl⟩
    · cases spilled

theorem store_faithful (faithful : Faithful invariant contents) {bytes : ByteArray}
    {buffer after : Buffered σ} (holds : invariant buffer.sink)
    (room : capacity ≤ bytes.size → buffer.pending = ByteArray.empty)
    (stored : buffer.store bytes = (.ok (), after)) :
    invariant after.sink ∧ after.taken contents = buffer.taken contents ++ bytes := by
  unfold store at stored
  split at stored
  · cases stored
    exact ⟨holds, ByteArray.append_assoc.symm⟩
  · rename_i large
    have empty := room (Nat.le_of_not_lt large)
    cases written : Sink.write bytes buffer.sink with
    | mk result sink =>
      rw [written] at stored
      cases stored
      obtain ⟨still, grown⟩ := faithful.write holds written
      refine ⟨still, ?_⟩
      rw [taken, taken, grown, empty, ByteArray.append_empty, ByteArray.append_empty]

theorem flush_faithful (faithful : Faithful invariant contents) {buffer after : Buffered σ}
    (holds : invariant buffer.sink) (flushed : buffer.flush = (.ok (), after)) :
    invariant after.sink ∧ contents after.sink = buffer.taken contents ∧
      after.pending = ByteArray.empty := by
  unfold Buffered.flush at flushed
  split at flushed
  · rename_i spilledBuffer spilled
    obtain ⟨still, all, empty⟩ := spill_faithful faithful holds spilled
    cases settled : Sink.flush spilledBuffer.sink with
    | mk result sink =>
      rw [settled] at flushed
      cases flushed
      obtain ⟨kept, same⟩ := faithful.flush still settled
      exact ⟨kept, same.trans all, empty⟩
  · cases flushed

theorem faithful (behind : Faithful invariant contents) :
    Faithful (fun buffer : Buffered σ => invariant buffer.sink) (taken contents) where
  write := by
    intro bytes buffer after holds written
    have unfolded : buffer.write bytes = (.ok (), after) := written
    unfold Buffered.write at unfolded
    split at unfolded
    · -- A write that fits is large only when nothing is pending.
      rename_i fits
      refine store_faithful behind holds (fun large => ?_) unfolded
      apply ByteArray.size_eq_zero_iff.mp
      omega
    · split at unfolded
      · rename_i spilled
        obtain ⟨still, all, empty⟩ := spill_faithful behind holds spilled
        obtain ⟨kept, grown⟩ := store_faithful behind still (fun _ => empty) unfolded
        refine ⟨kept, ?_⟩
        rw [grown, taken, all, empty, ByteArray.append_empty]
      · cases unfolded
  flush := by
    intro buffer after holds flushed
    obtain ⟨still, all, empty⟩ := flush_faithful behind holds flushed
    refine ⟨still, ?_⟩
    rw [taken, all, empty, ByteArray.append_empty]

variable {accepts : σ → Prop}

theorem spill_reliable (behind : Reliable accepts contents) {buffer : Buffered σ}
    (ready : accepts buffer.sink) : ∃ after, buffer.spill = (.ok (), after) := by
  obtain ⟨after, written, -⟩ := behind.write buffer.pending buffer.sink ready
  unfold spill
  dsimp only
  rw [written]
  split <;> exact ⟨_, rfl⟩

theorem store_reliable (behind : Reliable accepts contents) (bytes : ByteArray)
    {buffer : Buffered σ} (ready : accepts buffer.sink) :
    ∃ after, buffer.store bytes = (.ok (), after) := by
  obtain ⟨after, written, -⟩ := behind.write bytes buffer.sink ready
  unfold store
  rw [written]
  split <;> exact ⟨_, rfl⟩

theorem write_reliable (behind : Reliable accepts contents) (bytes : ByteArray)
    {buffer : Buffered σ} (ready : accepts buffer.sink) :
    ∃ after, buffer.write bytes = (.ok (), after) := by
  unfold Buffered.write
  split
  · exact store_reliable behind bytes ready
  · obtain ⟨spilled, emptied⟩ := spill_reliable behind ready
    rw [emptied]
    exact store_reliable behind bytes (spill_faithful behind.faithful ready emptied).1

theorem flush_reliable (behind : Reliable accepts contents) {buffer : Buffered σ}
    (ready : accepts buffer.sink) : ∃ after, buffer.flush = (.ok (), after) := by
  obtain ⟨spilled, emptied⟩ := spill_reliable behind ready
  obtain ⟨after, flushed, -⟩ :=
    behind.flush spilled.sink (spill_faithful behind.faithful ready emptied).1
  unfold Buffered.flush
  rw [emptied]
  dsimp only
  rw [flushed]
  exact ⟨_, rfl⟩

theorem reliable (behind : Reliable accepts contents) :
    Reliable (fun buffer : Buffered σ => accepts buffer.sink) (taken contents) where
  write bytes buffer ready := by
    obtain ⟨after, written⟩ := write_reliable behind bytes ready
    exact ⟨after, written, (faithful behind.faithful).write ready written⟩
  flush buffer ready := by
    obtain ⟨after, flushed⟩ := flush_reliable behind ready
    exact ⟨after, flushed, (faithful behind.faithful).flush ready flushed⟩

variable {α : Type u} {part : σ → α}

theorem spill_preserves (behind : Preserves part) (buffer : Buffered σ) :
    part buffer.spill.2.sink = part buffer.sink := by
  have same := behind.write buffer.pending buffer.sink
  unfold spill
  split
  · rfl
  · dsimp only
    split <;> rename_i h <;> rwa [h] at same

theorem store_preserves (behind : Preserves part) (bytes : ByteArray) (buffer : Buffered σ) :
    part (buffer.store bytes).2.sink = part buffer.sink := by
  unfold store
  split
  · rfl
  · exact behind.write bytes buffer.sink

theorem preserves (behind : Preserves part) :
    Preserves (fun buffer : Buffered σ => part buffer.sink) where
  write bytes buffer := by
    show part (buffer.write bytes).2.sink = part buffer.sink
    have spilled := spill_preserves behind buffer
    unfold Buffered.write
    split
    · exact store_preserves behind bytes buffer
    · split <;> rename_i h <;> rw [h] at spilled
      · exact (store_preserves behind bytes _).trans spilled
      · exact spilled
  flush buffer := by
    show part buffer.flush.2.sink = part buffer.sink
    have spilled := spill_preserves behind buffer
    unfold Buffered.flush
    split <;> rename_i h <;> rw [h] at spilled
    · exact (behind.flush _).trans spilled
    · exact spilled

theorem release_preserves (behind : Preserves part) (buffer : Buffered σ) :
    part buffer.release = part buffer.sink :=
  spill_preserves behind buffer

theorem release_of_empty {buffer : Buffered σ} (empty : buffer.pending = ByteArray.empty) :
    buffer.release = buffer.sink := by
  unfold release spill
  rw [empty]
  rfl

end Buffered

end Testbench
