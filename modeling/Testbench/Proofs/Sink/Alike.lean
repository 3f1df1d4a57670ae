import Testbench.Sink.Device
import Testbench.Sink.Buffered

/-! Sinks that answer alike. Two sinks, perhaps of different kinds, are related as long as they give
the same answer to whatever is written to both. What was in them before may differ; what they are
given is taken by both or refused by both, so nobody who writes to one of them can tell which. -/
namespace Testbench

namespace Sink

/-- The same answer from two sinks that are still related behind it. -/
inductive Agree {α : Type u} {σ : Type v} {τ : Type w} (related : σ → τ → Prop) :
    α × σ → α × τ → Prop
  | same (answer : α) {one : σ} {two : τ} (still : related one two) :
    Agree related (answer, one) (answer, two)

variable {σ τ : Type} [Sink σ] [Sink τ] {related : σ → τ → Prop} {one : σ} {two : τ}

structure Alike (related : σ → τ → Prop) : Prop where
  write (bytes : ByteArray) {one : σ} {two : τ} (start : related one two) :
    Agree related (Sink.write bytes one) (Sink.write bytes two)
  flush {one : σ} {two : τ} (start : related one two) :
    Agree related (Sink.flush one) (Sink.flush two)

theorem alike_eq : Alike (Eq : σ → σ → Prop) where
  write _ _ _ start := start ▸ .same _ rfl
  flush start := start ▸ .same _ rfl

theorem Alike.put (alike : Alike related) (bytes : ByteArray) (start : related one two) :
    Agree related (Sink.put bytes one) (Sink.put bytes two) := by
  have written := alike.write bytes start
  unfold Sink.put
  generalize Sink.write bytes one = first at *
  generalize Sink.write bytes two = second at *
  cases written with
  | same answer still => cases answer <;> exact .same _ still

theorem Alike.putAll (alike : Alike related) (pieces : List String) (start : related one two) :
    Agree related (Sink.putAll pieces one) (Sink.putAll pieces two) := by
  induction pieces generalizing one two with
  | nil => exact .same _ start
  | cons piece rest ih =>
    have written := alike.put piece.toUTF8 start
    unfold Sink.putAll
    generalize Sink.put piece.toUTF8 one = first at *
    generalize Sink.put piece.toUTF8 two = second at *
    cases written with
    | same answer still =>
      cases answer with
      | ok _ => exact ih still
      | error _ => exact .same _ still

inductive Act where
  | write (bytes : ByteArray)
  | flush

def act : Act → σ → σ
  | .write bytes, sink => (Sink.write bytes sink).2
  | .flush, sink => (Sink.flush sink).2

def perform (acts : List Act) (sink : σ) : σ :=
  acts.foldl (fun sink next => act next sink) sink

theorem perform_append (first second : List Act) (sink : σ) :
    perform (first ++ second) sink = perform second (perform first sink) :=
  List.foldl_append

theorem perform_concat (acts : List Act) (next : Act) (sink : σ) :
    perform (acts ++ [next]) sink = act next (perform acts sink) := by
  simp [perform]

/-- Whoever cannot tell two sinks apart has done the same to both. -/
theorem Alike.performed (alike : Alike related) (out : σ) (out' : τ) :
    Alike fun one two =>
      related one two ∧ ∃ acts, one = perform acts out ∧ two = perform acts out' where
  write bytes one two start := by
    obtain ⟨start, acts, rfl, rfl⟩ := start
    have written := alike.write bytes start
    generalize taken : Sink.write bytes (perform acts out) = first at *
    generalize taken' : Sink.write bytes (perform acts out') = second at *
    cases written with
    | same answer still =>
      refine .same _ ⟨still, acts ++ [.write bytes], ?_, ?_⟩ <;> rw [perform_concat]
      · exact (congrArg Prod.snd taken).symm
      · exact (congrArg Prod.snd taken').symm
  flush start := by
    obtain ⟨start, acts, rfl, rfl⟩ := start
    have flushed := alike.flush start
    generalize taken : Sink.flush (perform acts out) = first at *
    generalize taken' : Sink.flush (perform acts out') = second at *
    cases flushed with
    | same answer still =>
      refine .same _ ⟨still, acts ++ [.flush], ?_, ?_⟩ <;> rw [perform_concat]
      · exact (congrArg Prod.snd taken).symm
      · exact (congrArg Prod.snd taken').symm

end Sink

namespace Buffered

open Sink

variable {σ τ : Type} {related : σ → τ → Prop}

inductive Twins (related : σ → τ → Prop) : Buffered σ → Buffered τ → Prop
  | same (pending : ByteArray) {one : σ} {two : τ} (behind : related one two) :
    Twins related ⟨pending, one⟩ ⟨pending, two⟩

variable [Sink σ] [Sink τ] {one : Buffered σ} {two : Buffered τ}

theorem spill_alike (alike : Alike related) (twins : Twins related one two) :
    Agree (Twins related) one.spill two.spill := by
  obtain @⟨pending, sink, sink', behind⟩ := twins
  have written := alike.write pending behind
  unfold spill
  dsimp only
  split
  · exact .same _ (.same pending behind)
  · generalize Sink.write pending sink = first at *
    generalize Sink.write pending sink' = second at *
    cases written with
    | same answer still => cases answer <;> exact .same _ (.same _ still)

theorem store_alike (alike : Alike related) (bytes : ByteArray) (twins : Twins related one two) :
    Agree (Twins related) (one.store bytes) (two.store bytes) := by
  obtain @⟨pending, sink, sink', behind⟩ := twins
  have written := alike.write bytes behind
  unfold store
  split
  · exact .same _ (.same _ behind)
  · dsimp only
    generalize Sink.write bytes sink = first at *
    generalize Sink.write bytes sink' = second at *
    cases written with
    | same answer still => exact .same _ (.same _ still)

theorem alike (behind : Alike related) : Alike (Twins related) where
  write bytes one two twins := by
    show Agree (Twins related) (one.write bytes) (two.write bytes)
    have pending : one.pending = two.pending := by
      cases twins
      rfl
    have spilled := spill_alike behind twins
    unfold Buffered.write
    rw [pending]
    split
    · exact store_alike behind bytes twins
    · generalize one.spill = first at *
      generalize two.spill = second at *
      cases spilled with
      | same answer still =>
        cases answer with
        | ok _ => exact store_alike behind bytes still
        | error _ => exact .same _ still
  flush {one two} twins := by
    show Agree (Twins related) one.flush two.flush
    have spilled := spill_alike behind twins
    unfold Buffered.flush
    generalize one.spill = first at *
    generalize two.spill = second at *
    cases spilled with
    | same answer still =>
      cases answer with
      | ok _ =>
        obtain @⟨pending, sink, sink', rest⟩ := still
        have flushed := behind.flush rest
        dsimp only
        generalize Sink.flush sink = first at *
        generalize Sink.flush sink' = second at *
        cases flushed with
        | same answer still => exact .same _ (.same _ still)
      | error _ => exact .same _ still

theorem release_alike (alike : Alike related) (twins : Twins related one two) :
    related one.release two.release := by
  have spilled := spill_alike alike twins
  unfold release
  generalize one.spill = first at *
  generalize two.spill = second at *
  cases spilled with
  | same answer still =>
    cases still with
    | same _ behind => exact behind

end Buffered

namespace Device

def Taken (before before' : ByteArray) (one two : Device) : Prop :=
  ∃ text, one.contents = before ++ text ∧
    two = { one with contents := before' ++ text }

theorem alike_taken (before before' : ByteArray) : Sink.Alike (Taken before before') where
  write bytes one two start := by
    obtain ⟨text, contents, rfl⟩ := start
    show Sink.Agree _ (one.write bytes) (Device.write bytes _)
    unfold Device.write
    dsimp only
    split
    · refine .same _ ⟨text ++ bytes, ?_, ?_⟩ <;> simp [contents, ByteArray.append_assoc]
    · rename_i room _
      split
      · refine .same _ ⟨text ++ bytes, ?_, ?_⟩ <;> simp [contents, ByteArray.append_assoc]
      · refine .same _ ⟨text ++ bytes.extract 0 room, ?_, ?_⟩ <;>
          simp [contents, ByteArray.append_assoc]
  flush start := by
    obtain ⟨text, contents, rfl⟩ := start
    exact .same _ ⟨text, contents, rfl⟩

end Device

end Testbench
