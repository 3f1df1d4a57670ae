import Testbench.Proofs.Sink.Alike
import Testbench.Proofs.Trace.Recording

/-! Recorders over sinks that answer alike go on alike: what a recorder writes depends on what it
was given and on the answers it got, never on the sink itself. -/
namespace Testbench.Recorder

open Sink Trace

variable {σ τ : Type} {related : σ → τ → Prop}

inductive Twins (related : σ → τ → Prop) : Recorder σ → Recorder τ → Prop
  | same (wires : List Wire) (last : List UInt64) (records : Nat) {one : σ} {two : τ}
    (behind : related one two) :
    Twins related ⟨one, wires, last, records⟩ ⟨two, wires, last, records⟩

/-- Two recorders that have been started, or two sinks that have refused the header. -/
inductive Started (related : σ → τ → Prop) :
    Except (IoError × σ) (Recorder σ) → Except (IoError × τ) (Recorder τ) → Prop
  | started {one : Recorder σ} {two : Recorder τ} (twins : Twins related one two) :
    Started related (.ok one) (.ok two)
  | refused (error : IoError) {one : σ} {two : τ} (still : related one two) :
    Started related (.error (error, one)) (.error (error, two))

variable [Sink σ] [Sink τ] {one : Recorder σ} {two : Recorder τ}

theorem start_alike (alike : Alike related) (signals : List Signal) {sink : σ} {sink' : τ}
    (before : related sink sink') : Started related (start signals sink) (start signals sink') := by
  have written := alike.putAll (header signals) before
  unfold start
  generalize putAll (header signals) sink = first at *
  generalize putAll (header signals) sink' = second at *
  cases written with
  | same answer still =>
    cases answer with
    | ok _ => exact .started (.same _ _ _ still)
    | error error => exact .refused error still

theorem putChanges_alike (alike : Alike related) (wires : List Wire) (values last : List UInt64)
    {sink : σ} {sink' : τ} (before : related sink sink') :
    Agree (Agree related) (putChanges wires values last sink)
      (putChanges wires values last sink') := by
  induction wires generalizing values last sink sink' with
  | nil =>
    rw [putChanges_nil_wires, putChanges_nil_wires]
    exact .same _ (.same _ before)
  | cons wire wires ih =>
    cases values with
    | nil =>
      rw [putChanges_nil_values, putChanges_nil_values]
      exact .same _ (.same _ before)
    | cons value values =>
      rw [putChanges_cons, putChanges_cons]
      split
      · have rest := ih values last.tail before
        generalize putChanges wires values last.tail sink = first at *
        generalize putChanges wires values last.tail sink' = second at *
        obtain ⟨answer, still⟩ := rest
        obtain ⟨last, behind⟩ := still
        exact .same _ (.same _ behind)
      · have written := alike.putAll (change wire value) before
        generalize putAll (change wire value) sink = first at *
        generalize putAll (change wire value) sink' = second at *
        obtain @⟨answer, middle, middle', still⟩ := written
        cases answer with
        | error error => exact .same _ (.same _ still)
        | ok _ =>
          have rest := ih values last.tail still
          dsimp only
          generalize putChanges wires values last.tail middle = first at *
          generalize putChanges wires values last.tail middle' = second at *
          obtain ⟨answer, still⟩ := rest
          obtain ⟨last, behind⟩ := still
          exact .same _ (.same _ behind)

theorem record_alike (alike : Alike related) (sample : Sample) (twins : Twins related one two) :
    Agree (Twins related) (one.record sample) (two.record sample) := by
  obtain @⟨wires, last, records, sink, sink', behind⟩ := twins
  cases sample with
  | initial frame =>
    unfold record recordInitial
    dsimp only
    have begun := alike.putAll (timestamp 0 ++ baselineStart) behind
    generalize putAll (timestamp 0 ++ baselineStart) sink = first at *
    generalize putAll (timestamp 0 ++ baselineStart) sink' = second at *
    obtain @⟨answer, middle, middle', still⟩ := begun
    cases answer with
    | error error => exact .same _ (.same _ _ _ still)
    | ok _ =>
      have changed := putChanges_alike alike wires frame.values.toList [] still
      dsimp only
      generalize putChanges wires frame.values.toList [] middle = first at *
      generalize putChanges wires frame.values.toList [] middle' = second at *
      obtain ⟨answer, still⟩ := changed
      obtain @⟨last, middle, middle', still⟩ := still
      cases answer with
      | error error => exact .same _ (.same _ _ _ still)
      | ok _ =>
        have ended := alike.putAll baselineEnd still
        dsimp only
        generalize putAll baselineEnd middle = first at *
        generalize putAll baselineEnd middle' = second at *
        obtain ⟨answer, still⟩ := ended
        cases answer <;> exact .same _ (.same _ _ _ still)
  | cycle number frame =>
    unfold record recordCycle
    dsimp only
    have begun := alike.putAll (timestamp number) behind
    generalize putAll (timestamp number) sink = first at *
    generalize putAll (timestamp number) sink' = second at *
    obtain @⟨answer, middle, middle', still⟩ := begun
    cases answer with
    | error error => exact .same _ (.same _ _ _ still)
    | ok _ =>
      have changed := putChanges_alike alike wires frame.values.toList last still
      dsimp only
      generalize putChanges wires frame.values.toList last middle = first at *
      generalize putChanges wires frame.values.toList last middle' = second at *
      obtain ⟨answer, still⟩ := changed
      obtain ⟨last, still⟩ := still
      cases answer <;> exact .same _ (.same _ _ _ still)

theorem close_alike (alike : Alike related) (twins : Twins related one two) :
    Agree related one.close two.close := by
  obtain @⟨wires, last, records, sink, sink', behind⟩ := twins
  have flushed := alike.flush behind
  unfold close
  dsimp only
  generalize Sink.flush sink = first at *
  generalize Sink.flush sink' = second at *
  obtain ⟨answer, still⟩ := flushed
  cases answer <;> exact .same _ still

end Testbench.Recorder
