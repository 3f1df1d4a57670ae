import Testbench.Proofs.Memory.Coverage
import Testbench.Proofs.Run.Lockstep

/-! Runs without a past. Initialising a bundled design forgets all of it but the memory, and an
image that covers the memory forgets that, too. What is left of earlier runs can show in nothing a
run does, so a bench that is run again does what it did the first time. -/
namespace Testbench

namespace Bundled

variable (kind : Bundled)

theorem withMemory_init (image : Image) (state : kind.State) :
    kind.design.withMemory image (kind.design.init state) = kind.ofMemory image := by
  cases kind <;> rfl

theorem memory_init (state : kind.State) :
    kind.design.memory (kind.design.init state) = kind.design.memory state := by
  cases kind <;> rfl

theorem memory_stepLow (reset : Bool) (state : kind.State) :
    kind.design.memory (kind.design.stepLow reset state) = kind.design.memory state := by
  cases kind with
  | accumulator =>
    show (Accumulator.stepLow reset state).memory = state.memory
    unfold Accumulator.stepLow
    split_ifs <;> rfl
  | counter =>
    show (Counter.stepLow reset state).memory = state.memory
    unfold Counter.stepLow
    split_ifs <;> rfl

theorem depth_stepHigh (reset : Bool) (state : kind.State) :
    (kind.design.memory (kind.design.stepHigh reset state)).depth =
      (kind.design.memory state).depth := by
  cases kind with
  | accumulator =>
    show (Accumulator.stepHigh reset state).memory.depth = state.memory.depth
    unfold Accumulator.stepHigh
    split_ifs <;> simp
  | counter =>
    show (Counter.stepHigh reset state).memory.depth = state.memory.depth
    unfold Counter.stepHigh
    split_ifs <;> simp

theorem depth_tick (reset : Bool) (state : kind.State) :
    (kind.design.memory (kind.design.tick reset state)).depth =
      (kind.design.memory state).depth := by
  rw [Design.tick, depth_stepHigh, memory_stepLow]

theorem depth_iterate_tick (cycles : Nat) (state : kind.State) :
    (kind.design.memory ((kind.design.tick false)^[cycles] state)).depth =
      (kind.design.memory state).depth := by
  induction cycles generalizing state with
  | zero => rfl
  | succ cycles ih => rw [Function.iterate_succ_apply, ih, depth_tick]

end Bundled

namespace Bench

variable {kind : Bundled} {config : Config} {path text : String} {state state' : kind.State}
  (phase phase' : Phase) {files others : FileSystem}

theorem loaded_of_covers (image : config.initialMemory = some path)
    (covers : HexText.Covers (kind.design.memory state).depth text)
    (depth : (kind.design.memory state').depth = (kind.design.memory state).depth)
    (read : files.readText path = .ok text) (read' : others.readText path = .ok text) :
    ∃ memory, memory.depth = (kind.design.memory state).depth ∧
      (Bench.mk kind.design config state phase).loaded files = (.ok (), kind.ofMemory memory) ∧
      (Bench.mk kind.design config state' phase').loaded others =
        (.ok (), kind.ofMemory memory) := by
  obtain ⟨count, filled, stored, stored'⟩ := covers.parseHex depth
  refine ⟨filled, ?_, ?_, ?_⟩
  · exact congrArg (fun parsed => parsed.2.depth) stored ▸ Image.depth_parseHex _ text
  · simp only [loaded, image, Image.load, kind.memory_init, read, stored, kind.withMemory_init]
    rfl
  · simp only [loaded, image, Image.load, kind.memory_init, read', stored', kind.withMemory_init]
    rfl

variable {ω ω' : Type} [Sink ω] [Sink ω']

theorem run_alike {related : ω → ω' → Prop} (alike : Sink.Alike related) {out : ω} {out' : ω'}
    (image : config.initialMemory = some path)
    (covers : HexText.Covers (kind.design.memory state).depth text)
    (depth : (kind.design.memory state').depth = (kind.design.memory state).depth)
    (read : files.readText path = .ok text) (read' : others.readText path = .ok text)
    (start : related out out')
    (answers : ∀ written ∈ config.outputs, files.answers written = others.answers written) :
    let first := (Bench.mk kind.design config state phase).run files out
    let second := (Bench.mk kind.design config state' phase').run others out'
    (∃ summary, first.result = .ok summary ∧ second.result = .ok summary) ∧
      related first.out second.out ∧ first.bench.state = second.bench.state ∧
      (kind.design.memory first.bench.state).depth = (kind.design.memory state).depth ∧
      FileSystem.InStep config.outputs files others first.files second.files := by
  intro first second
  let design := kind.design
  obtain ⟨memory, size, loads, loads'⟩ :=
    loaded_of_covers phase phase' image covers depth read read'
  obtain ⟨result, reached, left, written⟩ :=
    (Bench.mk design config state phase).run_account out loads
  obtain ⟨result', reached', left', written'⟩ :=
    (Bench.mk design config state' phase').run_account out' loads'
  let loaded := kind.ofMemory memory
  let cycles := design.cyclesWithin config.maxCycles.toNat (design.tick true loaded)
  let halted := design.haltsWithin config.maxCycles.toNat (design.tick true loaded)
  obtain ⟨summary, final, printed, step⟩ :=
    design.account_alike config loaded cycles halted alike start answers
  refine ⟨⟨_, result, result'.trans (congrArg _ summary.symm)⟩, ?_, ?_, ?_, ?_⟩
  · rw [written, written']
    exact printed
  · exact reached.trans (final.trans reached'.symm)
  · rw [show first.bench.state = _ from reached]
    show (design.memory ((design.tick false)^[cycles] (design.tick true loaded))).depth = _
    rw [kind.depth_iterate_tick, kind.depth_tick, ← size]
    cases kind <;> rfl
  · rw [show first.files = _ from left, show second.files = _ from left']
    exact step

omit [Sink ω'] in
/-- A bench that is run again and again, each time with a new output, on the files that the run
before has left. -/
def rerun {σ : Type u} (bench : Bench σ) (files : FileSystem) (outs : Nat → ω) : Nat → Outcome σ ω
  | 0 => bench.run files (outs 0)
  | n + 1 =>
    let last := rerun bench files outs n
    last.bench.run last.files (outs (n + 1))

theorem rerun_starts {related : ω → ω → Prop} (alike : Sink.Alike related) {outs : Nat → ω}
    (image : config.initialMemory = some path)
    (covers : HexText.Covers (kind.design.memory state).depth text)
    (read : files.readText path = .ok text) (start : ∀ n, related (outs 0) (outs n))
    (spared : ∀ location, files.destination? path = some location →
      files.Spares config.outputs location) (n : Nat) :
    ∃ (past : kind.State) (before : Phase) (left : FileSystem),
      (Bench.mk kind.design config state phase).rerun files outs n =
        (Bench.mk kind.design config past before).run left (outs n) ∧
      (kind.design.memory past).depth = (kind.design.memory state).depth ∧
      left.readText path = .ok text ∧ files.SameStorage left ∧
      ∀ location, files.Spares config.outputs location →
        left.node? location = files.node? location := by
  induction n with
  | zero => exact ⟨state, phase, files, rfl, rfl, read, .refl files, fun _ _ => rfl⟩
  | succ n ih =>
    obtain ⟨past, before, left, same, depth, readable, storage, kept⟩ := ih
    let last := (Bench.mk kind.design config past before).run left (outs n)
    obtain ⟨-, -, state', size, step⟩ := run_alike phase before alike image covers depth read
      readable (start n) fun written _ => storage.answers written
    obtain ⟨memory, -, -, loads⟩ :=
      loaded_of_covers phase before image covers depth read readable
    obtain ⟨-, -, design, options⟩ := (Bench.mk kind.design config past before).run_of_loaded left
      (outs n) (congrArg Prod.fst loads)
    have bench : last.bench = ⟨kind.design, config, last.bench.state, last.bench.phase⟩ := by
      rw [← show last.bench.design = kind.design from design,
        ← show last.bench.config = config from options]
    have storage := storage.trans step.storage'
    have kept (location : Location) (away : files.Spares config.outputs location) :
        last.files.node? location = files.node? location :=
      (step.kept location away).2.trans (kept location away)
    refine ⟨last.bench.state, last.bench.phase, last.files, ?_, ?_, ?_, storage, kept⟩
    · rw [rerun, same, ← bench]
    · exact (congrArg (fun state => (kind.design.memory state).depth) state').symm.trans size
    · exact storage.readText read fun location leads => kept location (spared location leads)

omit [Sink ω] [Sink ω'] in
/-- A bundled design shows nothing of its history in a run whose image covers its memory. Whatever
two designs of one depth have been through, the same options in front of storage and outputs that
answer alike bring them to the same end and leave the same text and the same files. The bench that
is run again and again does the same each time, unless it overwrites its own image. -/
theorem run_forgets_history (kind : Bundled) (config : Config) (path text : String) (depth : Nat)
    (image : config.initialMemory = some path) (covers : HexText.Covers depth text) :
    (∀ {ω ω' : Type} [Sink ω] [Sink ω'] {related : ω → ω' → Prop}, Sink.Alike related →
      ∀ (state state' : kind.State) (phase phase' : Phase) (files others : FileSystem) (out : ω)
        (out' : ω'),
        (kind.design.memory state).depth = depth → (kind.design.memory state').depth = depth →
        files.readText path = .ok text → others.readText path = .ok text → related out out' →
        (∀ written ∈ config.outputs, files.answers written = others.answers written) →
        let first := (Bench.mk kind.design config state phase).run files out
        let second := (Bench.mk kind.design config state' phase').run others out'
        (∃ summary, first.result = .ok summary ∧ second.result = .ok summary) ∧
          (related first.out second.out ∧ ∃ acts, first.out = Sink.perform acts out ∧
            second.out = Sink.perform acts out') ∧
          first.bench.state = second.bench.state ∧
          FileSystem.InStep config.outputs files others first.files second.files) ∧
      ∀ {ω : Type} [Sink ω] {related : ω → ω → Prop}, Sink.Alike related →
        ∀ (state : kind.State) (phase : Phase) (files : FileSystem) (outs : Nat → ω),
          (kind.design.memory state).depth = depth → files.readText path = .ok text →
          (∀ n, related (outs 0) (outs n)) →
          (∀ location, files.destination? path = some location →
            files.Spares config.outputs location) →
          let runs := (Bench.mk kind.design config state phase).rerun files outs
          ∀ n, (∃ summary, (runs 0).result = .ok summary ∧ (runs n).result = .ok summary) ∧
            (related (runs 0).out (runs n).out ∧ ∃ acts,
              (runs 0).out = Sink.perform acts (outs 0) ∧
                (runs n).out = Sink.perform acts (outs n)) ∧
            (runs 0).bench.state = (runs n).bench.state ∧
            ∀ location, (runs 0).files.node? location = (runs n).files.node? location := by
  constructor
  · intro ω ω' _ _ related alike state state' phase phase' files others out out' size size' read
      read' start answers first second
    subst size
    obtain ⟨result, printed, reached, -, step⟩ :=
      run_alike phase phase' (alike.performed out out') image covers size' read read'
        ⟨start, [], rfl, rfl⟩ answers
    exact ⟨result, printed, reached, step⟩
  · intro ω _ related alike state phase files outs size read start spared runs n
    subst size
    obtain ⟨past, before, left, same, depth, readable, storage, kept⟩ :=
      rerun_starts phase alike image covers read start spared n
    obtain ⟨result, printed, reached, -, step⟩ := run_alike phase before
      (alike.performed (outs 0) (outs n)) image covers depth read readable
      ⟨start n, [], rfl, rfl⟩ fun written _ => storage.answers written
    rw [show runs n = _ from same]
    refine ⟨result, printed, reached, fun location => ?_⟩
    by_cases away : files.Spares config.outputs location
    · obtain ⟨first, second⟩ := step.kept location away
      exact first.trans ((kept location away).symm.trans second.symm)
    · simp only [FileSystem.Spares, ne_eq, not_forall, not_not] at away
      obtain ⟨written, known, file, created, rfl⟩ := away
      cases device : files.isDevice file.location with
      | false =>
        exact step.written written known file created device
          (storage.device file.location ▸ device)
      | true =>
        have first := FileSystem.isDevice_iff.mp (step.storage.device file.location ▸ device)
        have second := FileSystem.isDevice_iff.mp
          ((storage.trans step.storage').device file.location ▸ device)
        exact first.trans second.symm

/-- A machine that has just been built and one that stopped on a fault in the middle of a write run
alike, one of them over an old trace, and the first does the same in its eighth run. -/
theorem run_forgets_fault :
    let config : Config :=
      { waveform := true, dump := some ⟨"memory.bin", 0, 8⟩, initialMemory := some "image" }
    let files := FileSystem.initial.addFile ["image"] "@1 0 @0 6000005".toUTF8
    let others := files.addFile ["trace.vcd"] "left over".toUTF8
    let built := Accumulator.ofMemory (.zeros 2 (by decide))
    let stopped : Accumulator :=
      ⟨⟨#[1, 2], by decide⟩, ⟨7, 8, true, true⟩, ⟨9, 9, false, true⟩, ⟨true, 1, 5⟩, 3, true⟩
    let out := Device.accepting
    let out' := { Device.accepting with contents := "before".toUTF8 }
    config.initialMemory = some "image" ∧ HexText.Covers 2 "@1 0 @0 6000005" ∧
      ∃ summary acts,
        ((Bench.mk Accumulator.design config built .configuring).run files out).result =
          .ok summary ∧
        ((Bench.mk Accumulator.design config stopped .terminated).run others out').result =
          .ok summary ∧
        ((Bench.mk Accumulator.design config built .configuring).run files out).out =
          Sink.perform acts out ∧
        ((Bench.mk Accumulator.design config stopped .terminated).run others out').out =
          Sink.perform acts out' ∧
        ((Bench.mk Accumulator.design config built .configuring).run files out).files.node?
            ["trace.vcd", "work"] =
          ((Bench.mk Accumulator.design config stopped .terminated).run others out').files.node?
            ["trace.vcd", "work"] ∧
        ((Bench.mk Accumulator.design config built .configuring).rerun files (fun _ => out)
          7).result = .ok summary := by
  intro config files others built stopped out out'
  have image : config.initialMemory = some "image" := rfl
  have texts : HexText.tokenTexts "@1 0 @0 6000005".toList =
      [['@', '1'], ['0'], ['@', '0'], ['6', '0', '0', '0', '0', '0', '5']] := by rfl
  have stored :
      (HexText.store (HexText.tokens "@1 0 @0 6000005".toList) 0 0 built.memory).1 = .ok 2 := by
    rfl
  have covers : HexText.Covers 2 "@1 0 @0 6000005" := by
    have accepts := ((HexText.store_ok_iff _ 0 0 built.memory 2).mp stored).1
    rw [HexText.map_text_tokens] at accepts
    refine ⟨accepts, fun address inside => ?_⟩
    rw [texts]
    match address with
    | 0 =>
      exact ⟨3, _, rfl, rfl, .inr ⟨[['@', '1'], ['0']], ['0'], [], 0, rfl, rfl,
        (HexText.value?_eq_some_iff _ _).mp (by rfl), rfl⟩⟩
    | 1 =>
      exact ⟨1, _, rfl, rfl, .inr ⟨[], ['1'], [], 1, rfl, rfl,
        (HexText.value?_eq_some_iff _ _).mp (by rfl), rfl⟩⟩
  have read : files.readText "image" = .ok "@1 0 @0 6000005" := by rfl
  have read' : others.readText "image" = .ok "@1 0 @0 6000005" := by rfl
  have opened : files.create "trace.vcd" =
      .ok ⟨files, ["trace.vcd", "work"], true, ByteArray.empty, 0⟩ := by rfl
  have opened' : files.create "memory.bin" =
      .ok ⟨files, ["memory.bin", "work"], true, ByteArray.empty, 0⟩ := by rfl
  have reopened : others.create "trace.vcd" =
      .ok ⟨others, ["trace.vcd", "work"], true, ByteArray.empty, 0⟩ := by rfl
  have reopened' : others.create "memory.bin" =
      .ok ⟨others, ["memory.bin", "work"], true, ByteArray.empty, 0⟩ := by rfl
  have leads : files.destination? "image" = some ["image", "work"] := by rfl
  have answers : ∀ written ∈ config.outputs, files.answers written = others.answers written := by
    intro written known
    rcases List.mem_pair.mp known with rfl | rfl
    · rw [FileSystem.answers_of_created opened, FileSystem.answers_of_created reopened]
      rfl
    · rw [FileSystem.answers_of_created opened', FileSystem.answers_of_created reopened']
      rfl
  have spared : ∀ location, files.destination? "image" = some location →
      files.Spares config.outputs location := by
    intro location there written known file created
    cases leads.symm.trans there
    rcases List.mem_pair.mp known with rfl | rfl
    · cases opened.symm.trans created
      decide
    · cases opened'.symm.trans created
      decide
  obtain ⟨either, again⟩ :=
    run_forgets_history .accumulator config "image" "@1 0 @0 6000005" 2 image covers
  obtain ⟨⟨summary, result, result'⟩, ⟨-, acts, printed, printed'⟩, -, step⟩ :=
    either (Device.alike_taken ByteArray.empty "before".toUTF8) built stopped .configuring
      .terminated files others out out' rfl rfl read read' ⟨ByteArray.empty, rfl, rfl⟩ answers
  obtain ⟨⟨_, first, eighth⟩, -⟩ :=
    again Sink.alike_eq built .configuring files (fun _ => out) rfl read (fun _ => rfl) spared 7
  cases result.symm.trans first
  have traces := step.written "trace.vcd" (.head _) _ opened (by rfl) (by rfl)
  exact ⟨image, covers, summary, acts, result, result', printed, printed', traces, eighth⟩

end Bench

end Testbench
