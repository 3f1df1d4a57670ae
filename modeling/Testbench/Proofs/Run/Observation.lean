import Testbench.Proofs.Run.Law

/-! Watching a run does not change it. What a run does to its design, how many cycles it
takes and whether it ends in a halt are a function of the design, the budget and the image
alone, because no answer of an output is ever looked at for them. Two runs that differ only
in how they are watched, and in what goes wrong with that, therefore agree. -/
namespace Testbench

/-- A run as one sees it who looks at none of its outputs. -/
structure Behavior (σ : Type u) where
  result : Except Fault (Nat × Bool)
  state : σ

def Outcome.behavior {σ : Type u} {ω : Type} (outcome : Outcome σ ω) : Behavior σ where
  result := outcome.result.map fun summary => (summary.cycles, summary.halted)
  state := outcome.bench.state

namespace Bench

variable {σ : Type u}

/-- What a run without any outputs comes to. -/
def behavior (bench : Bench σ) (files : FileSystem) : Behavior σ :=
  let (result, state) := bench.loaded files
  match result with
  | .error fault => ⟨.error fault, state⟩
  | .ok _ =>
    let budget := bench.config.maxCycles.toNat
    let start := bench.design.tick true state
    let cycles := bench.design.cyclesWithin budget start
    ⟨.ok (cycles, bench.design.haltsWithin budget start), (bench.design.tick false)^[cycles] start⟩

theorem behavior_of_fault {bench : Bench σ} {files : FileSystem} {fault : Fault}
    (fails : (bench.loaded files).1 = .error fault) :
    bench.behavior files = ⟨.error fault, (bench.loaded files).2⟩ := by
  simp only [behavior, fails]

theorem behavior_of_loaded {bench : Bench σ} {files : FileSystem}
    (loads : (bench.loaded files).1 = .ok ()) :
    let budget := bench.config.maxCycles.toNat
    let start := bench.design.tick true (bench.loaded files).2
    let cycles := bench.design.cyclesWithin budget start
    bench.behavior files =
      ⟨.ok (cycles, bench.design.haltsWithin budget start),
        (bench.design.tick false)^[cycles] start⟩ := by
  simp only [behavior, loads]

theorem behavior_run {ω : Type} [Sink ω] (bench : Bench σ) (files : FileSystem) (out : ω) :
    (bench.run files out).behavior = bench.behavior files := by
  cases h : (bench.loaded files).1 with
  | error fault =>
    obtain ⟨result, core, -, -⟩ := bench.run_of_fault files out fault h
    have state : (bench.run files out).bench.state = (bench.loaded files).2 :=
      congrArg Core.state core
    rw [behavior_of_fault h, Outcome.behavior, result, state]
    rfl
  | ok _ =>
    obtain ⟨result, core, -, -⟩ := bench.run_of_loaded files out h
    have prepared := (bench.prepare_core files out).2
    have start : (bench.prepare files out).2.state = (bench.loaded files).2 :=
      congrArg Core.state prepared
    obtain ⟨cycles, halts, final⟩ :=
      Session.simulate_core bench.design bench.config (bench.prepare files out).2
    rw [start] at cycles halts
    rw [prepared, Session.finalCore_eq, cycles] at final
    have moved := core.trans final
    have state : (bench.run files out).bench.state = _ := congrArg Core.state moved
    rw [behavior_of_loaded h, Outcome.behavior, result, state]
    simp only [Except.map, cycles, halts]
    rfl

theorem run_of_firstHalt {ω : Type} [Sink ω] (bench : Bench σ) (files : FileSystem) (out : ω)
    (loads : (bench.loaded files).1 = .ok ()) {cycles : Nat}
    (first : bench.design.firstHalt (bench.design.tick true (bench.loaded files).2) = cycles) :
    let budget := bench.config.maxCycles.toNat
    let outcome := bench.run files out
    ∃ summary, outcome.result = .ok summary ∧ summary.cycles = min budget cycles ∧
      (summary.halted = true ↔ cycles ≤ budget) ∧
      outcome.bench.state = (bench.design.tick false)^[min budget cycles]
        (bench.design.tick true (bench.loaded files).2) := by
  intro budget outcome
  have same : outcome.behavior = bench.behavior files := bench.behavior_run files out
  rw [behavior_of_loaded loads, bench.design.cyclesWithin_of_firstHalt first] at same
  have result := congrArg Behavior.result same
  have state : outcome.bench.state = _ := congrArg Behavior.state same
  simp only [Outcome.behavior] at result
  cases h : outcome.result with
  | error fault => rw [h] at result; cases result
  | ok summary =>
    rw [h] at result
    obtain ⟨count, halts⟩ := Prod.mk.inj (Except.ok.inj result)
    refine ⟨summary, rfl, count, ?_, state⟩
    rw [halts, bench.design.haltsWithin_of_firstHalt first]

theorem loaded_congr {design : Design σ} {state : σ} {one two : Config} {before after : Phase}
    {files others : FileSystem} (image : one.initialMemory = two.initialMemory)
    (contents : ∀ path, one.initialMemory = some path → files.read path = others.read path) :
    (Bench.mk design one state before).loaded files =
      (Bench.mk design two state after).loaded others := by
  unfold loaded
  dsimp only
  rw [← image]
  cases h : one.initialMemory with
  | none => rfl
  | some path => simp only [Image.load, FileSystem.readText, contents path h]

theorem behavior_congr {design : Design σ} {state : σ} {one two : Config} {before after : Phase}
    {files others : FileSystem} (budget : one.maxCycles = two.maxCycles)
    (image : one.initialMemory = two.initialMemory)
    (contents : ∀ path, one.initialMemory = some path → files.read path = others.read path) :
    (Bench.mk design one state before).behavior files =
      (Bench.mk design two state after).behavior others := by
  have loaded : (Bench.mk design one state before).loaded files =
      (Bench.mk design two state after).loaded others := loaded_congr image contents
  unfold behavior
  rw [loaded, budget]

/-- Runs of one design that share budget and image take the same course, whatever their other
options are and whatever fails while a trace, state lines, the report or a dump is written. -/
theorem run_eq_of_same_budget_and_image {ω ω' : Type} [Sink ω] [Sink ω'] (design : Design σ)
    (state : σ) (one two : Config) (before after : Phase) (files others : FileSystem)
    (out : ω) (out' : ω') (budget : one.maxCycles = two.maxCycles)
    (image : one.initialMemory = two.initialMemory)
    (contents : ∀ path, one.initialMemory = some path → files.read path = others.read path) :
    let first := (Bench.mk design one state before).run files out
    let second := (Bench.mk design two state after).run others out'
    first.bench.state = second.bench.state ∧
      design.memory first.bench.state = design.memory second.bench.state ∧
      ((∃ fault, first.result = .error fault ∧ second.result = .error fault) ∨
        ∃ summary summary', first.result = .ok summary ∧ second.result = .ok summary' ∧
          summary.cycles = summary'.cycles ∧ summary.halted = summary'.halted) := by
  intro first second
  have same : first.behavior = second.behavior := by
    simp only [first, second, behavior_run]
    exact behavior_congr budget image contents
  have state : first.bench.state = second.bench.state := congrArg Behavior.state same
  have result := congrArg Behavior.result same
  refine ⟨state, congrArg design.memory state, ?_⟩
  simp only [Outcome.behavior] at result
  cases h : first.result with
  | error fault =>
    cases h' : second.result with
    | error fault' =>
      rw [h, h'] at result
      cases result
      exact .inl ⟨fault, rfl, rfl⟩
    | ok summary' => rw [h, h'] at result; cases result
  | ok summary =>
    cases h' : second.result with
    | error fault' => rw [h, h'] at result; cases result
    | ok summary' =>
      rw [h, h'] at result
      have values := Prod.mk.inj (Except.ok.inj result)
      exact .inr ⟨summary, summary', rfl, rfl, values.1, values.2⟩

theorem run_eq_of_failing_outputs :
    let files := FileSystem.initial.addFile ["image"] "06000005 00000000".toUTF8
    let others := files.addFile ["trace.vcd"] "left over".toUTF8
    let one : Config :=
      { waveform := true
        tracePath := "/dev/full"
        dump := some ⟨"", 0, 8⟩
        initialMemory := some "image" }
    let two : Config := { initialMemory := some "image", echoState := false }
    let state := Accumulator.ofMemory (.zeros 4 (by decide))
    let first := (Bench.mk Accumulator.design one state .configuring).run files
      (Device.ofLimit (some 9) false false)
    let second := (Bench.mk Accumulator.design two state .terminated).run others Device.accepting
    one.maxCycles = two.maxCycles ∧ one.initialMemory = two.initialMemory ∧
      (∀ path, one.initialMemory = some path → files.read path = others.read path) ∧
      first.bench.state = second.bench.state ∧
      ((∃ fault, first.result = .error fault ∧ second.result = .error fault) ∨
        ∃ summary summary', first.result = .ok summary ∧ second.result = .ok summary' ∧
          summary.cycles = summary'.cycles ∧ summary.halted = summary'.halted) := by
  intro files others one two state first second
  have contents : ∀ path, one.initialMemory = some path → files.read path = others.read path := by
    rintro path ⟨⟩
    rfl
  have budget : one.maxCycles = two.maxCycles := rfl
  have image : one.initialMemory = two.initialMemory := rfl
  -- Neither run has to be evaluated once it is known that they share budget and image.
  clear_value files others one two
  obtain ⟨same, -, results⟩ := run_eq_of_same_budget_and_image Accumulator.design state one two
    .configuring .terminated files others (Device.ofLimit (some 9) false false) Device.accepting
    budget image contents
  exact ⟨budget, image, contents, same, results⟩

end Bench

end Testbench
