import Testbench.Proofs.Design.Wiring
import Testbench.Proofs.Run.Budget

/-! Traces of the bundled designs lose nothing. Their registers fit the signals they are shown under
in every state that any operations lead to, and a run is nothing but operations, so cutting the
values to the widths of their signals cuts nothing off. -/
namespace Testbench

open Trace

namespace Bench

variable {σ : Type u}

def loading (bench : Bench σ) (files : FileSystem) : List Operation :=
  .init :: (bench.config.initialMemory.map fun path => .edit (.load path files)).toList

theorem loaded_eq_perform (bench : Bench σ) (files : FileSystem) :
    (bench.loaded files).2 = bench.design.perform (bench.loading files) bench.state := by
  unfold loaded loading
  cases bench.config.initialMemory <;> rfl

theorem clocked_eq_perform (bench : Bench σ) (files : FileSystem) (c : Nat) :
    (bench.design.tick false)^[c] (bench.design.tick true (bench.loaded files).2) =
      bench.design.perform (bench.loading files ++ (Operation.tick true ++
        (List.replicate c (Operation.tick false)).flatten)) bench.state := by
  rw [Design.iterate_tick_eq_perform, loaded_eq_perform, Design.perform_append,
    Design.perform_append]
  rfl

variable {ω : Type} [Sink ω]

theorem traces_of_counted (bench : Bench σ) (files : FileSystem) (out : ω) {summary : Summary}
    {records : Nat} (returns : (bench.run files out).result = .ok summary)
    (traced : bench.config.waveform = true) (counted : summary.traceRecords = some records) :
    let signals := bench.design.signals (bench.loaded files).2
    let frame := bench.design.sampled (bench.design.tick true (bench.loaded files).2)
    ∃ location, files.destination? bench.config.tracePath = some location ∧
      ((∀ request, bench.config.dump = some request →
          files.destination? request.path ≠ some location) →
        files.node? location ≠ some .device →
        (∀ c ≤ summary.cycles, (frame c).size = signals.length) →
        ∃ contents, (bench.run files out).files.node? location = some (.file contents) ∧
          Traces signals frame summary.cycles contents) := by
  intro signals frame
  have loads := bench.loads_of_result files out returns
  obtain ⟨result, -, left, -⟩ := bench.run_account out (Prod.ext loads rfl)
  obtain rfl := Except.ok.inj (returns.symm.trans result)
  let cycles := bench.design.cyclesWithin bench.config.maxCycles.toNat
    (bench.design.tick true (bench.loaded files).2)
  obtain ⟨-, same, location, leads, holds⟩ := FileRecorder.traces_of_completes
    ((Session.tracedCapture_completes_iff bench.design files (bench.loaded files).2 cycles traced
      records _).mp (Prod.ext counted rfl))
  refine ⟨location, leads, fun apart regular whole => ?_⟩
  obtain ⟨contents, kept, traces⟩ := holds regular whole
  refine ⟨contents, ?_, traces⟩
  rw [left]
  refine (Image.node?_dumpIf_of_ne _ fun request asked => ?_).trans kept
  exact (same request.path).symm ▸ apart request asked

theorem counts_of_unlimited (bench : Bench σ) {files : FileSystem} (out : ω)
    (loads : (bench.loaded files).1 = .ok ()) (traced : bench.config.waveform = true)
    {file : OpenFile} (created : files.create bench.config.tracePath = .ok file)
    (unlimited : file.Unlimited) (regular : files.node? file.location ≠ some .device) :
    ∃ summary, (bench.run files out).result = .ok summary ∧
      summary.cycles = bench.design.cyclesWithin bench.config.maxCycles.toNat
        (bench.design.tick true (bench.loaded files).2) ∧
      summary.traceRecords = some (summary.cycles + 1) := by
  obtain ⟨result, -⟩ := bench.run_account out (Prod.ext loads rfl)
  obtain ⟨counted, -⟩ := Session.tracedCapture_of_unlimited bench.design (bench.loaded files).2
    (bench.design.cyclesWithin bench.config.maxCycles.toNat
      (bench.design.tick true (bench.loaded files).2)) traced created unlimited regular
  exact ⟨_, result, rfl, counted⟩

end Bench

namespace Bundled

/-- Whatever has been done to a design, its sample shows each declared signal once, in the order of
the declaration, and no value is wider than its signal. A run that starts from there and counts
its trace therefore leaves every bit of every frame in the file. -/
theorem sample_fits_signals (kind : Bundled) (memory : Image) (operations : List Operation)
    (config : Config) (phase : Phase) (files : FileSystem) {ω : Type} [Sink ω] (out : ω) :
    let design := kind.design
    let state := design.perform operations (kind.ofMemory memory)
    let signals := design.signals state
    let values := (design.sample state).values
    let bench := Bench.mk design config state phase
    let frame := design.sampled (design.tick true (bench.loaded files).2)
    let outcome := bench.run files out
    (values.size = signals.length ∧ (kind.wired state).map Prod.fst = signals ∧
        (kind.wired state).map Prod.snd = values.toList.map UInt64.toNat ∧
        ∀ (i : Nat) (signal : Signal) (value : UInt64), signals[i]? = some signal →
          values[i]? = some value → value.toNat < 2 ^ signal.width) ∧
      ∀ summary records, outcome.result = .ok summary → config.waveform = true →
        summary.traceRecords = some records →
        ∃ location, files.destination? config.tracePath = some location ∧
          ((∀ request, config.dump = some request →
              files.destination? request.path ≠ some location) →
            files.node? location ≠ some .device →
            ∃ contents, outcome.files.node? location = some (.file contents) ∧
              Keeps signals frame summary.cycles contents) := by
  intro design state signals values bench frame outcome
  have here : Fits signals (design.sample state) := kind.fits_perform memory operations state
  have fits (c : Nat) : Fits signals (frame c) := by
    have reached := bench.clocked_eq_perform files c
    simp only [frame, Design.sampled, signals]
    rw [show (design.tick false)^[c] (design.tick true (bench.loaded files).2) = _ from reached]
    show Fits _ (design.sample (design.perform _ (design.perform operations _)))
    rw [← Design.perform_append]
    exact kind.fits_perform memory _ state
  refine ⟨⟨here.size, kind.declared_wired state, kind.sampled_wired state, here.value_lt⟩, ?_⟩
  intro summary records returns traced counted
  obtain ⟨location, leads, holds⟩ := bench.traces_of_counted files out returns traced counted
  refine ⟨location, leads, fun apart regular => ?_⟩
  rw [show bench.design.signals (bench.loaded files).2 = signals from kind.signals_eq _ _] at holds
  obtain ⟨contents, kept, traces⟩ := holds apart regular fun c _ => (fits c).size
  exact ⟨contents, kept, traces.keeps fun c _ => fits c⟩

/-- A program that stores at the largest address an instruction can hold, run on a machine that was
left with a write pending: the address comes back whole from the trace file. -/
theorem sample_fits_signals_of_widest_address :
    let memory : Image := ⟨#[0x01FFFFFF, 0x03FFFFFF, 0, 0], by decide⟩
    let operations := [.edit (.write 0 0x03000001), .stepLow false, .stepHigh true,
      .edit (.write 0 0x01FFFFFF)]
    let config : Config := { waveform := true, maxCycles := 5 }
    let state := accumulator.design.perform operations (accumulator.ofMemory memory)
    let bench := Bench.mk accumulator.design config state .configuring
    let outcome := bench.run FileSystem.initial Device.accepting
    let start := accumulator.design.tick true (bench.loaded .initial).2
    state.port.enable = true ∧
      (accumulator.design.sample state).values.size = 9 ∧
      ∃ summary contents, outcome.result = .ok summary ∧ config.waveform = true ∧
        summary.traceRecords = some 4 ∧
        outcome.files.node? ["trace.vcd", "work"] = some (.file contents) ∧
        Keeps Accumulator.signals (accumulator.design.sampled start) 3 contents ∧
        (accumulator.design.sampled start 2).values[5]? = some 0xFFFFFF := by
  intro memory operations config state bench
  -- A name for the outcome would make the check of this proof run the design.
  dsimp only
  obtain ⟨⟨size, -⟩, keeps⟩ := accumulator.sample_fits_signals memory operations config .configuring
    .initial Device.accepting
  have created : FileSystem.initial.create "trace.vcd" =
      .ok ⟨FileSystem.initial, ["trace.vcd", "work"], true, ByteArray.empty, 0⟩ := by rfl
  have fresh : FileSystem.initial.node? ["trace.vcd", "work"] = none := by rfl
  have regular : FileSystem.initial.node? ["trace.vcd", "work"] ≠ some .device := by
    rw [fresh]
    exact nofun
  obtain ⟨summary, returns, cycles, counted⟩ := bench.counts_of_unlimited Device.accepting
    (show (bench.loaded .initial).1 = .ok () from rfl) rfl created (fun _ => rfl) regular
  have three : summary.cycles = 3 := cycles.trans (by decide)
  rw [three] at counted
  obtain ⟨location, leads, holds⟩ := keeps summary 4 returns rfl counted
  obtain rfl : location = ["trace.vcd", "work"] :=
    Option.some.inj (leads.symm.trans (FileSystem.opened_of_create created).destination)
  obtain ⟨contents, kept, whole⟩ := holds nofun regular
  rw [three] at whole
  exact ⟨by decide, size, summary, contents, returns, rfl, counted, kept, whole, by decide⟩

end Bundled

end Testbench
