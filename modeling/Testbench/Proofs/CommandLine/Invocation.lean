import Testbench.CommandLine
import Testbench.Proofs.CommandLine.Merge
import Testbench.Proofs.CommandLine.Spelling
import Testbench.Proofs.Run.Budget
import Testbench.Proofs.Run.Failure

/-! The program as a whole. It is a run of the bench under the configuration that options and files
come to, and adds nothing of its own. Whatever may refuse it does so before the first clock edge,
when nothing has been printed or opened yet. -/
namespace Testbench

def Config.bench (config : Config) (positive : 0 < config.memoryDepth.toNat) :
    Bench config.design.State :=
  Bench.ofDesign config.design.design config (config.design.ofMemory (.zeros _ positive))

/-- The image that a configuration names, if it names one, can be loaded. -/
def Config.Loads (config : Config) (positive : 0 < config.memoryDepth.toNat) (files : FileSystem) :
    Prop :=
  ∀ path, config.initialMemory = some path →
    ∃ words, ((Image.zeros _ positive).load path files).1 = .ok words

namespace Bench

variable {σ : Type u} {ω : Type} [Sink ω]

theorem result_of_loaded_iff (bench : Bench σ) (files : FileSystem) (out : ω) :
    (∃ summary, (bench.run files out).result = .ok summary) ↔ (bench.loaded files).1 = .ok () :=
  ⟨fun ⟨_, succeeds⟩ => bench.loads_of_result files out succeeds,
    fun loads => ⟨_, (bench.run_of_loaded files out loads).1⟩⟩

theorem run_untouched (bench : Bench σ) (files : FileSystem) (out : ω) {fault : Fault}
    (fails : (bench.run files out).result = .error fault) :
    (bench.run files out).out = out ∧ (bench.run files out).files = files := by
  cases h : (bench.loaded files).1 with
  | ok _ =>
    obtain ⟨_, succeeds⟩ := (bench.result_of_loaded_iff files out).mpr h
    cases succeeds.symm.trans fails
  | error cause =>
    obtain ⟨path, left, configured, fails⟩ := bench.loadFails_of_loaded files h
    rw [bench.run_of_loadFails out configured fails]
    exact ⟨rfl, rfl⟩

end Bench

theorem Config.loaded_bench_iff (config : Config) (positive : 0 < config.memoryDepth.toNat)
    (files : FileSystem) :
    ((config.bench positive).loaded files).1 = .ok () ↔ config.Loads positive files := by
  have memory : config.design.design.memory
      (config.design.design.init (config.design.ofMemory (.zeros _ positive))) =
        .zeros _ positive := by
    cases config.design <;> rfl
  unfold Bench.loaded Config.Loads Config.bench Bench.ofDesign
  dsimp only
  rw [memory]
  cases config.initialMemory with
  | none => simp
  | some path =>
    cases h : ((Image.zeros _ positive).load path files).1 <;> simp [h, Except.map]

namespace CommandLine

variable {ω : Type} [Sink ω]

theorem execute_of_pos (config : Config) (files : FileSystem) (out : ω)
    (positive : 0 < config.memoryDepth.toNat) :
    let outcome := (config.bench positive).run files out
    let completion := execute config files out
    completion.out = outcome.out ∧ completion.files = outcome.files ∧
      completion.events = outcome.events ∧
      (completion.status = 0 ↔ ∃ summary, outcome.result = .ok summary) ∧
      (completion.status = 1 ↔ ∃ fault, outcome.result = .error fault) := by
  intro outcome completion
  have built : config.design.build config.memoryDepth.toNat =
      .ok (config.design.ofMemory (.zeros _ positive)) := by
    simp [Bundled.build, Image.ofDepth, positive]
  simp only [completion, execute, built]
  rw [show (Bench.ofDesign config.design.design config _).run files out = outcome from rfl]
  cases outcome.result <;> simp [Completion.status, Fault.exitCode]

theorem execute_of_zero (config : Config) (files : FileSystem) (out : ω)
    (zero : ¬0 < config.memoryDepth.toNat) :
    execute config files out = ⟨some (.fault .emptyMemory), files, out, #[]⟩ := by
  simp [execute, Bundled.build, Image.ofDepth, zero]

theorem status_execute (config : Config) (files : FileSystem) (out : ω) :
    ((execute config files out).status = 0 ↔ ∃ positive, config.Loads positive files) ∧
      ((execute config files out).status = 1 ↔ ¬∃ positive, config.Loads positive files) := by
  by_cases positive : 0 < config.memoryDepth.toNat
  · obtain ⟨-, -, -, succeeds, fails⟩ := execute_of_pos config files out positive
    have loads : (∃ summary, ((config.bench positive).run files out).result = .ok summary) ↔
        ∃ positive, config.Loads positive files := by
      rw [Bench.result_of_loaded_iff, config.loaded_bench_iff]
      exact ⟨fun loads => ⟨positive, loads⟩, fun ⟨_, loads⟩ => loads⟩
    refine ⟨succeeds.trans loads, fails.trans ?_⟩
    rw [← loads]
    cases ((config.bench positive).run files out).result <;> simp
  · rw [execute_of_zero config files out positive]
    have refused : ¬∃ positive, config.Loads positive files := fun ⟨found, _⟩ => positive found
    simp [refused, Completion.status, Fault.exitCode]

theorem execute_untouched (config : Config) (files : FileSystem) (out : ω)
    (fails : (execute config files out).status = 1) :
    (execute config files out).out = out ∧ (execute config files out).files = files := by
  by_cases positive : 0 < config.memoryDepth.toNat
  · obtain ⟨printed, left, -, -, fault⟩ := execute_of_pos config files out positive
    obtain ⟨_, failed⟩ := fault.mp fails
    rw [printed, left]
    exact Bench.run_untouched _ files out failed
  · rw [execute_of_zero config files out positive]
    exact ⟨rfl, rfl⟩

theorem execute_reports (config : Config) (files : FileSystem) {out : ω}
    (succeeds : (execute config files out).status = 0) {accepts : ω → Prop}
    {contents : ω → ByteArray} (accepting : Sink.Accepting accepts contents) (ready : accepts out) :
    ∃ lines cycles, cycles ≤ config.maxCycles.toNat ∧
      contents (execute config files out).out = contents out ++
        (Printout.text lines ++ Printout.reportText cycles).utf8Encode := by
  obtain ⟨positive, loads⟩ := (status_execute config files out).1.mp succeeds
  let bench := config.bench positive
  have loaded : bench.loaded files = (.ok (), (bench.loaded files).2) :=
    Prod.ext ((config.loaded_bench_iff positive files).mpr loads) rfl
  obtain ⟨-, -, -, printed⟩ := bench.run_account out loaded
  rw [(execute_of_pos config files out positive).1, show (bench.run files out).out = _ from printed]
  exact ⟨_, _, bench.design.cyclesWithin_le _ _,
    (bench.design.out_account bench.config _ _ _ files accepting ready).contents_eq⟩

/-- A command line that is refused leaves no trace, whatever outputs it names: nothing has been
printed, and the files are as they were. Otherwise, unless it asks for a text about the program, the
last line of the output tells the cycles, no more than the configuration allows. -/
theorem invoke_fails_without_trace (arguments : List String) (files : FileSystem) (out : ω) :
    let completion := invoke arguments files out
    (completion.status = 0 ∨ completion.status = 1) ∧
      (completion.status = 1 ↔
        (∃ error, read arguments = .refuse error) ∨
          ∃ options, read arguments = .run options ∧
            ((∃ fault, options.resolve files = .error fault) ∨
              ∃ config, options.resolve files = .ok config ∧
                ¬∃ positive, config.Loads positive files)) ∧
      (completion.status = 1 → completion.out = out ∧ completion.files = files) ∧
      (completion.status = 0 → read arguments = .help ∨ read arguments = .version ∨
        ∃ options config, read arguments = .run options ∧ options.resolve files = .ok config ∧
          ∀ accepts contents, Sink.Accepting accepts contents → accepts out →
            ∃ lines cycles, cycles ≤ config.maxCycles.toNat ∧
              contents completion.out = contents out ++
                (Printout.text lines ++ Printout.reportText cycles).utf8Encode) := by
  intro completion
  simp only [completion]
  unfold invoke
  cases asked : read arguments with
  | help | version | refuse => simp [Completion.status]
  | run options =>
    dsimp only
    cases resolved : options.resolve files with
    | error fault => simp [Completion.status, Fault.exitCode, resolved]
    | ok config =>
      dsimp only
      obtain ⟨zero, one⟩ := status_execute config files out
      refine ⟨?_, ?_, execute_untouched config files out, fun succeeds => ?_⟩
      · rw [zero, one]
        exact Classical.em _
      · rw [one]
        simp [resolved]
      · refine .inr (.inr ⟨options, config, rfl, resolved, ?_⟩)
        intro accepts contents accepting ready
        exact execute_reports config files succeeds accepting ready

theorem read_of_spells {arguments : List String} {found : List Occurrence}
    (spelled : Spells arguments found) (valid : ∀ occurrence ∈ found, occurrence.Valid)
    (once : Once found) : read arguments = .run (collect found) := by
  have taken : answer found (collect []) = .run (collect found) := answer_eq_run valid once
  rw [read, occurrences_of_spells spelled]
  exact taken

/-- A trace and a dump are asked for under the path of the image, which is left alone because its
second word is malformed. -/
theorem invoke_fails_without_trace_of_malformed_word :
    let files := FileSystem.initial.addFile ["image"] "7 zz".toUTF8
    let arguments := ["-w", "--trace=image", "-d", "image,0,8", "--depth", "2", "image"]
    let completion := invoke arguments files Device.accepting
    completion.status = 1 ∧ completion.out = Device.accepting ∧ completion.files = files := by
  intro files arguments completion
  have status : completion.status = 1 := by decide +kernel
  obtain ⟨-, -, untouched, -⟩ := invoke_fails_without_trace arguments files Device.accepting
  exact ⟨status, untouched status⟩

/-- A command line that gives each option at most once, with values that can be used, runs the bench
under one configuration: the options over their file, and over the defaults if they name none. It
succeeds if there is memory and the image can be loaded, whatever becomes of the outputs. The order
of the options and the way they are spelled does not matter. -/
theorem invoke_runs_effective_config {arguments : List String} {found : List Occurrence}
    (spelled : Spells arguments found) (valid : ∀ occurrence ∈ found, occurrence.Valid)
    (once : Once found) (files : FileSystem) (out : ω) :
    let completion := invoke arguments files out
    (∀ base, Below found files base →
      ∃ config, (∀ other, Effective found base other ↔ other = config) ∧
        (∀ positive,
          let outcome := (config.bench positive).run files out
          completion.out = outcome.out ∧ completion.files = outcome.files ∧
            completion.events = outcome.events) ∧
        (completion.status = 0 ↔ ∃ positive, config.Loads positive files) ∧
        (completion.status ≠ 0 → completion.out = out ∧ completion.files = files)) ∧
      ∀ arguments' found', Spells arguments' found' → found'.Perm found →
        invoke arguments' files out = invoke arguments files out := by
  intro completion
  have asked := read_of_spells spelled valid once
  refine ⟨fun base below => ⟨(collect found).over base, ?_⟩, ?_⟩
  · have effective := effective_collect valid once base
    have same : completion = execute ((collect found).over base) files out := by
      simp only [completion, invoke, asked, resolve_collect valid once below]
    rw [same]
    obtain ⟨zero, one⟩ := status_execute ((collect found).over base) files out
    refine ⟨fun other => ⟨fun also => also.unique effective, ?_⟩, fun positive => ?_, zero, ?_⟩
    · rintro rfl
      exact effective
    · obtain ⟨printed, left, told, -, -⟩ :=
        execute_of_pos ((collect found).over base) files out positive
      exact ⟨printed, left, told⟩
    · intro fails
      exact execute_untouched _ files out (one.mpr (mt zero.mpr fails))
  · intro arguments' found' spelled' perm
    have valid' : ∀ occurrence ∈ found', occurrence.Valid := fun occurrence known =>
      valid occurrence (perm.mem_iff.mp known)
    have asked' := read_of_spells spelled' valid' (once.perm perm)
    rw [collect_perm once perm] at asked'
    simp only [invoke, asked, asked']

theorem invoke_runs_effective_config_of_seven_options :
    let arguments := ["-qc", "2", "--trace=t.vcd", "--design", "counter", "--depth", "3", "-w",
      "-d", "out.bin,0,8"]
    let reordered := ["-wq", "-dout.bin,0,8", "--depth=3", "--trace", "t.vcd", "-c=2",
      "--design=counter"]
    let files := FileSystem.initial
    ∃ found config, Spells arguments found ∧ (∀ occurrence ∈ found, occurrence.Valid) ∧
      Once found ∧ Below found files {} ∧ (∀ other, Effective found {} other ↔ other = config) ∧
      config.maxCycles = 2 ∧ config.echoState = false ∧
      (invoke arguments files Device.accepting).status = 0 ∧
      invoke reordered files Device.accepting = invoke arguments files Device.accepting := by
  intro arguments reordered files
  let found : List Occurrence :=
    [.switch .quiet, .setting .cycles "2", .setting .trace "t.vcd", .setting .design "counter",
      .setting .depth "3", .switch .waveform, .setting .dump "out.bin,0,8"]
  let found' : List Occurrence :=
    [.switch .waveform, .switch .quiet, .setting .dump "out.bin,0,8", .setting .depth "3",
      .setting .trace "t.vcd", .setting .cycles "2", .setting .design "counter"]
  have perm : found'.Perm found := by decide
  have options : ∀ occurrence ∈ found, occurrence.IsOption := by
    simp [found, Occurrence.IsOption]
  have spelled : Spells arguments found := (spells_iff _ _).mpr ⟨by decide, options⟩
  have spelled' : Spells reordered found' :=
    (spells_iff _ _).mpr ⟨by decide, fun occurrence known =>
      options occurrence (perm.mem_iff.mp known)⟩
  have valid : ∀ occurrence ∈ found, occurrence.Valid := by
    simp only [found, List.forall_mem_cons]
    exact ⟨.switch _, .cycles rfl, .trace (by decide), .design (Bundled.ofName_name .counter),
      .depth rfl, .switch _, .dump rfl, List.forall_mem_nil _⟩
  have once : Once found := by decide
  have below : Below found files {} := ⟨by simp [found], fun _ => rfl⟩
  obtain ⟨runs, same⟩ :=
    invoke_runs_effective_config spelled valid once files Device.accepting
  obtain ⟨config, unique, -, status, -⟩ := runs {} below
  have effective := (unique config).mpr rfl
  have cycles : config.maxCycles = 2 :=
    Option.some.inj ((effective.maxCycles.given "2" (by simp [found])).symm.trans rfl)
  have depth : config.memoryDepth = 3 :=
    Option.some.inj ((effective.memoryDepth.given "3" (by simp [found])).symm.trans rfl)
  have image : config.initialMemory = none := effective.initialMemory.absent (by simp [found])
  have positive : 0 < config.memoryDepth.toNat := by
    rw [depth]
    decide
  have loads : config.Loads positive files := by
    intro path named
    cases image.symm.trans named
  have silent : config.echoState ≠ true := fun echo =>
    (effective.echoState.mp echo).2 (by simp [found])
  exact ⟨found, config, spelled, valid, once, below, unique, cycles, Bool.eq_false_iff.mpr silent,
    status.mpr ⟨positive, loads⟩, same _ _ spelled' perm⟩

end CommandLine

end Testbench
