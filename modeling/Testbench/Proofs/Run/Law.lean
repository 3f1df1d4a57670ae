import Testbench.Proofs.Design.Halting
import Testbench.Proofs.Run.Core
import Testbench.Sink.Device

/-! What a run does to its design, for every design and whatever the outputs answer: it
initialises the design, loads its memory, resets it for one tick and clocks it until the
first halt or the end of the budget. Over successive runs the phases form one chain. -/
namespace Testbench

namespace Session

variable {σ : Type u} {ω : Type} [Sink ω]

omit [Sink ω] in
theorem checkHalt_fst (design : Design σ) (number : Nat) (session : Session σ ω) :
    (session.checkHalt design number).1 = design.halted session.state := by
  unfold checkHalt
  dsimp only
  split <;> rename_i h
  · exact h.symm
  · exact (Bool.eq_false_iff.mpr h).symm

/-- A cycle, and the look at the halt output behind it. -/
def round (design : Design σ) (number : Nat) (session : Session σ ω) : Session σ ω :=
  ((session.cycle design number).checkHalt design number).2

theorem core_round (design : Design σ) (number : Nat) (session : Session σ ω) :
    (session.round design number).core = session.core.clock design false :=
  (core_checkHalt design number _).trans (core_cycle design number session)

theorem state_round (design : Design σ) (number : Nat) (session : Session σ ω) :
    (session.round design number).state = design.tick false session.state :=
  congrArg Core.state (core_round design number session)

theorem loop_succ (design : Design σ) (budget done : Nat) (session : Session σ ω) :
    session.loop design (budget + 1) done =
      if design.halted (design.tick false session.state) then
        (done + 1, true, session.round design (done + 1))
      else (session.round design (done + 1)).loop design budget (done + 1) := by
  have answer := checkHalt_fst design (done + 1) (session.cycle design (done + 1))
  have state : (session.cycle design (done + 1)).state = design.tick false session.state :=
    congrArg Core.state (core_cycle design (done + 1) session)
  rw [state] at answer
  rw [loop, round]
  split <;> rename_i h <;> rw [h] at answer ⊢
  · rw [if_pos answer.symm]
  · rw [if_neg (ne_true_of_eq_false answer.symm)]

theorem loop_core (design : Design σ) (budget done : Nat) (session : Session σ ω) :
    (session.loop design budget done).1 = done + design.cyclesWithin budget session.state ∧
      (session.loop design budget done).2.1 = design.haltsWithin budget session.state ∧
      (session.loop design budget done).2.2.core =
        (Core.clock design false)^[design.cyclesWithin budget session.state] session.core := by
  induction budget generalizing done session with
  | zero => exact ⟨rfl, rfl, rfl⟩
  | succ budget ih =>
    have moved := core_round design (done + 1) session
    rw [loop_succ, design.cyclesWithin_succ, design.haltsWithin_succ]
    cases design.halted (design.tick false session.state) with
    | true => exact ⟨rfl, rfl, moved⟩
    | false =>
      obtain ⟨cycles, halted, core⟩ := ih (done + 1) (session.round design (done + 1))
      rw [state_round] at cycles halted core
      refine ⟨cycles.trans (by rw [Nat.add_right_comm]; rfl), halted, ?_⟩
      rw [moved] at core
      exact core

def reset (design : Design σ) (config : Config) (session : Session σ ω) : Session σ ω :=
  ((((session.openTrace design config).enter .resetting).clock design true).recordBaseline
    design).enter .running

theorem simulate_eq (design : Design σ) (config : Config) (session : Session σ ω) :
    session.simulate design config =
      let looped := (session.reset design config).loop design config.maxCycles.toNat 0
      let closed := (looped.2.2.enter .draining).closeTrace
      let dumped := (closed.2.enter .dumping).dumpMemory design config
      (⟨looped.1, looped.2.1, closed.1, dumped.1⟩,
        (dumped.2.enter .terminated).report looped.1 looped.2.1) :=
  rfl

omit [Sink ω] in
theorem core_reset (design : Design σ) (config : Config) (session : Session σ ω) :
    (session.reset design config).core =
      ((session.core.enter .resetting).clock design true).enter .running := by
  unfold reset
  rw [core_enter, core_recordBaseline, core_clock, core_enter, core_openTrace]

def finalCore (design : Design σ) (cycles : Nat) (core : Core σ) : Core σ :=
  (((Core.clock design false)^[cycles]
    (((core.enter .resetting).clock design true).enter .running)).enter .draining).enter .dumping
    |>.enter .terminated

omit [Sink ω] in
theorem finalCore_eq (design : Design σ) (cycles : Nat) (core : Core σ) :
    finalCore design cycles core =
      { state := (design.tick false)^[cycles] (design.tick true core.state)
        moves := core.moves ++ Call.tick true ++
          (List.replicate cycles (Call.tick false)).flatten
        phase := .terminated
        transitions := core.transitions ++
          [(core.phase, .resetting), (.resetting, .running), (.running, .draining),
            (.draining, .dumping), (.dumping, .terminated)] } := by
  unfold finalCore
  rw [Core.iterate_clock]
  simp [Core.enter, Core.clock]

theorem simulate_core (design : Design σ) (config : Config) (session : Session σ ω) :
    let budget := config.maxCycles.toNat
    let start := design.tick true session.state
    let simulated := session.simulate design config
    simulated.1.cycles = design.cyclesWithin budget start ∧
      simulated.1.halted = design.haltsWithin budget start ∧
      simulated.2.core = finalCore design simulated.1.cycles session.core := by
  have started := core_reset design config session
  have state : (session.reset design config).state = design.tick true session.state :=
    congrArg Core.state started
  obtain ⟨cycles, halts, core⟩ :=
    loop_core design config.maxCycles.toNat 0 (session.reset design config)
  rw [state, Nat.zero_add] at cycles
  rw [state] at halts core
  intro budget start simulated
  refine ⟨cycles, halts, ?_⟩
  have final : simulated.1.cycles = design.cyclesWithin budget start := cycles
  unfold finalCore
  rw [final, ← started, ← core]
  simp only [simulated, simulate_eq, core_report, core_enter, core_dumpMemory, core_closeTrace]

end Session

/-- Phase changes that follow one another, from a first phase to a last. -/
def Linked : Phase → List (Phase × Phase) → Phase → Prop
  | first, [], last => first = last
  | first, (source, target) :: rest, last => source = first ∧ Linked target rest last

theorem Linked.append {first middle last : Phase} {before after : List (Phase × Phase)}
    (left : Linked first before middle) (right : Linked middle after last) :
    Linked first (before ++ after) last := by
  induction before generalizing first with
  | nil =>
    cases left
    exact right
  | cons step rest ih => exact ⟨left.1, ih left.2⟩

namespace Outcome

variable {σ : Type u} {ω : Type}

def core (outcome : Outcome σ ω) : Core σ :=
  ⟨outcome.bench.state, outcome.calls.toList.filter Call.moves, outcome.bench.phase,
    transitions outcome.events.toList⟩

end Outcome

namespace Bench

variable {σ : Type u} {ω : Type}

/-- How the load before the first clock edge ends and what it leaves of the design. -/
def loaded (bench : Bench σ) (files : FileSystem) : Except Fault Unit × σ :=
  let state := bench.design.init bench.state
  match bench.config.initialMemory with
  | none => (.ok (), state)
  | some path =>
    let (result, image, _) := (bench.design.memory state).load path files
    (result.map fun _ => (), bench.design.withMemory image state)

def loadMoves (bench : Bench σ) : List Call :=
  match bench.config.initialMemory with
  | none => [.init]
  | some _ => [.init, .withMemory]

theorem transitions_load (image : Image) (path : String) (files : FileSystem) :
    transitions (image.load path files).2.2 = [] := by
  unfold Image.load
  split
  · rfl
  · split <;> rfl

def preparedCore (bench : Bench σ) (files : FileSystem) : Core σ :=
  ⟨(bench.loaded files).2, bench.loadMoves, .initializing, [(bench.phase, .initializing)]⟩

theorem prepare_core (bench : Bench σ) (files : FileSystem) (out : ω) :
    (bench.prepare files out).1 = (bench.loaded files).1 ∧
      (bench.prepare files out).2.core = bench.preparedCore files := by
  obtain ⟨design, config, state, phase⟩ := bench
  unfold prepare preparedCore loaded loadMoves
  dsimp only
  cases config.initialMemory with
  | none => exact ⟨rfl, rfl⟩
  | some path =>
    have quiet := transitions_load (design.memory (design.init state)) path files
    refine ⟨rfl, ?_⟩
    simp only [Session.core, Array.toList_appendList, transitions_append, quiet, List.append_nil]
    rfl

variable [Sink ω]

theorem run_eq_of_loaded (bench : Bench σ) (files : FileSystem) (out : ω)
    (loads : (bench.loaded files).1 = .ok ()) :
    let simulated := (bench.prepare files out).2.simulate bench.design bench.config
    bench.run files out =
      { result := .ok simulated.1
        bench := ⟨bench.design, bench.config, simulated.2.state, simulated.2.phase⟩
        files := simulated.2.capture.release
        out := simulated.2.out
        events := simulated.2.events
        calls := simulated.2.calls } := by
  have prepared := (bench.prepare_core files out).1
  rw [loads] at prepared
  unfold run
  dsimp only
  split <;> rename_i h <;> rw [h] at prepared
  · cases prepared
  · rw [h]

theorem run_of_loaded (bench : Bench σ) (files : FileSystem) (out : ω)
    (loads : (bench.loaded files).1 = .ok ()) :
    let simulated := (bench.prepare files out).2.simulate bench.design bench.config
    let outcome := bench.run files out
    outcome.result = .ok simulated.1 ∧ outcome.core = simulated.2.core ∧
      outcome.bench.design = bench.design ∧ outcome.bench.config = bench.config := by
  intro simulated outcome
  have ended : outcome = _ := bench.run_eq_of_loaded files out loads
  rw [ended]
  exact ⟨rfl, rfl, rfl, rfl⟩

theorem run_of_fault (bench : Bench σ) (files : FileSystem) (out : ω) (fault : Fault)
    (fails : (bench.loaded files).1 = .error fault) :
    let outcome := bench.run files out
    outcome.result = .error fault ∧ outcome.core = bench.preparedCore files ∧
      outcome.bench.design = bench.design ∧ outcome.bench.config = bench.config := by
  obtain ⟨prepared, core⟩ := bench.prepare_core files out
  rw [fails] at prepared
  unfold run
  dsimp only
  split <;> rename_i h <;> rw [h] at prepared core
  · cases prepared
    exact ⟨rfl, core, rfl, rfl⟩
  · cases prepared

theorem loads_of_result (bench : Bench σ) (files : FileSystem) (out : ω) {summary : Summary}
    (succeeds : (bench.run files out).result = .ok summary) : (bench.loaded files).1 = .ok () := by
  cases h : (bench.loaded files).1 with
  | ok _ => rfl
  | error fault =>
    rw [(bench.run_of_fault files out fault h).1] at succeeds
    cases succeeds

/-- Benches that come out of any number of runs, one after the other, each with its own
files and output, and what these runs announced. -/
inductive Runs : Bench σ → List Event → Bench σ → Prop
  | none (bench : Bench σ) : Runs bench [] bench
  | run {ω : Type} [Sink ω] {bench last : Bench σ} {events : List Event} (files : FileSystem)
      (out : ω) (rest : Runs (bench.run files out).bench events last) :
      Runs bench ((bench.run files out).events.toList ++ events) last

theorem linked_run (bench : Bench σ) (files : FileSystem) (out : ω) :
    Linked bench.phase (transitions (bench.run files out).events.toList)
      (bench.run files out).bench.phase := by
  change Linked bench.phase (bench.run files out).core.transitions (bench.run files out).core.phase
  cases h : (bench.loaded files).1 with
  | error fault =>
    rw [(bench.run_of_fault files out fault h).2.1]
    exact ⟨rfl, rfl⟩
  | ok _ =>
    rw [(bench.run_of_loaded files out h).2.1,
      (Session.simulate_core bench.design bench.config _).2.2, (bench.prepare_core files out).2,
      Session.finalCore_eq]
    exact ⟨rfl, rfl, rfl, rfl, rfl, rfl, rfl⟩

theorem linked_runs {bench last : Bench σ} {events : List Event} (runs : Runs bench events last) :
    Linked bench.phase (transitions events) last.phase := by
  induction runs with
  | none bench => rfl
  | run files out rest ih =>
    rw [transitions_append]
    exact (linked_run _ files out).append ih

/-- A run whose load succeeds clocks the design until it halts or the budget is spent, and
does nothing else to it, whatever the outputs do. -/
theorem run_clocks_until_halt (bench : Bench σ) :
    (∀ {ω : Type} [Sink ω] (files : FileSystem) (out : ω), (bench.loaded files).1 = .ok () →
      let budget := bench.config.maxCycles.toNat
      let start := bench.design.tick true (bench.loaded files).2
      let outcome := bench.run files out
      ∃ summary, outcome.result = .ok summary ∧
        (summary.cycles : ℕ∞) = min (budget : ℕ∞) (bench.design.firstHalt start) ∧
        (summary.halted = true ↔ bench.design.firstHalt start ≤ budget) ∧
        outcome.bench = ⟨bench.design, bench.config,
          (bench.design.tick false)^[summary.cycles] start, .terminated⟩ ∧
        outcome.calls.toList.filter Call.moves =
          bench.loadMoves ++ Call.tick true ++
            (List.replicate summary.cycles (Call.tick false)).flatten ∧
        transitions outcome.events.toList =
          [(bench.phase, .initializing), (.initializing, .resetting), (.resetting, .running),
            (.running, .draining), (.draining, .dumping), (.dumping, .terminated)]) ∧
      ∀ events last, Runs bench events last →
        Linked bench.phase (transitions events) last.phase := by
  refine ⟨fun files out loads => ?_, fun _ _ => linked_runs⟩
  intro budget start outcome
  obtain ⟨result, core, design, config⟩ := bench.run_of_loaded files out loads
  have prepared := (bench.prepare_core files out).2
  have state : (bench.prepare files out).2.state = (bench.loaded files).2 :=
    congrArg Core.state prepared
  obtain ⟨cycles, halts, final⟩ :=
    Session.simulate_core bench.design bench.config (bench.prepare files out).2
  rw [state] at cycles halts
  rw [prepared, Session.finalCore_eq] at final
  have moved := core.trans final
  have reached : outcome.bench.state = _ := congrArg Core.state moved
  have phase : outcome.bench.phase = .terminated := congrArg Core.phase moved
  refine ⟨_, result, ?_, ?_, ?_, congrArg Core.moves moved, congrArg Core.transitions moved⟩
  · rw [cycles]
    exact bench.design.cyclesWithin_eq_min budget start
  · rw [halts]
    exact bench.design.haltsWithin_iff budget start
  · calc
      outcome.bench = ⟨outcome.bench.design, outcome.bench.config, outcome.bench.state,
        outcome.bench.phase⟩ := rfl
      _ = _ := by
        rw [design, config, reached, phase]
        rfl

theorem run_clocks_until_loaded_halt :
    let files := FileSystem.initial.addFile ["image"] "06000005 00000000".toUTF8
    let config : Config :=
      { waveform := true
        tracePath := "/dev/full"
        dump := some ⟨"", 0, 8⟩
        initialMemory := some "image" }
    let bench := ofDesign Accumulator.design config (.ofMemory (.zeros 4 (by decide)))
    let out := Device.ofLimit (some 9) false false
    (bench.loaded files).1 = .ok () ∧
      ∃ summary, (bench.run files out).result = .ok summary ∧ summary.cycles = 2 ∧
        summary.halted = true := by
  intro files config bench out
  have loaded : bench.loaded files =
      (.ok (), .ofMemory ⟨#[0x06000005, 0, 0, 0], by decide⟩) := by rfl
  have loads := congrArg Prod.fst loaded
  refine ⟨loads, ?_⟩
  obtain ⟨summary, result, cycles, halts, -⟩ := (run_clocks_until_halt bench).1 files out loads
  rw [loaded] at cycles halts
  have first : bench.design.firstHalt (bench.design.tick true
      (.ofMemory ⟨#[0x06000005, 0, 0, 0], by decide⟩)) = (2 : Nat) := by
    apply le_antisymm
    · exact bench.design.firstHalt_le _ 2 ⟨by decide, by decide⟩
    · apply bench.design.le_firstHalt
      intro cycles before
      match cycles with
      | 0 => exact fun halts => absurd halts.1 (by decide)
      | 1 => exact fun halts => absurd halts.2 (by decide)
  rw [first] at cycles halts
  have within : ((2 : Nat) : ℕ∞) ≤ bench.config.maxCycles.toNat := by
    exact_mod_cast (by decide : 2 ≤ bench.config.maxCycles.toNat)
  rw [min_eq_right within] at cycles
  exact ⟨summary, result, by exact_mod_cast cycles, halts.mpr within⟩

end Bench

end Testbench
