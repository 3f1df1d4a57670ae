import Testbench.Proofs.Run.Tracing

/-! A run in one line for each thing it leaves behind. Once the design is loaded, the number of
cycles follows from the design alone; with it, the state lines, the samples of the trace and the
dump are known, and the output and the files are what writing them in this order comes to. Two
runs are compared by comparing their accounts. -/
namespace Testbench

/-- An output that takes state lines, and whether they still go there. -/
structure Printout (ω : Type) where
  out : ω
  echo : Bool

namespace Printout

variable {ω : Type} [Sink ω]

/-- The first line that is refused is the last one to be tried. -/
def print (printout : Printout ω) (line : String) : Printout ω :=
  if printout.echo then
    match Sink.put (line ++ "\n").toUTF8 printout.out with
    | (.ok _, out) => { printout with out }
    | (.error _, out) => ⟨out, false⟩
  else printout

def report (cycles : Nat) (printout : Printout ω) : ω :=
  (Sink.put ("ran for " ++ Text.decimal cycles ++ " cycles\n").toUTF8 printout.out).2

end Printout

def Design.stateLines {σ : Type u} (design : Design σ) (start : σ) (cycles : Nat) : List String :=
  (List.range cycles).map fun c => design.stateLine ((design.tick false)^[c + 1] start)

theorem Design.stateLines_succ {σ : Type u} (design : Design σ) (start : σ) (cycles : Nat) :
    design.stateLines start (cycles + 1) =
      design.stateLine (design.tick false start) ::
        design.stateLines (design.tick false start) cycles := by
  simp [stateLines, List.range_succ_eq_map, Function.comp_def]

def Image.dumpIf (request : Option Dump.Request) (files : FileSystem) (image : Image) :
    Option Dump.Report × FileSystem :=
  match request with
  | none => (none, files)
  | some request => (some (image.dump request files).1, (image.dump request files).2.1)

/-- What a run returns and leaves behind. -/
structure Account (σ : Type u) (ω : Type) where
  summary : Summary
  state : σ
  files : FileSystem
  out : ω

def Design.account {σ : Type u} {ω : Type} [Sink ω] (design : Design σ) (config : Config)
    (loaded : σ) (cycles : Nat) (halted : Bool) (files : FileSystem) (out : ω) : Account σ ω :=
  let start := design.tick true loaded
  let final := (design.tick false)^[cycles] start
  let traced := (Session.tracedCapture design config files loaded cycles).close
  let dumped := (design.memory final).dumpIf config.dump traced.2
  { summary := ⟨cycles, halted, traced.1, dumped.1⟩
    state := final
    files := dumped.2
    out := ((design.stateLines start cycles).foldl Printout.print
      ⟨out, config.echoState⟩).report cycles }

namespace Session

variable {σ : Type u} {ω : Type}

def printout (session : Session σ ω) : Printout ω :=
  ⟨session.out, session.echo⟩

theorem printout_openTrace (design : Design σ) (config : Config) (session : Session σ ω) :
    (session.openTrace design config).printout = session.printout := by
  unfold openTrace
  split
  · dsimp only
    split <;> rfl
  · rfl

theorem printout_recordWith (design : Design σ)
    (write : Frame → FileRecorder → Except IoError Unit × FileRecorder)
    (failed : IoError → Event) (session : Session σ ω) :
    (session.recordWith design write failed).printout = session.printout := by
  unfold recordWith
  split
  · rfl
  · dsimp only
    split <;> rfl

theorem printout_checkHalt (design : Design σ) (number : Nat) (session : Session σ ω) :
    (session.checkHalt design number).2.printout = session.printout := by
  unfold checkHalt
  dsimp only
  split <;> rfl

theorem printout_closeTrace (session : Session σ ω) :
    session.closeTrace.2.printout = session.printout := by
  unfold closeTrace
  split
  · rfl
  · split <;> rfl

theorem printout_dumpMemory (design : Design σ) (config : Config) (session : Session σ ω) :
    (session.dumpMemory design config).2.printout = session.printout := by
  unfold dumpMemory
  split <;> rfl

theorem printout_reset (design : Design σ) (config : Config) (session : Session σ ω) :
    (session.reset design config).printout = session.printout := by
  unfold reset
  exact (printout_recordWith design _ _ _).trans (printout_openTrace design config session)

theorem dumpMemory_eq (design : Design σ) (config : Config) (session : Session σ ω) :
    (session.dumpMemory design config).1 =
        ((design.memory session.state).dumpIf config.dump session.capture.release).1 ∧
      (session.dumpMemory design config).2.capture.release =
        ((design.memory session.state).dumpIf config.dump session.capture.release).2 := by
  unfold dumpMemory Image.dumpIf
  cases config.dump with
  | none => exact ⟨rfl, rfl⟩
  | some request => exact ⟨rfl, rfl⟩

variable [Sink ω]

theorem printout_printState (design : Design σ) (session : Session σ ω) :
    (session.printState design).printout =
      session.printout.print (design.stateLine session.state) := by
  unfold printState Printout.print printout
  dsimp only
  split
  · rename_i echoes
    cases Sink.put (design.stateLine session.state ++ "\n").toUTF8 session.out with
    | mk result _ => cases result <;> simp [echoes]
  · rfl

theorem printout_cycle (design : Design σ) (number : Nat) (session : Session σ ω) :
    (session.cycle design number).printout =
      session.printout.print (design.stateLine (design.tick false session.state)) := by
  unfold cycle
  exact (printout_recordWith design _ _ _).trans (printout_printState design _)

theorem printout_round (design : Design σ) (number : Nat) (session : Session σ ω) :
    (session.round design number).printout =
      session.printout.print (design.stateLine (design.tick false session.state)) :=
  (printout_checkHalt design number _).trans (printout_cycle design number session)

theorem printout_loop (design : Design σ) (budget done : Nat) (session : Session σ ω) :
    (session.loop design budget done).2.2.printout =
      (design.stateLines session.state (design.cyclesWithin budget session.state)).foldl
        Printout.print session.printout := by
  induction budget generalizing done session with
  | zero => rfl
  | succ budget ih =>
    have printed := printout_round design (done + 1) session
    rw [loop_succ, design.cyclesWithin_succ]
    split
    · exact printed
    · rw [ih, state_round, printed, design.stateLines_succ]
      rfl

theorem out_report (cycles : Nat) (halted : Bool) (session : Session σ ω) :
    (session.report cycles halted).out = session.printout.report cycles := by
  unfold report Printout.report printout
  dsimp only
  split <;> rename_i h <;> rw [h]

theorem simulate_account (design : Design σ) (config : Config) (session : Session σ ω)
    {files : FileSystem} (idle : session.capture = .idle files)
    (echo : session.echo = config.echoState) :
    let budget := config.maxCycles.toNat
    let start := design.tick true session.state
    let simulated := session.simulate design config
    let account := design.account config session.state (design.cyclesWithin budget start)
      (design.haltsWithin budget start) files session.out
    simulated.1 = account.summary ∧ simulated.2.state = account.state ∧
      simulated.2.capture.release = account.files ∧ simulated.2.out = account.out := by
  intro budget start simulated account
  have started := congrArg Core.state (core_reset design config session)
  have state : (session.reset design config).state = start := started
  obtain ⟨cycles, halts, core⟩ := loop_core design budget 0 (session.reset design config)
  have captured := capture_loop design budget 0 (session.reset design config)
  have printed := printout_loop design budget 0 (session.reset design config)
  rw [state, Nat.zero_add] at cycles
  rw [state] at halts core captured printed
  rw [capture_reset design config idle] at captured
  rw [printout_reset] at printed
  simp only [simulated, simulate_eq]
  generalize (session.reset design config).loop design config.maxCycles.toNat 0 = looped at *
  obtain ⟨count, halted, last⟩ := looped
  dsimp only at cycles halts core captured printed ⊢
  subst cycles halts
  have final : last.state = account.state := by
    rw [show last.state = last.core.state from rfl, core, Core.iterate_clock]
    show (design.tick false)^[_] (session.reset design config).state = _
    rw [state]
    rfl
  obtain ⟨counted, closed⟩ := closeTrace_eq (last.enter .draining)
  have traced : (last.enter .draining).capture.close = (tracedCapture design config files
      session.state (design.cyclesWithin budget start)).close := congrArg Capture.close captured
  rw [traced] at counted closed
  have closedState := congrArg Core.state (core_closeTrace (last.enter .draining))
  have closedPrintout := printout_closeTrace (last.enter .draining)
  generalize (last.enter .draining).closeTrace = drained at *
  obtain ⟨records, next⟩ := drained
  obtain ⟨dump, dumped⟩ := dumpMemory_eq design config (next.enter .dumping)
  have dumpedState := congrArg Core.state (core_dumpMemory design config (next.enter .dumping))
  have dumpedPrintout := printout_dumpMemory design config (next.enter .dumping)
  have released : (next.enter .dumping).capture.release = (tracedCapture design config files
      session.state (design.cyclesWithin budget start)).close.2 := congrArg Capture.release closed
  have memory : (next.enter .dumping).state = account.state := closedState.trans final
  rw [released, memory] at dump dumped
  generalize (next.enter .dumping).dumpMemory design config = ended at *
  obtain ⟨report, done⟩ := ended
  have reported := core_report (design.cyclesWithin budget start)
    (design.haltsWithin budget start) (done.enter .terminated)
  refine ⟨?_, ?_, ?_, ?_⟩
  · show Summary.mk _ _ records report = _
    rw [show records = _ from counted, show report = _ from dump]
    rfl
  · exact (congrArg Core.state reported).trans (dumpedState.trans memory)
  · rw [capture_report]
    exact dumped
  · rw [out_report]
    show done.printout.report _ = _
    rw [show done.printout = last.printout from dumpedPrintout.trans closedPrintout, printed,
      printout, echo]
    rfl

end Session

namespace Bench

variable {σ : Type u} {ω : Type} [Sink ω]

omit [Sink ω] in
theorem printout_prepare (bench : Bench σ) (files : FileSystem) (out : ω) :
    (bench.prepare files out).2.printout = ⟨out, bench.config.echoState⟩ := by
  unfold prepare
  dsimp only
  split <;> rfl

theorem out_run_of_loaded (bench : Bench σ) (files : FileSystem) (out : ω)
    (loads : (bench.loaded files).1 = .ok ()) :
    (bench.run files out).out =
      ((bench.prepare files out).2.simulate bench.design bench.config).2.out :=
  congrArg Outcome.out (bench.run_eq_of_loaded files out loads)

theorem run_account (bench : Bench σ) {files : FileSystem} {loaded : σ} (out : ω)
    (loads : bench.loaded files = (.ok (), loaded)) :
    let budget := bench.config.maxCycles.toNat
    let start := bench.design.tick true loaded
    let account := bench.design.account bench.config loaded
      (bench.design.cyclesWithin budget start) (bench.design.haltsWithin budget start) files out
    let outcome := bench.run files out
    outcome.result = .ok account.summary ∧ outcome.bench.state = account.state ∧
      outcome.files = account.files ∧ outcome.out = account.out := by
  intro budget start account outcome
  have succeeds : (bench.loaded files).1 = .ok () := congrArg Prod.fst loads
  obtain ⟨result, core, -, -⟩ := bench.run_of_loaded files out succeeds
  have left : outcome.files = _ := bench.files_run_of_loaded files out succeeds
  have written : outcome.out = _ := bench.out_run_of_loaded files out succeeds
  have reached : outcome.bench.state = _ := congrArg Core.state core
  have printout := bench.printout_prepare files out
  have prepared : (bench.prepare files out).2.state = (bench.loaded files).2 :=
    congrArg Core.state (bench.prepare_core files out).2
  have given : (bench.prepare files out).2.out = out := congrArg Printout.out printout
  have simulated := Session.simulate_account bench.design bench.config
    (bench.prepare files out).2 (bench.capture_prepare files out) (congrArg Printout.echo printout)
  rw [prepared, given, loads] at simulated
  obtain ⟨summary, state, released, printed⟩ := simulated
  exact ⟨result.trans (congrArg _ summary), reached.trans state, left.trans released,
    written.trans printed⟩

end Bench

end Testbench
