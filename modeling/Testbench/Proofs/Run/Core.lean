import Testbench.Run
import Mathlib.Logic.Function.Iterate

/-! What a run does to the design, apart from what it does to its outputs. The core of a
session is the design's state, the calls that moved it and the phases entered so far.
Every operation on an output leaves the core as it is, whatever the output answers. -/
namespace Testbench

/-- The calls that move a design on; the others only look at it. -/
def Call.moves : Call → Bool
  | .init | .stepLow _ | .stepHigh _ | .withMemory => true
  | .halted | .signals | .sample | .stateLine | .memory => false

def Call.tick (reset : Bool) : List Call :=
  [.stepLow reset, .stepHigh reset]

def Event.transition? : Event → Option (Phase × Phase)
  | .phaseEntered source target => some (source, target)
  | _ => none

def transitions (events : List Event) : List (Phase × Phase) :=
  events.filterMap Event.transition?

@[simp] theorem transitions_append (first second : List Event) :
    transitions (first ++ second) = transitions first ++ transitions second :=
  List.filterMap_append

theorem transitions_cons_of_none {event : Event} (quiet : event.transition? = none)
    (rest : List Event) : transitions (event :: rest) = transitions rest :=
  List.filterMap_cons_none quiet

structure Core (σ : Type u) where
  state : σ
  moves : List Call
  phase : Phase
  transitions : List (Phase × Phase)

namespace Core

variable {σ : Type u}

def clock (design : Design σ) (reset : Bool) (core : Core σ) : Core σ :=
  { core with state := design.tick reset core.state, moves := core.moves ++ Call.tick reset }

def enter (phase : Phase) (core : Core σ) : Core σ :=
  { core with phase, transitions := core.transitions ++ [(core.phase, phase)] }

theorem iterate_clock (design : Design σ) (reset : Bool) (n : Nat) (core : Core σ) :
    (clock design reset)^[n] core =
      { core with
        state := (design.tick reset)^[n] core.state
        moves := core.moves ++ (List.replicate n (Call.tick reset)).flatten } := by
  induction n with
  | zero => simp
  | succ n ih =>
    rw [Function.iterate_succ_apply', Function.iterate_succ_apply', ih]
    simp [clock, List.replicate_succ']

end Core

namespace Session

variable {σ : Type u} {ω : Type}

def core (session : Session σ ω) : Core σ :=
  ⟨session.state, session.calls.toList.filter Call.moves, session.phase,
    transitions session.events.toList⟩

theorem core_enter (phase : Phase) (session : Session σ ω) :
    (session.enter phase).core = session.core.enter phase := by
  simp [core, enter, Core.enter, transitions, Event.transition?]

theorem core_clock (design : Design σ) (reset : Bool) (session : Session σ ω) :
    (session.clock design reset).core = session.core.clock design reset := by
  simp [core, clock, Core.clock, Call.tick, Call.moves]

theorem transitions_start (path : String) (signals : List Signal) (files : FileSystem) :
    transitions (FileRecorder.start path signals files).2 = [] := by
  unfold FileRecorder.start
  split
  · rfl
  · split <;> rfl

theorem core_openTrace (design : Design σ) (config : Config) (session : Session σ ω) :
    (session.openTrace design config).core = session.core := by
  have opened := transitions_start config.tracePath (design.signals session.state)
    session.capture.release
  unfold openTrace
  split
  · dsimp only
    split <;> rename_i h <;> rw [h] at opened
    · simp [core, Call.moves, opened]
    · simp [core, Call.moves, transitions, Event.transition?]
  · rfl

theorem core_recordWith (design : Design σ)
    (write : Frame → FileRecorder → Except IoError Unit × FileRecorder)
    (failed : IoError → Event) (quiet : ∀ error, (failed error).transition? = none)
    (session : Session σ ω) :
    (session.recordWith design write failed).core = session.core := by
  unfold recordWith
  split
  · rfl
  · dsimp only
    split <;> simp [core, Call.moves, transitions, quiet]

theorem core_recordBaseline (design : Design σ) (session : Session σ ω) :
    (session.recordBaseline design).core = session.core :=
  core_recordWith design _ _ (fun _ => rfl) session

theorem core_record (design : Design σ) (cycle : Nat) (session : Session σ ω) :
    (session.record design cycle).core = session.core :=
  core_recordWith design _ _ (fun _ => rfl) session

theorem transitions_close (recorder : FileRecorder) :
    transitions (FileRecorder.close recorder).2.2 = [] := by
  unfold FileRecorder.close
  split <;> rfl

theorem core_closeTrace (session : Session σ ω) : session.closeTrace.2.core = session.core := by
  unfold closeTrace
  split
  · rfl
  · rename_i recorder _
    have closed := transitions_close recorder
    split <;> rename_i h
    · rw [h] at closed
      simp [core, closed]
    · simp [core, transitions, Event.transition?]

theorem transition?_range (image : Image) (length : UInt64) (range : Dump.Range) :
    (range.event image length).transition? = none := by
  unfold Dump.Range.event
  split <;> rfl

theorem transitions_dumpTo [Sink ω] (image : Image) (start length : UInt64) (sink : ω) :
    transitions (image.dumpTo start length sink).2.2 = [] := by
  unfold Image.dumpTo
  dsimp only
  split <;> rw [transitions_cons_of_none (transition?_range ..)] <;> rfl

theorem transitions_dump (image : Image) (request : Dump.Request) (files : FileSystem) :
    transitions (image.dump request files).2.2 = [] := by
  unfold Image.dump
  split
  · rw [transitions_cons_of_none rfl, transitions_cons_of_none (transition?_range ..)]
    rfl
  · rename_i file _
    have written := transitions_dumpTo image request.start request.length file
    dsimp only
    split
    · rw [transitions_append, written]
      rfl
    · exact written

theorem core_dumpMemory (design : Design σ) (config : Config) (session : Session σ ω) :
    (session.dumpMemory design config).2.core = session.core := by
  unfold dumpMemory
  split
  · rfl
  · rename_i request _
    have dumped := transitions_dump (design.memory session.state) request session.capture.release
    split
    rename_i h
    rw [h] at dumped
    simp [core, Call.moves, dumped]

theorem core_checkHalt (design : Design σ) (number : Nat) (session : Session σ ω) :
    (session.checkHalt design number).2.core = session.core := by
  unfold checkHalt
  dsimp only
  split <;> simp [core, Call.moves, transitions, Event.transition?]

variable [Sink ω]

theorem core_printState (design : Design σ) (session : Session σ ω) :
    (session.printState design).core = session.core := by
  unfold printState
  split
  · dsimp only
    split <;> simp [core, Call.moves, transitions, Event.transition?]
  · rfl

theorem core_report (cycles : Nat) (halted : Bool) (session : Session σ ω) :
    (session.report cycles halted).core = session.core := by
  unfold report
  dsimp only
  split <;> simp [core, transitions, Event.transition?]

theorem core_cycle (design : Design σ) (number : Nat) (session : Session σ ω) :
    (session.cycle design number).core = session.core.clock design false := by
  unfold cycle
  rw [core_record, core_printState, core_clock]

end Session

end Testbench
