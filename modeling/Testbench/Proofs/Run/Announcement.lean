import Testbench.Proofs.Run.Budget

/-! What a run announces about its outputs. Whatever is lost is announced at the moment it is lost,
and from then on nobody touches it: a trace that has been given up is never written again, and no
state line is tried behind one that was refused. When a run is over, each loss has been announced
once. -/
namespace Testbench

inductive Notice where
  | traceLost
  | linesLost
  | reportLost
  | dumpLost
  | dumpCut
  | dumpDone
  deriving DecidableEq

def Event.notice? : Event → Option Notice
  | traceUnavailable _ | baselineFailed _ | recordFailed .. | traceIncomplete _ => some .traceLost
  | stateLineFailed _ => some .linesLost
  | reportFailed _ => some .reportLost
  | dumpUnavailable .. | dumpFailed .. => some .dumpLost
  | dumpTruncated .. => some .dumpCut
  | dumpWritten .. => some .dumpDone
  | phaseEntered .. | imageLoaded .. | traceOpened .. | designHalted .. | traceClosed _
  | dumpRange .. | runFinished .. => none

def announced (level : Level) (notice : Notice) (events : List Event) : Nat :=
  events.countP fun event => event.level = level ∧ event.notice? = some notice

/-- One event tells this under the condition, and none otherwise. -/
def AnnouncedOnceIf (level : Level) (notice : Notice) (events : List Event) (condition : Prop) :
    Prop :=
  (condition → announced level notice events = 1) ∧
    (¬condition → announced level notice events = 0)

namespace Notice

def level : Notice → Level
  | traceLost | linesLost | reportLost | dumpCut => .warn
  | dumpLost => .error
  | dumpDone => .info

/-- The number of notices of each kind, if the trace, a state line or the report is lost and the
dump is as reported. -/
def tally (trace lines report : Bool) (dump : Option Dump.Report) : Notice → Nat
  | traceLost => trace.toNat
  | linesLost => lines.toNat
  | reportLost => report.toNat
  | dumpLost => (dump.any fun report => report.status ≠ .complete).toNat
  | dumpCut => (dump.any fun report => report.truncated).toNat
  | dumpDone => (dump.any fun report => report.status = .complete).toNat

theorem tally_add (trace lines report : Bool) (dump : Option Dump.Report) (notice : Notice) :
    notice.tally trace lines false none + notice.tally false false false dump +
        notice.tally false false report none =
      notice.tally trace lines report dump := by
  cases notice <;> simp [tally]

end Notice

theorem Event.level_of_notice? {event : Event} {notice : Notice}
    (tells : event.notice? = some notice) : event.level = notice.level := by
  cases event <;> cases tells <;> rfl

theorem Event.exists_notice_of_level {event : Event}
    (severe : event.level = .warn ∨ event.level = .error) :
    ∃ notice, event.notice? = some notice := by
  cases event with
  | phaseEntered | imageLoaded | traceOpened | designHalted | traceClosed | dumpRange
  | runFinished => simp [level] at severe
  | _ => exact ⟨_, rfl⟩

def notices (events : List Event) : List Notice :=
  events.filterMap Event.notice?

@[simp] theorem notices_nil : notices [] = [] :=
  rfl

@[simp] theorem notices_append (first second : List Event) :
    notices (first ++ second) = notices first ++ notices second :=
  List.filterMap_append

theorem notices_cons (event : Event) (rest : List Event) :
    notices (event :: rest) = event.notice?.toList ++ notices rest := by
  simp only [notices, List.filterMap_cons]
  cases event.notice? <;> rfl

theorem announced_eq_count (notice : Notice) (events : List Event) :
    announced notice.level notice events = (notices events).count notice := by
  induction events with
  | nil => rfl
  | cons event rest ih =>
    rw [announced, List.countP_cons, notices_cons, List.count_append, ← ih, Nat.add_comm]
    congr 1
    cases h : event.notice? with
    | none => simp
    | some told =>
      rw [Event.level_of_notice? h]
      by_cases same : told = notice <;> simp [same]

theorem announcedOnceIf_of_count {events : List Event} {notice : Notice} {lost : Bool}
    {condition : Prop} (count : (notices events).count notice = lost.toNat)
    (iff : lost = true ↔ condition) : AnnouncedOnceIf notice.level notice events condition := by
  unfold AnnouncedOnceIf
  rw [announced_eq_count, count, ← iff]
  cases lost <;> simp

theorem Image.count_notices_dump (image : Image) (request : Dump.Request) (files : FileSystem)
    (notice : Notice) :
    (notices (image.dump request files).2.2).count notice =
      notice.tally false false false (some (image.dump request files).1) := by
  unfold dump
  split
  · cases cut : (Dump.Range.of image request.start request.length).truncated <;>
      cases notice <;>
      simp [notices_cons, Dump.Range.event, Dump.Range.report, Notice.tally, Event.notice?, cut]
  · rename_i file _
    unfold dumpTo
    dsimp only
    split <;>
      cases cut : (Dump.Range.of image request.start request.length).truncated <;>
      cases notice <;>
      simp [notices_cons, Dump.Range.event, Dump.Range.report, Dump.Report.isComplete,
        Notice.tally, Event.notice?, cut]

namespace Sink

variable {ω : Type} [Sink ω]

def putEach : List String → ω → List (Except IoError Unit) × ω
  | [], out => ([], out)
  | piece :: rest, out =>
    let (answer, out) := put piece.toUTF8 out
    let (answers, out) := putEach rest out
    (answer :: answers, out)

end Sink

namespace Printout

variable {ω : Type} [Sink ω]

/-- Lines that were tried in order, until all of them were there or one was refused. -/
structure Tried (lines : List String) (out : ω) (tried : List String)
    (answers : List (Except IoError Unit)) (after : ω) : Prop where
  first : tried <+: lines
  puts : Sink.putEach (tried.map (· ++ "\n")) out = (answers, after)
  last (index : Nat) (error : IoError) (refused : answers[index]? = some (.error error)) :
    index + 1 = tried.length
  all : tried ≠ lines → ∃ error, .error error ∈ answers

namespace Tried

variable {line : String} {lines tried : List String} {answers : List (Except IoError Unit)}
  {error : IoError} {out next after : ω}

theorem nil (out : ω) : Tried [] out [] [] out :=
  ⟨List.prefix_rfl, rfl, nofun, fun differs => absurd rfl differs⟩

theorem cons (accepted : Sink.put (line ++ "\n").toUTF8 out = (.ok (), next))
    (others : Tried lines next tried answers after) :
    Tried (line :: lines) out (line :: tried) (.ok () :: answers) after where
  first := (List.prefix_cons_inj line).mpr others.first
  puts := by simp only [List.map_cons, Sink.putEach, accepted, others.puts]
  last index error refused := by
    cases index with
    | zero => cases refused
    | succ index => exact congrArg (· + 1) (others.last index error refused)
  all differs := by
    obtain ⟨error, refused⟩ := others.all fun same => differs (congrArg _ same)
    exact ⟨error, .tail _ refused⟩

theorem refused (refused : Sink.put (line ++ "\n").toUTF8 out = (.error error, next)) :
    Tried (line :: lines) out [line] [.error error] next where
  first := List.prefix_append [line] lines
  puts := by simp only [List.map_cons, List.map_nil, Sink.putEach, refused]
  last index _ here := by
    cases index with
    | zero => rfl
    | succ _ => cases here
  all _ := ⟨error, .head _⟩

end Tried

theorem tried_foldl_print (lines : List String) (out : ω) :
    let printed := lines.foldl print ⟨out, true⟩
    ∃ tried answers, Tried lines out tried answers printed.out ∧
      (printed.echo = false ↔ ∃ error, .error error ∈ answers) := by
  induction lines generalizing out with
  | nil => exact ⟨[], [], .nil out, by simp⟩
  | cons line rest ih =>
    intro printed
    cases h : Sink.put (line ++ "\n").toUTF8 out with
    | mk answer next =>
      cases answer with
      | ok _ =>
        obtain ⟨tried, answers, others, echo⟩ := ih next
        have step : printed = rest.foldl print ⟨next, true⟩ := by
          simp only [printed, List.foldl_cons, print, h, if_true]
        rw [step]
        exact ⟨line :: tried, .ok () :: answers, .cons h others, by simpa using echo⟩
      | error error =>
        have step : printed = ⟨next, false⟩ := by
          simp only [printed, List.foldl_cons, print, h, if_true]
          exact foldl_print_silent rest next
        rw [step]
        exact ⟨[line], [.error error], .refused h, by simp⟩

end Printout

def Printout.reportLost {ω : Type} [Sink ω] (cycles : Nat) (printout : Printout ω) : Bool :=
  !(Sink.put ("ran for " ++ Text.decimal cycles ++ " cycles\n").toUTF8 printout.out).1.isOk

theorem Printout.reportLost_iff {ω : Type} [Sink ω] (cycles : Nat) (printout : Printout ω) :
    printout.reportLost cycles = true ↔ ∃ error, (Sink.put ("ran for " ++ Text.decimal cycles ++
      " cycles\n").toUTF8 printout.out).1 = .error error := by
  unfold reportLost
  cases (Sink.put _ printout.out).1 <;> simp [Except.isOk, Except.toBool]

theorem Design.tried_printed {σ : Type u} {ω : Type} [Sink ω] (design : Design σ) (echo : Bool)
    (start : σ) (cycles : Nat) (out : ω) :
    let printout := (design.stateLines start cycles).foldl Printout.print ⟨out, echo⟩
    ∃ tried answers,
      Printout.Tried (design.printed echo start cycles) out tried answers printout.out ∧
        ((echo && !printout.echo) = true ↔ ∃ error, .error error ∈ answers) := by
  cases echo with
  | true =>
    obtain ⟨tried, answers, done, echo⟩ :=
      Printout.tried_foldl_print (design.stateLines start cycles) out
    exact ⟨tried, answers, done, by simpa using echo⟩
  | false =>
    rw [Printout.foldl_print_silent]
    exact ⟨[], [], .nil out, by simp⟩

def Capture.isRecording : Capture → Bool
  | .idle _ => false
  | .recording _ => true

namespace Session

variable {σ : Type u} {ω : Type}

/-- While a run is under way, a trace that is not written any more and state lines that are not
printed any more have been announced, and nothing else has. -/
structure Told (config : Config) (session : Session σ ω) : Prop where
  count (notice : Notice) : (notices session.events.toList).count notice =
    notice.tally (config.waveform && !session.capture.isRecording)
      (config.echoState && !session.echo) false none
  traced : session.capture.isRecording = true → config.waveform = true
  echoed : session.echo = true → config.echoState = true

variable {config : Config} {session next : Session σ ω}

theorem Told.of_same (told : Told config session)
    (silent : notices next.events.toList = notices session.events.toList)
    (capture : next.capture = session.capture) (echo : next.echo = session.echo) :
    Told config next := by
  obtain ⟨count, traced, echoed⟩ := told
  refine ⟨fun notice => ?_, ?_, ?_⟩
  · rw [silent, capture, echo, count]
  · rwa [capture]
  · rwa [echo]

theorem notices_enter (phase : Phase) (session : Session σ ω) :
    notices (session.enter phase).events.toList = notices session.events.toList := by
  simp [enter, notices_cons, Event.notice?]

theorem Told.enter (told : Told config session) (phase : Phase) :
    Told config (session.enter phase) :=
  told.of_same (notices_enter phase session) rfl rfl

theorem Told.clock (told : Told config session) (design : Design σ) (reset : Bool) :
    Told config (session.clock design reset) :=
  told.of_same rfl rfl rfl

theorem Told.checkHalt (told : Told config session) (design : Design σ) (number : Nat) :
    Told config (session.checkHalt design number).2 := by
  unfold Session.checkHalt
  dsimp only
  split
  · exact told.of_same (by simp [notices_cons, Event.notice?]) rfl rfl
  · exact told.of_same rfl rfl rfl

theorem notices_start (path : String) (signals : List Signal) (files : FileSystem) :
    notices (FileRecorder.start path signals files).2 = [] := by
  unfold FileRecorder.start
  split
  · rfl
  · split <;> rfl

theorem told_openTrace (design : Design σ) {files : FileSystem}
    (silent : notices session.events.toList = []) (idle : session.capture = .idle files)
    (echo : session.echo = config.echoState) : Told config (session.openTrace design config) := by
  have opened := notices_start config.tracePath (design.signals session.state)
    session.capture.release
  unfold openTrace
  split
  · rename_i traced
    dsimp only
    split <;> rename_i h <;> rw [h] at opened
    · refine ⟨fun notice => ?_, fun _ => traced, echo ▸ id⟩
      cases notice <;> simp [silent, opened, echo, Notice.tally, Capture.isRecording]
    · refine ⟨fun notice => ?_, nofun, echo ▸ id⟩
      cases notice <;> simp [silent, echo, traced, Notice.tally, Capture.isRecording,
        notices_cons, Event.notice?]
  · rename_i untraced
    refine ⟨fun notice => ?_, ?_, echo ▸ id⟩
    · cases notice <;> simp [silent, echo, untraced, Notice.tally]
    · rw [idle]
      exact nofun

theorem Told.recordWith (told : Told config session) (design : Design σ)
    (write : Frame → FileRecorder → Except IoError Unit × FileRecorder)
    {failed : IoError → Event} (tells : ∀ error, (failed error).notice? = some .traceLost) :
    Told config (session.recordWith design write failed) := by
  unfold Session.recordWith
  split
  · exact told
  · rename_i recorder recording
    obtain ⟨count, traced, echoed⟩ := told
    have asked : config.waveform = true := traced (by rw [recording]; rfl)
    dsimp only
    split
    · refine ⟨fun notice => ?_, fun _ => asked, echoed⟩
      rw [count, recording]
      rfl
    · refine ⟨fun notice => ?_, nofun, echoed⟩
      have before := count notice
      cases notice <;> simp_all [Notice.tally, Capture.isRecording, notices_cons]

variable [Sink ω]

theorem Told.printState (told : Told config session) (design : Design σ) :
    Told config (session.printState design) := by
  unfold Session.printState
  split
  · rename_i echoing
    obtain ⟨count, traced, echoed⟩ := told
    have asked := echoed echoing
    dsimp only
    split
    · exact ⟨count, traced, echoed⟩
    · refine ⟨fun notice => ?_, traced, nofun⟩
      have before := count notice
      cases notice <;> simp_all [Notice.tally, notices_cons, Event.notice?]
  · exact told

theorem Told.cycle (told : Told config session) (design : Design σ) (number : Nat) :
    Told config (session.cycle design number) :=
  ((told.clock design false).printState design).recordWith design _ fun _ => rfl

theorem Told.loop (told : Told config session) (design : Design σ) (budget done : Nat) :
    Told config (session.loop design budget done).2.2 := by
  induction budget generalizing done session with
  | zero => exact told
  | succ budget ih =>
    have looked := (told.cycle design (done + 1)).checkHalt design (done + 1)
    rw [Session.loop_succ]
    split
    · exact looked
    · exact ih looked (done + 1)

omit [Sink ω] in
theorem Told.closeTrace (told : Told config session) (notice : Notice) :
    (notices session.closeTrace.2.events.toList).count notice =
      notice.tally (config.waveform && session.closeTrace.1.isNone)
        (config.echoState && !session.echo) false none := by
  obtain ⟨count, traced, -⟩ := told
  have before := count notice
  unfold Session.closeTrace
  split
  · rename_i idle
    rw [before, idle]
    rfl
  · rename_i recorder recording
    have asked : config.waveform = true := traced (by rw [recording]; rfl)
    rw [recording] at before
    have closed : notices (FileRecorder.close recorder).2.2 = [] := by
      unfold FileRecorder.close
      split <;> rfl
    split <;> rename_i h <;> rw [h] at closed
    · cases notice <;> simp_all [Notice.tally, Capture.isRecording]
    · cases notice <;> simp_all [Notice.tally, Capture.isRecording, notices_cons, Event.notice?]

omit [Sink ω] in
theorem count_notices_dumpMemory (design : Design σ) (config : Config) (session : Session σ ω)
    (notice : Notice) :
    (notices (session.dumpMemory design config).2.events.toList).count notice =
      (notices session.events.toList).count notice +
        notice.tally false false false (session.dumpMemory design config).1 := by
  unfold dumpMemory
  split
  · cases notice <;> rfl
  · rename_i request _
    have told := (design.memory session.state).count_notices_dump request session.capture.release
      notice
    dsimp only
    rw [Array.toList_appendList, notices_append, List.count_append, told]

theorem count_notices_report (cycles : Nat) (halted : Bool) (session : Session σ ω)
    (notice : Notice) :
    (notices (session.report cycles halted).events.toList).count notice =
      (notices session.events.toList).count notice +
        notice.tally false false (session.printout.reportLost cycles) none := by
  unfold report Printout.reportLost Session.printout
  dsimp only
  split <;> rename_i h <;> rw [h] <;> cases notice <;>
    simp [Notice.tally, notices_cons, Event.notice?, Except.isOk, Except.toBool]

theorem count_notices_simulate (design : Design σ) {files : FileSystem}
    (silent : notices session.events.toList = []) (idle : session.capture = .idle files)
    (echo : session.echo = config.echoState) (notice : Notice) :
    let simulated := session.simulate design config
    let start := design.tick true session.state
    let printout := (design.stateLines start simulated.1.cycles).foldl Printout.print
      ⟨session.out, config.echoState⟩
    (notices simulated.2.events.toList).count notice =
      notice.tally (config.waveform && simulated.1.traceRecords.isNone)
        (config.echoState && !printout.echo) (printout.reportLost simulated.1.cycles)
        simulated.1.dump := by
  intro simulated start printout
  have state : (session.reset design config).state = start :=
    congrArg Core.state (core_reset design config session)
  have cycles : simulated.1.cycles = design.cyclesWithin config.maxCycles.toNat start :=
    (simulate_core design config session).1
  have looped : Told config ((session.reset design config).loop design
      config.maxCycles.toNat 0).2.2 :=
    ((((told_openTrace design silent idle echo).enter .resetting).clock design true).recordWith
      design _ fun _ => rfl).enter .running |>.loop design _ 0
  let last := ((session.reset design config).loop design config.maxCycles.toNat 0).2.2
  let closed := (last.enter .draining).closeTrace
  let dumped := (closed.2.enter .dumping).dumpMemory design config
  have given : session.printout = ⟨session.out, config.echoState⟩ := by
    rw [Session.printout, echo]
  have lines : last.printout = printout := by
    have printed := printout_loop design config.maxCycles.toNat 0 (session.reset design config)
    rwa [state, ← cycles, printout_reset, given] at printed
  have echoes : last.echo = printout.echo := congrArg Printout.echo lines
  have behind : (dumped.2.enter .terminated).printout = printout :=
    (printout_dumpMemory design config (closed.2.enter .dumping)).trans
      ((printout_closeTrace (last.enter .draining)).trans lines)
  have told := (looped.enter .draining).closeTrace notice
  have dumps := count_notices_dumpMemory design config (closed.2.enter .dumping) notice
  have reports := count_notices_report simulated.1.cycles simulated.1.halted
    (dumped.2.enter .terminated) notice
  rw [notices_enter, dumps, notices_enter, told, behind] at reports
  rw [← echoes]
  exact reports.trans (Notice.tally_add ..)

end Session

namespace Bench

variable {σ : Type u} {ω : Type} [Sink ω]

omit [Sink ω] in
theorem notices_prepare (bench : Bench σ) (files : FileSystem) (out : ω) :
    notices (bench.prepare files out).2.events.toList = [] := by
  unfold prepare
  dsimp only
  split
  · rfl
  · rename_i path _
    have loaded : notices ((bench.design.memory (bench.design.init bench.state)).load path
        files).2.2 = [] := by
      unfold Image.load
      split
      · rfl
      · split <;> rfl
    rw [Array.toList_appendList, notices_append, loaded]
    rfl

theorem count_notices_run (bench : Bench σ) (files : FileSystem) (out : ω) {summary : Summary}
    (succeeds : (bench.run files out).result = .ok summary) (notice : Notice) :
    let outcome := bench.run files out
    let start := bench.design.tick true (bench.loaded files).2
    let printout := (bench.design.stateLines start summary.cycles).foldl Printout.print
      ⟨out, bench.config.echoState⟩
    (notices outcome.events.toList).count notice =
      notice.tally (bench.config.waveform && summary.traceRecords.isNone)
        (bench.config.echoState && !printout.echo) (printout.reportLost summary.cycles)
        summary.dump := by
  have loads := bench.loads_of_result files out succeeds
  have ended := bench.run_eq_of_loaded files out loads
  have printout := bench.printout_prepare files out
  have told := Session.count_notices_simulate bench.design (bench.notices_prepare files out)
    (bench.capture_prepare files out) (congrArg Printout.echo printout) notice
  have state : (bench.prepare files out).2.state = (bench.loaded files).2 :=
    congrArg Core.state (bench.prepare_core files out).2
  have given : (bench.prepare files out).2.out = out := congrArg Printout.out printout
  rw [ended] at succeeds ⊢
  obtain rfl := Except.ok.inj succeeds
  rwa [state, given] at told

/-- Every loss of a run is announced once and nothing else is: a trace that could not be completed,
a state line that was refused, after which no other is tried, a refused report, and a dump that was
cut or not completed. A completed dump is announced as well. -/
theorem run_announces_each_loss_once (bench : Bench σ) (files : FileSystem) (out : ω)
    {summary : Summary} (succeeds : (bench.run files out).result = .ok summary) :
    let outcome := bench.run files out
    let events := outcome.events.toList
    let start := bench.design.tick true (bench.loaded files).2
    let lines := bench.design.printed bench.config.echoState start summary.cycles
    let report := "ran for " ++ Text.decimal summary.cycles ++ " cycles\n"
    AnnouncedOnceIf .warn .traceLost events
        (bench.config.waveform = true ∧ summary.traceRecords = none) ∧
      (∃ tried answers after, Printout.Tried lines out tried answers after ∧
        AnnouncedOnceIf .warn .linesLost events (∃ error, .error error ∈ answers) ∧
        outcome.out = (Sink.put report.toUTF8 after).2 ∧
        AnnouncedOnceIf .warn .reportLost events
          (∃ error, (Sink.put report.toUTF8 after).1 = .error error)) ∧
      AnnouncedOnceIf .error .dumpLost events
        (∃ report, summary.dump = some report ∧ report.status ≠ .complete) ∧
      AnnouncedOnceIf .warn .dumpCut events
        (∃ report, summary.dump = some report ∧ report.truncated = true) ∧
      AnnouncedOnceIf .info .dumpDone events
        (∃ report, summary.dump = some report ∧ report.status = .complete) ∧
      ∀ event ∈ events, event.level = .warn ∨ event.level = .error →
        ∃ notice, event.notice? = some notice := by
  intro outcome events start lines report
  have count := bench.count_notices_run files out succeeds
  obtain ⟨tried, answers, done, refused⟩ :=
    bench.design.tried_printed bench.config.echoState start summary.cycles out
  obtain ⟨result, -, -, written⟩ :=
    bench.run_account out (Prod.ext (bench.loads_of_result files out succeeds) rfl)
  obtain rfl := Except.ok.inj (succeeds.symm.trans result)
  refine ⟨announcedOnceIf_of_count (count .traceLost) ?_,
    ⟨tried, answers, _, done, announcedOnceIf_of_count (count .linesLost) refused, written,
      announcedOnceIf_of_count (count .reportLost) ?_⟩,
    announcedOnceIf_of_count (count .dumpLost) ?_, announcedOnceIf_of_count (count .dumpCut) ?_,
    announcedOnceIf_of_count (count .dumpDone) ?_, fun event _ => event.exists_notice_of_level⟩
  · simp
  · exact Printout.reportLost_iff ..
  all_goals simp [Option.any_eq_true]

theorem run_announces_each_loss_once_of_failing_outputs :
    let config : Config :=
      { waveform := true, tracePath := "", maxCycles := 2, dump := some ⟨"", 0, 64⟩ }
    let bench := ofDesign Counter.design config (.ofMemory (.zeros 3 (by decide)))
    let outcome := bench.run .initial (Device.ofLimit (some 0) false false)
    let events := outcome.events.toList
    outcome.result = .ok ⟨2, false, none, some ⟨16, 0, true, .openFailed⟩⟩ ∧
      announced .warn .traceLost events = 1 ∧ announced .error .dumpLost events = 1 ∧
      announced .warn .dumpCut events = 1 ∧ announced .info .dumpDone events = 0 := by
  intro config bench outcome events
  have result : outcome.result = .ok ⟨2, false, none, some ⟨16, 0, true, .openFailed⟩⟩ := by
    decide
  have told := run_announces_each_loss_once bench .initial (Device.ofLimit (some 0) false false)
    result
  have ran : bench.run .initial (Device.ofLimit (some 0) false false) = outcome := rfl
  -- How the run ends is all that the notices have to be decided from.
  rw [ran] at told
  clear_value outcome
  obtain ⟨trace, -, lost, cut, done, -⟩ := told
  refine ⟨result, trace.1 ⟨rfl, rfl⟩, lost.1 ⟨_, rfl, nofun⟩, cut.1 ⟨_, rfl, rfl⟩, done.2 ?_⟩
  rintro ⟨_, ⟨⟩, ⟨⟩⟩

end Bench

end Testbench
