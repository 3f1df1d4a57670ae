import Testbench.Proofs.Run.Account

/-! Runs of one design under two budgets. Nothing in a cycle looks at the budget, so the run with
the smaller one is the beginning of the other: its cycles, its state lines and the records of its
trace come first there. If it has halted, the larger budget changes nothing at all. -/
namespace Testbench

open Trace

def Printout.text (lines : List String) : List Char :=
  lines.flatMap fun line => line.toList ++ ['\n']

def Printout.reportText (cycles : Nat) : List Char :=
  ("ran for " ++ Text.decimal cycles ++ " cycles\n").toList

namespace Printout

variable {ω : Type} [Sink ω] {accepts : ω → Prop} {contents : ω → ByteArray}

theorem foldl_print_silent (lines : List String) (out : ω) :
    lines.foldl print ⟨out, false⟩ = ⟨out, false⟩ := by
  induction lines with
  | nil => rfl
  | cons line rest ih => exact ih

theorem foldl_print_accepting (accepting : Sink.Accepting accepts contents) (lines : List String)
    {out : ω} (ready : accepts out) :
    ∃ after, lines.foldl print ⟨out, true⟩ = ⟨after, true⟩ ∧
      Sink.Took accepts contents (text lines) out after := by
  induction lines generalizing out with
  | nil => exact ⟨out, rfl, .nothing ready⟩
  | cons line rest ih =>
    obtain ⟨middle, written, one⟩ := accepting.put (line ++ "\n") ready
    obtain ⟨after, others, two⟩ := ih one.ready
    refine ⟨after, ?_, ?_⟩
    · rw [List.foldl_cons, ← others]
      simp only [print, if_true, written]
    · rw [String.toList_append] at one
      exact one.append two

theorem report_foldl_print_accepting (accepting : Sink.Accepting accepts contents)
    (lines : List String) (echo : Bool) (cycles : Nat) {out : ω} (ready : accepts out) :
    Sink.Took accepts contents (text (if echo then lines else []) ++ reportText cycles) out
      ((lines.foldl print ⟨out, echo⟩).report cycles) := by
  have printed : ∃ after, lines.foldl print ⟨out, echo⟩ = ⟨after, echo⟩ ∧
      Sink.Took accepts contents (text (if echo then lines else [])) out after := by
    cases echo with
    | true => exact foldl_print_accepting accepting lines ready
    | false => exact ⟨out, foldl_print_silent lines out, .nothing ready⟩
  obtain ⟨middle, lines, one⟩ := printed
  obtain ⟨after, reported, two⟩ := accepting.put _ one.ready
  rw [lines, report, reported]
  exact one.append two

end Printout

def Design.printed {σ : Type u} (design : Design σ) (echo : Bool) (start : σ) (cycles : Nat) :
    List String :=
  if echo then design.stateLines start cycles else []

def Design.sampled {σ : Type u} (design : Design σ) (start : σ) (cycles : Nat) : Frame :=
  design.sample ((design.tick false)^[cycles] start)

theorem range_take_of_le {fewer more : Nat} (le : fewer ≤ more) :
    List.range fewer <+: List.range more := by
  have first : (List.range more).take fewer = List.range fewer := by
    rw [List.take_range, Nat.min_eq_left le]
  exact first ▸ List.take_prefix fewer (List.range more)

theorem Design.printed_of_le {σ : Type u} (design : Design σ) (echo : Bool) (start : σ)
    {fewer more : Nat} (le : fewer ≤ more) :
    design.printed echo start fewer <+: design.printed echo start more := by
  unfold printed stateLines
  split
  · exact (range_take_of_le le).map _
  · exact List.prefix_rfl

namespace Trace

theorem take_runSamples (frame : Nat → Frame) {fewer more : Nat} (le : fewer ≤ more) :
    (runSamples frame more).take (fewer + 1) = runSamples frame fewer := by
  unfold runSamples cycleSamples
  rw [List.take_succ_cons, ← List.map_take, List.take_range, Nat.min_eq_left le]

theorem render_append (first second : List Record) :
    render (first ++ second) = render first ++ render second := by
  simp [render, renderLines]

def runRecords (signals : List Signal) (frame : Nat → Frame) (cycles : Nat) : List Record :=
  encode (wires signals) [] (runSamples frame cycles)

theorem length_runRecords (signals : List Signal) (frame : Nat → Frame) (cycles : Nat) :
    (runRecords signals frame cycles).length = cycles + 1 := by
  have times := congrArg List.length (decodes_encode signals (runSamples frame cycles)).times
  rw [List.length_map, List.length_map, length_runSamples] at times
  exact times

theorem take_runRecords (signals : List Signal) (frame : Nat → Frame) {fewer more : Nat}
    (le : fewer ≤ more) :
    (runRecords signals frame more).take (fewer + 1) = runRecords signals frame fewer := by
  rw [runRecords, take_encode, take_runSamples frame le, runRecords]

theorem render_runRecords (signals : List Signal) (frame : Nat → Frame) {fewer more : Nat}
    (le : fewer ≤ more) :
    render (runRecords signals frame more) = render (runRecords signals frame fewer) ++
      render ((runRecords signals frame more).drop (fewer + 1)) := by
  rw [← take_runRecords signals frame le, ← render_append, List.take_append_drop]

end Trace

namespace Image

theorem node?_dumpIf_of_ne (image : Image) {request : Option Dump.Request} {files : FileSystem}
    {location : Location}
    (apart : ∀ asked, request = some asked → files.destination? asked.path ≠ some location) :
    (image.dumpIf request files).2.node? location = files.node? location := by
  unfold dumpIf
  split
  · rfl
  · exact image.node?_dump_of_ne (apart _ rfl)

end Image

namespace Session

variable {σ : Type u}

theorem tracedCapture_of_unlimited (design : Design σ) {config : Config} {files : FileSystem}
    (loaded : σ) (cycles : Nat) (traced : config.waveform = true) {file : OpenFile}
    (created : files.create config.tracePath = .ok file) (unlimited : file.Unlimited)
    (regular : files.node? file.location ≠ some .device) :
    let frame := design.sampled (design.tick true loaded)
    let closed := (tracedCapture design config files loaded cycles).close
    closed.1 = some (cycles + 1) ∧
      (∀ other, closed.2.destination? other = files.destination? other) ∧
      closed.2.node? file.location =
        some (.file (Sink.characters (header (design.signals loaded)) ++
          render (runRecords (design.signals loaded) frame cycles)).utf8Encode) := by
  intro frame closed
  obtain ⟨left, completes⟩ := FileRecorder.completes_of_unlimited created unlimited
    (design.signals loaded) (runSamples frame cycles)
  have ended : closed = (some (runSamples frame cycles).length, left) :=
    (tracedCapture_completes_iff design files loaded cycles traced _ left).mpr completes
  obtain ⟨-, opened, final, fresh, same, rfl, contents⟩ := FileRecorder.file_of_completes completes
  have here : opened.location = file.location := by
    have leads := (FileSystem.opened_of_create created).destination
    rw [fresh.destination] at leads
    exact Option.some.inj leads
  rw [ended, ← here, runRecords, ← contents]
  refine ⟨congrArg some length_runSamples, FileSystem.destination?_close fresh same, ?_⟩
  exact FileSystem.node?_close fresh same (here ▸ regular)

end Session

namespace Design

variable {σ : Type u} {ω : Type} [Sink ω]

/-- A run on accepting storage leaves a trace with all its records, unless the dump has gone to
the same file. -/
theorem trace_account (design : Design σ) {config : Config} (loaded : σ) (cycles : Nat)
    (halted : Bool) {files : FileSystem} (out : ω) (traced : config.waveform = true)
    {file : OpenFile} (created : files.create config.tracePath = .ok file)
    (unlimited : file.Unlimited) (regular : files.node? file.location ≠ some .device)
    (apart : ∀ request, config.dump = some request →
      files.destination? request.path ≠ some file.location) :
    (design.account config loaded cycles halted files out).files.node? file.location =
      some (.file (Sink.characters (header (design.signals loaded)) ++
        render (runRecords (design.signals loaded) (design.sampled (design.tick true loaded))
          cycles)).utf8Encode) := by
  obtain ⟨-, destination, contents⟩ :=
    Session.tracedCapture_of_unlimited design loaded cycles traced created unlimited regular
  rw [← contents]
  apply Image.node?_dumpIf_of_ne
  intro request asked
  exact (destination request.path).symm ▸ apart request asked

theorem out_account (design : Design σ) (config : Config) (loaded : σ) (cycles : Nat)
    (halted : Bool) (files : FileSystem) {out : ω} {accepts : ω → Prop} {contents : ω → ByteArray}
    (accepting : Sink.Accepting accepts contents) (ready : accepts out) :
    Sink.Took accepts contents
      (Printout.text (design.printed config.echoState (design.tick true loaded) cycles) ++
        Printout.reportText cycles) out
      (design.account config loaded cycles halted files out).out :=
  Printout.report_foldl_print_accepting accepting _ _ _ ready

end Design

namespace Bench

variable {σ : Type u} {ω : Type} [Sink ω]

def withBudget (budget : UInt64) (bench : Bench σ) : Bench σ :=
  { bench with config := { bench.config with maxCycles := budget } }

/-- The budget of a run decides how many cycles it takes and nothing else. -/
theorem run_withBudget (bench : Bench σ) {files : FileSystem} {loaded : σ} (out : ω)
    (budget : UInt64) (loads : bench.loaded files = (.ok (), loaded)) :
    let start := bench.design.tick true loaded
    let account := bench.design.account bench.config loaded
      (bench.design.cyclesWithin budget.toNat start) (bench.design.haltsWithin budget.toNat start)
      files out
    let outcome := (bench.withBudget budget).run files out
    outcome.result = .ok account.summary ∧ outcome.bench.state = account.state ∧
      outcome.files = account.files ∧ outcome.out = account.out :=
  (bench.withBudget budget).run_account out loads

/-- With a larger budget a run goes the same way further: the cycles, the state lines and the
records of the trace under the smaller budget are the first ones under the larger. A run that has
halted stays as it is. -/
theorem run_extends_to_larger_budget (bench : Bench σ) (files : FileSystem) (out : ω)
    (small large : UInt64) (le : small ≤ large) (loads : (bench.loaded files).1 = .ok ()) :
    let loaded := (bench.loaded files).2
    let lines := bench.design.printed bench.config.echoState (bench.design.tick true loaded)
    let short := (bench.withBudget small).run files out
    let long := (bench.withBudget large).run files out
    ∃ one two, short.result = .ok one ∧ long.result = .ok two ∧
      one.cycles = min small.toNat two.cycles ∧
      lines one.cycles <+: lines two.cycles ∧
      (∀ accepts contents, Sink.Accepting accepts contents → accepts out →
        contents short.out = contents out ++
            (Printout.text (lines one.cycles) ++ Printout.reportText one.cycles).utf8Encode ∧
          contents long.out = contents out ++
            (Printout.text (lines two.cycles) ++ Printout.reportText two.cycles).utf8Encode) ∧
      (bench.config.waveform = true → ∀ file, files.create bench.config.tracePath = .ok file →
        file.Unlimited → files.node? file.location ≠ some .device →
        (∀ request, bench.config.dump = some request →
          files.destination? request.path ≠ some file.location) →
        ∃ bytes more text rest records,
          short.files.node? file.location = some (.file bytes) ∧
          long.files.node? file.location = some (.file (bytes ++ more)) ∧
          bytes = (Sink.characters (header (bench.design.signals loaded)) ++ text).utf8Encode ∧
          more = rest.utf8Encode ∧ read? (text ++ rest) = some records ∧
          records.length = two.cycles + 1 ∧
          read? text = some (records.take (one.cycles + 1))) ∧
      (one.halted = true → two = one ∧ long.out = short.out ∧ long.files = short.files ∧
        long.bench.state = short.bench.state) := by
  intro loaded lines short long
  let design := bench.design
  let start := design.tick true loaded
  let one := design.cyclesWithin small.toNat start
  let two := design.cyclesWithin large.toNat start
  have loads : bench.loaded files = (.ok (), loaded) := Prod.ext loads rfl
  obtain ⟨result, reached, left, written⟩ := bench.run_withBudget out small loads
  obtain ⟨result', reached', left', written'⟩ := bench.run_withBudget out large loads
  have fits : small.toNat ≤ large.toNat := UInt64.le_iff_toNat_le.mp le
  have cycles : one = min small.toNat two := design.cyclesWithin_of_le fits start
  have fewer : one ≤ two := by omega
  refine ⟨_, _, result, result', cycles, design.printed_of_le _ start fewer, ?_, ?_, ?_⟩
  · intro accepts contents accepting ready
    rw [show short.out = _ from written, show long.out = _ from written']
    exact ⟨(design.out_account bench.config loaded one _ files accepting ready).contents_eq,
      (design.out_account bench.config loaded two _ files accepting ready).contents_eq⟩
  · intro traced file created unlimited regular apart
    let signals := design.signals loaded
    have grown := render_runRecords signals (design.sampled start) fewer
    have kept := design.trace_account loaded one (design.haltsWithin small.toNat start) out traced
      created unlimited regular apart
    have kept' := design.trace_account loaded two (design.haltsWithin large.toNat start) out traced
      created unlimited regular apart
    rw [grown, ← List.append_assoc, List.utf8Encode_append] at kept'
    rw [show short.files = _ from left, show long.files = _ from left']
    refine ⟨_, _, _, _, runRecords signals (design.sampled start) two, kept, kept', rfl, rfl, ?_,
      length_runRecords .., ?_⟩
    · exact (congrArg read? grown).symm.trans (read?_render _)
    · exact (read?_render _).trans
        (congrArg some (take_runRecords signals (design.sampled start) fewer).symm)
  · intro halted
    obtain ⟨halts, same⟩ := design.haltsWithin_of_le fits start halted
    have account : design.account bench.config loaded two (design.haltsWithin large.toNat start)
        files out = design.account bench.config loaded one (design.haltsWithin small.toNat start)
        files out := by
      rw [show two = one from same, halts,
        show design.haltsWithin small.toNat start = true from halted]
    exact ⟨congrArg Account.summary account,
      written'.trans ((congrArg Account.out account).trans written.symm),
      left'.trans ((congrArg Account.files account).trans left.symm),
      reached'.trans ((congrArg Account.state account).trans reached.symm)⟩

theorem run_extends_two_cycles_to_three :
    let files := FileSystem.initial
    let config : Config := { waveform := true, dump := some ⟨"memory.bin", 0, 12⟩ }
    let bench := ofDesign Counter.design config (.ofMemory (.zeros 3 (by decide)))
    (2 : UInt64) ≤ 5 ∧ (bench.loaded files).1 = .ok () ∧
      ∃ one two bytes more,
        ((bench.withBudget 2).run files Device.accepting).result = .ok one ∧
        ((bench.withBudget 5).run files Device.accepting).result = .ok two ∧
        one.cycles = 2 ∧ two.cycles = 3 ∧
        ((bench.withBudget 2).run files Device.accepting).files.node? ["trace.vcd", "work"] =
          some (.file bytes) ∧
        ((bench.withBudget 5).run files Device.accepting).files.node? ["trace.vcd", "work"] =
          some (.file (bytes ++ more)) := by
  intro files config bench
  have le : (2 : UInt64) ≤ 5 := by decide
  have loads : (bench.loaded files).1 = .ok () := rfl
  have created : FileSystem.initial.create "trace.vcd" =
      .ok ⟨FileSystem.initial, ["trace.vcd", "work"], true, ByteArray.empty, 0⟩ := by rfl
  have fresh : FileSystem.initial.node? ["trace.vcd", "work"] = none := by rfl
  have elsewhere : FileSystem.initial.destination? "memory.bin" = some ["memory.bin", "work"] := by
    rfl
  have count : Counter.design.cyclesWithin 5 (Counter.design.tick true bench.state) = 3 := by decide
  obtain ⟨one, two, result, result', cycles, -, -, traced, -⟩ :=
    run_extends_to_larger_budget bench files Device.accepting 2 5 le loads
  obtain ⟨bytes, more, -, -, -, kept, kept', -⟩ := traced rfl _ created (fun _ => rfl)
    (fun device => nomatch fresh.symm.trans device) (by
      rintro request ⟨⟩ same
      exact absurd (elsewhere.symm.trans same) (by decide))
  have loaded : bench.loaded files = (.ok (), bench.state) := rfl
  obtain ⟨account, -⟩ := bench.run_withBudget Device.accepting 5 loaded
  have last : two.cycles = 3 :=
    (congrArg Summary.cycles (Except.ok.inj (result'.symm.trans account))).trans count
  rw [last] at cycles
  exact ⟨le, loads, one, two, bytes, more, result, result', cycles, last, kept, kept'⟩

end Bench

end Testbench
