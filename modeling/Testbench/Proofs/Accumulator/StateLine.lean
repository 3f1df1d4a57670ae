import Testbench.Proofs.Accumulator.Consistency
import Testbench.Proofs.Accumulator.WriteLog
import Testbench.Proofs.Run.Budget
import Testbench.Proofs.Text.Layout
import Testbench.Proofs.Text.Numeral

/-! Reading the state lines of the accumulator. A line falls into its fields at the blanks, and each
field says what it is about, so numbers may be wider than their columns and a write may be shown or
not. A fault is not shown together with the halt that it is; this loses nothing because no machine
is ever in the one without the other. -/
namespace Testbench

namespace Accumulator

def field? (name : String) (text : List Char) : Option Nat :=
  (name.toList.isPrefixOf? text).bind (Text.ofDigits? 16)

def writeField? (field : List Char) : Option Write :=
  match field.splitOn ']' with
  | [address, word] => do
    let address ← field? "mem[" address
    let word ← field? "<=" word
    some ⟨address, word⟩
  | _ => none

def lineWrite? (line : List Char) : Option Write :=
  (line.splitOn ' ').findSome? writeField?

structure Shown where
  pc : Nat
  instruction : Nat
  acc : Nat
  write : Option Write
  halted : Bool
  fault : Bool
  deriving DecidableEq, Repr

def Shown.read? (line : List Char) : Option Shown :=
  match line.splitOn ' ' with
  | pc :: instruction :: acc :: rest => do
    let pc ← field? "pc=" pc
    let instruction ← field? "instr=" instruction
    let acc ← field? "acc=" acc
    let fault := rest.contains "FAULT".toList
    let halted := fault || rest.contains "HALT".toList
    some ⟨pc, instruction, acc, rest.findSome? writeField?, halted, fault⟩
  | _ => none

def shown (state : Accumulator) : Shown :=
  ⟨state.registers.pc.toNat, state.instruction.toNat, state.registers.acc.toNat,
    state.sampledWrite?, state.registers.halted, state.registers.fault⟩

def fieldText (name : String) (width : Nat) (word : UInt32) : List Char :=
  name.toList ++ (Text.hexadecimal width word.toNat).toList

def WritePort.fields (port : WritePort) : List (List Char) :=
  if port.enable then [fieldText "mem[" 6 port.address ++ ']' :: fieldText "<=" 8 port.data] else []

def Registers.marks (registers : Registers) : List (List Char) :=
  if registers.fault then ["FAULT".toList] else if registers.halted then ["HALT".toList] else []

def fields (state : Accumulator) : List (List Char) :=
  [fieldText "pc=" 6 state.registers.pc, fieldText "instr=" 8 state.instruction,
    fieldText "acc=" 8 state.registers.acc] ++ (state.port.fields ++ state.registers.marks)

theorem toList_stateLine (state : Accumulator) :
    state.stateLine.toList = [' '].intercalate state.fields := by
  unfold stateLine fields WritePort.fields Registers.marks fieldText
  cases state.port.enable <;> cases state.registers.fault <;> cases state.registers.halted <;>
    simp [List.intercalate_cons_cons]

theorem not_mem_fieldText {c : Char} {name : String} (apart : c ∉ name.toList)
    (other : Text.digit? 16 c = none) (width : Nat) (word : UInt32) :
    c ∉ fieldText name width word := by
  rw [fieldText, List.mem_append]
  exact not_or.mpr ⟨apart, Text.not_mem_hexadecimal other _ _⟩

theorem field?_fieldText (name : String) (width : Nat) (word : UInt32) :
    field? name (fieldText name width word) = some word.toNat := by
  have named : name.toList.isPrefixOf? (fieldText name width word) =
      some (Text.hexadecimal width word.toNat).toList :=
    List.isPrefixOf?_eq_some_iff_append_eq.mpr rfl
  rw [field?, named, Option.bind_some, Text.ofDigits?_hexadecimal]

theorem not_mem_fields {c : Char} (other : Text.digit? 16 c = none)
    (apart : ∀ name ∈ ["pc=", "instr=", "acc=", "mem[", "]<=", "FAULT", "HALT"], c ∉ name.toList)
    (state : Accumulator) : ∀ field ∈ state.fields, c ∉ field := by
  simp only [List.forall_mem_cons] at apart
  obtain ⟨pc, instruction, acc, address, word, fault, halt, -⟩ := apart
  have port : ∀ field ∈ state.port.fields, c ∉ field := by
    unfold WritePort.fields
    split
    · rw [List.forall_mem_singleton, List.mem_append]
      have behind : c ∉ ']' :: fieldText "<=" 8 state.port.data := fun here =>
        (List.mem_append (s := "]<=".toList).mp here).elim word (Text.not_mem_hexadecimal other _ _)
      exact not_or.mpr ⟨not_mem_fieldText address other _ _, behind⟩
    · exact nofun
  have marks : ∀ field ∈ state.registers.marks, c ∉ field := by
    unfold Registers.marks
    split
    · exact List.forall_mem_singleton.mpr fault
    · split
      · exact List.forall_mem_singleton.mpr halt
      · exact nofun
  simp only [fields, List.forall_mem_append, List.forall_mem_cons]
  exact ⟨⟨not_mem_fieldText pc other _ _, not_mem_fieldText instruction other _ _,
    not_mem_fieldText acc other _ _, nofun⟩, port, marks⟩

theorem splitOn_stateLine (state : Accumulator) :
    state.stateLine.toList.splitOn ' ' = state.fields := by
  have apart := not_mem_fields (c := ' ') (by decide) (by decide) state
  rw [toList_stateLine]
  exact List.splitOn_intercalate ' ' apart (by simp [fields])

theorem mem_intercalate_iff {c blank : Char} (other : c ≠ blank) (fields : List (List Char)) :
    c ∈ [blank].intercalate fields ↔ ∃ field ∈ fields, c ∈ field := by
  induction fields with
  | nil => simp
  | cons field rest ih =>
    cases rest with
    | nil => simp
    | cons => simp only [List.intercalate_cons_cons, List.mem_append, List.mem_singleton, other,
        or_false, ih, List.exists_mem_cons_iff]

theorem mem_of_mem_splitOn {c blank : Char} (other : c ≠ blank) {text field : List Char}
    (part : field ∈ text.splitOn blank) (here : c ∈ field) : c ∈ text := by
  have joined : [blank].intercalate (text.splitOn blank) = text := List.intercalate_splitOn blank
  rw [← joined, mem_intercalate_iff other]
  exact ⟨field, part, here⟩

theorem newline_not_mem_stateLine (state : Accumulator) : '\n' ∉ state.stateLine.toList := by
  rw [toList_stateLine, mem_intercalate_iff (by decide)]
  rintro ⟨field, here, newline⟩
  exact not_mem_fields (by decide) (by decide) state field here newline

theorem writeField?_of_not_mem {field : List Char} (apart : ']' ∉ field) :
    writeField? field = none := by
  rw [writeField?, List.splitOn_eq_singleton apart]

theorem writeField?_port (port : WritePort) :
    port.fields.findSome? writeField? =
      if port.enable then some ⟨port.address.toNat, port.data.toNat⟩ else none := by
  have address := field?_fieldText "mem[" 6 port.address
  have word := field?_fieldText "<=" 8 port.data
  have parts : (fieldText "mem[" 6 port.address ++ ']' :: fieldText "<=" 8 port.data).splitOn ']' =
      [fieldText "mem[" 6 port.address, fieldText "<=" 8 port.data] := by
    rw [List.splitOn_append_cons_self,
      List.splitOn_eq_singleton (not_mem_fieldText (by decide) (by decide) _ _),
      List.splitOn_eq_singleton (not_mem_fieldText (by decide) (by decide) _ _)]
    rfl
  unfold WritePort.fields
  split
  · simp [writeField?, parts, address, word]
  · rfl

theorem writeField?_marks (registers : Registers) :
    registers.marks.findSome? writeField? = none := by
  unfold Registers.marks
  split
  · rfl
  · split <;> rfl

theorem writeField?_behind (state : Accumulator) :
    (state.port.fields ++ state.registers.marks).findSome? writeField? = state.sampledWrite? := by
  rw [List.findSome?_append, writeField?_port, writeField?_marks, Option.or_none, sampledWrite?_eq]

theorem lineWrite?_stateLine (state : Accumulator) :
    lineWrite? state.stateLine.toList = state.sampledWrite? := by
  have register (name : String) (apart : ']' ∉ name.toList) (width : Nat) (word : UInt32) :
      writeField? (fieldText name width word) = none :=
    writeField?_of_not_mem (not_mem_fieldText apart (by decide) width word)
  rw [lineWrite?, splitOn_stateLine, fields, List.findSome?_append, writeField?_behind]
  simp only [List.findSome?_cons, register "pc=" (by decide), register "instr=" (by decide),
    register "acc=" (by decide), List.findSome?_nil, Option.none_or]

theorem lineWrite?_of_not_mem {line : List Char} (apart : ']' ∉ line) : lineWrite? line = none := by
  rw [lineWrite?, List.findSome?_eq_none_iff]
  intro field part
  exact writeField?_of_not_mem fun here => apart (mem_of_mem_splitOn (by decide) part here)

theorem contains_behind (mark : List Char) (other : mark.head? ≠ some 'm') (state : Accumulator) :
    (state.port.fields ++ state.registers.marks).contains mark =
      state.registers.marks.contains mark := by
  have apart : mark ∉ state.port.fields := by
    unfold WritePort.fields
    split
    · rw [List.mem_singleton]
      rintro rfl
      exact other rfl
    · exact List.not_mem_nil
  rw [Bool.eq_iff_iff, List.contains_iff_mem, List.contains_iff_mem, List.mem_append,
    or_iff_right apart]

theorem contains_fault (registers : Registers) :
    registers.marks.contains "FAULT".toList = registers.fault := by
  unfold Registers.marks
  cases registers.fault <;> cases registers.halted <;> rfl

theorem contains_halt (registers : Registers) :
    registers.marks.contains "HALT".toList = (registers.halted && !registers.fault) := by
  unfold Registers.marks
  cases registers.fault <;> cases registers.halted <;> rfl

theorem read?_stateLine {state : Accumulator} (consistent : Consistent state) :
    Shown.read? state.stateLine.toList = some state.shown := by
  have halted : (state.registers.fault || (state.registers.halted && !state.registers.fault)) =
      state.registers.halted := by
    have halts := consistent.registers.halted_of_fault
    cases fault : state.registers.fault with
    | true => exact (halts fault).symm
    | false => simp
  have split : state.fields = fieldText "pc=" 6 state.registers.pc ::
      fieldText "instr=" 8 state.instruction :: fieldText "acc=" 8 state.registers.acc ::
        (state.port.fields ++ state.registers.marks) := rfl
  rw [Shown.read?, splitOn_stateLine, split]
  simp only [field?_fieldText, writeField?_behind, contains_behind "FAULT".toList (by decide),
    contains_behind "HALT".toList (by decide), contains_fault, contains_halt, halted,
    Option.bind_eq_bind, Option.bind_some]
  rfl

/-- States with one line agree on what their lines are made of, and on nothing else. -/
theorem stateLine_eq_iff {state other : Accumulator} (consistent : Consistent state)
    (consistent' : Consistent other) :
    state.stateLine = other.stateLine ↔
      state.registers.pc = other.registers.pc ∧ state.instruction = other.instruction ∧
        state.registers.acc = other.registers.acc ∧
        state.registers.halted = other.registers.halted ∧
        state.registers.fault = other.registers.fault ∧ state.port.enable = other.port.enable ∧
        (state.port.enable = true →
          state.port.address = other.port.address ∧ state.port.data = other.port.data) := by
  constructor
  · intro same
    have read := read?_stateLine consistent
    rw [same, read?_stateLine consistent', Option.some.injEq] at read
    have write := congrArg Shown.write read
    simp only [shown, Shown.mk.injEq, UInt32.toNat_inj] at read
    obtain ⟨pc, instruction, acc, -, halted, fault⟩ := read
    simp only [shown, sampledWrite?_eq] at write
    have port : state.port.enable = other.port.enable ∧ (state.port.enable = true →
        state.port.address = other.port.address ∧ state.port.data = other.port.data) := by
      cases enable : state.port.enable <;> cases enable' : other.port.enable <;>
        simp_all [UInt32.toNat_inj]
    exact ⟨pc.symm, instruction.symm, acc.symm, halted.symm, fault.symm, port⟩
  · rintro ⟨pc, instruction, acc, halted, fault, enable, write⟩
    unfold stateLine
    rw [pc, instruction, acc, halted, fault, ← enable]
    cases up : state.port.enable with
    | false => rfl
    | true => rw [(write up).1, (write up).2]

theorem memory_iterate_tick (start : Accumulator) (cycles : Nat) :
    ((design.tick false)^[cycles] start).machine.memory =
      replay start.machine.memory
        ((design.stateLines start cycles).filterMap fun line => lineWrite? line.toList) := by
  induction cycles generalizing start with
  | zero => rfl
  | succ cycles ih =>
    have shows : lineWrite? (design.stateLine (design.tick false start)).toList =
        (design.tick false start).sampledWrite? := lineWrite?_stateLine _
    rw [Function.iterate_succ_apply, ih, Design.stateLines_succ, memory_machine_tick,
      ← replay_append, List.filterMap_cons, shows]
    cases (design.tick false start).sampledWrite? <;> rfl

end Accumulator

theorem Printout.lines_text {lines : List String} (whole : ∀ line ∈ lines, '\n' ∉ line.toList)
    (rest : List Char) :
    Text.lines (text lines ++ rest) = lines.map String.toList ++ Text.lines rest := by
  induction lines with
  | nil => rfl
  | cons line lines ih =>
    rw [List.forall_mem_cons] at whole
    have split : text (line :: lines) ++ rest = line.toList ++ '\n' :: (text lines ++ rest) := by
      simp [text]
    rw [split, Text.lines_newline, Text.lines_of_not_mem whole.1, ih whole.2]
    rfl

namespace Accumulator

theorem filterMap_report (cycles : Nat) :
    (Text.lines (Printout.reportText cycles)).filterMap lineWrite? = [] := by
  have apart : ']' ∉ Printout.reportText cycles := by
    simp only [Printout.reportText, Text.decimal, String.toList_append, String.toList_ofList,
      List.mem_append, not_or]
    refine ⟨⟨by decide, fun here => ?_⟩, by decide⟩
    exact absurd (Nat.isDigit_of_mem_toDigits (by decide) (by decide) here) (by decide)
  rw [List.filterMap_eq_nil_iff]
  intro line part
  exact lineWrite?_of_not_mem fun here => apart (mem_of_mem_splitOn (by decide) part here)

/-- The lines that a run puts out, each of which shows the write of its cycle: up to an earlier
cycle or up to the report, they show all writes that have been made by then. -/
theorem replay_lines (start : Accumulator) (cycles : Nat) :
    let lines := Text.lines
      (Printout.text (design.stateLines start cycles) ++ Printout.reportText cycles)
    let after := fun cycle => (design.tick false)^[cycle] start
    (∀ cycle < cycles, lines[cycle]?.map lineWrite? = some (after (cycle + 1)).sampledWrite?) ∧
      (∀ cycle ≤ cycles, (after cycle).machine.memory =
        replay start.machine.memory ((lines.take cycle).filterMap lineWrite?)) ∧
      (after cycles).machine.memory =
        replay start.machine.memory (lines.filterMap lineWrite?) := by
  intro lines after
  have whole : ∀ line ∈ design.stateLines start cycles, '\n' ∉ line.toList := by
    intro line here
    obtain ⟨cycle, -, rfl⟩ := List.mem_map.mp here
    exact newline_not_mem_stateLine _
  have split : lines = (design.stateLines start cycles).map String.toList ++
      Text.lines (Printout.reportText cycles) := Printout.lines_text whole _
  have count : ((design.stateLines start cycles).map String.toList).length = cycles := by
    simp [Design.stateLines]
  have shown (cycle : Nat) : (after cycle).machine.memory = replay start.machine.memory
      (((design.stateLines start cycle).map String.toList).filterMap lineWrite?) := by
    rw [List.filterMap_map]
    exact memory_iterate_tick start cycle
  refine ⟨fun cycle early => ?_, fun cycle early => ?_, ?_⟩
  · have line : lines[cycle]? = some (after (cycle + 1)).stateLine.toList := by
      rw [split, List.getElem?_append_left (by rwa [count]), List.getElem?_map, Design.stateLines,
        List.getElem?_map, List.getElem?_range early]
      rfl
    rw [line, Option.map_some, lineWrite?_stateLine]
  · have first : lines.take cycle = (design.stateLines start cycle).map String.toList := by
      rw [split, List.take_append_of_le_length (by rwa [count]), ← List.map_take,
        Design.stateLines, ← List.map_take, List.take_range, Nat.min_eq_left early]
      rfl
    rw [first]
    exact shown cycle
  · rw [split, List.filterMap_append, filterMap_report, List.append_nil]
    exact shown cycles

/-- Two states of the accumulator, however they have come about, have the same line exactly if they
agree on the registers, the instruction and the write, if there is one. So the lines that a run
has put out tell its writes, cycle by cycle: made in order on what has been loaded, those of the
first lines give the memory after as many cycles, and those of all lines the memory that the run
leaves. -/
theorem stateLine_is_lossless (memory memory' : Image) (operations operations' : List Operation) :
    let state := design.perform operations (ofMemory memory)
    let other := design.perform operations' (ofMemory memory')
    (state.stateLine = other.stateLine ↔
      state.registers.pc = other.registers.pc ∧ state.instruction = other.instruction ∧
        state.registers.acc = other.registers.acc ∧
        state.registers.halted = other.registers.halted ∧
        state.registers.fault = other.registers.fault ∧ state.port.enable = other.port.enable ∧
        (state.port.enable = true →
          state.port.address = other.port.address ∧ state.port.data = other.port.data)) ∧
    ∀ {ω : Type} [Sink ω] {accepts : ω → Prop} {contents : ω → ByteArray} (config : Config)
        (start : Accumulator) (phase : Phase) (files : FileSystem) (out : ω),
      let bench := Bench.mk design config start phase
      let loaded := (bench.loaded files).2
      let outcome := bench.run files out
      Sink.Accepting accepts contents → accepts out → config.echoState = true →
      (bench.loaded files).1 = .ok () →
      ∃ summary text, outcome.result = .ok summary ∧
        contents outcome.out = contents out ++ text.utf8Encode ∧
        let lines := Text.lines text
        let after := fun cycle => (design.tick false)^[cycle] (design.tick true loaded)
        (∀ cycle < summary.cycles,
          lines[cycle]?.map lineWrite? = some (after (cycle + 1)).sampledWrite?) ∧
        (∀ cycle ≤ summary.cycles, (after cycle).machine.memory =
          replay loaded.machine.memory ((lines.take cycle).filterMap lineWrite?)) ∧
        outcome.bench.state.machine.memory =
          replay loaded.machine.memory (lines.filterMap lineWrite?) := by
  intro state other
  refine ⟨stateLine_eq_iff (consistent_perform memory operations)
    (consistent_perform memory' operations'), ?_⟩
  intro ω _ accepts contents config start phase files out bench loaded outcome accepting ready echo
    loads
  let reset := design.tick true loaded
  let cycles := design.cyclesWithin config.maxCycles.toNat reset
  obtain ⟨result, reached, -, written⟩ := bench.run_account out (Prod.ext loads rfl)
  have took := design.out_account config loaded cycles
    (design.haltsWithin config.maxCycles.toNat reset) files accepting ready
  have untouched : reset.machine.memory = loaded.machine.memory := by
    simp only [reset, tick_of_reset]
    rfl
  obtain ⟨each, during, final⟩ := replay_lines reset cycles
  rw [untouched] at during final
  have printed : design.printed config.echoState reset cycles = design.stateLines reset cycles :=
    if_pos echo
  rw [show design.tick true loaded = reset from rfl, printed] at took
  refine ⟨_, _, result, ?_, each, during, ?_⟩
  · rw [show outcome.out = _ from written]
    exact took.contents_eq
  · rw [show outcome.bench.state = _ from reached]
    exact final

/-- Five is stored at address seven of four words, so what is left of a memory is told by the line
that shows the address as it was asked for. -/
theorem stateLine_is_lossless_of_wrapped_store :
    let files := FileSystem.initial.addFile ["image"] "01000005 03000007".toUTF8
    let config : Config := { initialMemory := some "image" }
    let bench := Bench.mk design config (ofMemory (.zeros 4 (by decide))) .configuring
    let outcome := bench.run files Device.accepting
    let printed := "pc=000001 instr=01000005 acc=00000005
pc=000002 instr=03000007 acc=00000005 mem[000007]<=00000005
pc=000002 instr=00000000 acc=00000005 HALT
ran for 3 cycles
"
    Device.accepting.room = none ∧ config.echoState = true ∧ (bench.loaded files).1 = .ok () ∧
      outcome.out.contents = printed.toUTF8 ∧
      outcome.bench.state.machine.memory = [0x01000005, 0x03000007, 0, 5] := by
  intro files config bench outcome printed
  have loaded : bench.loaded files =
      (.ok (), .ofMemory ⟨#[0x01000005, 0x03000007, 0, 0], by decide⟩) := by rfl
  have loads := congrArg Prod.fst loaded
  have echo : config.echoState = true := rfl
  have ready : Device.accepting.room = none := rfl
  have contents : outcome.out.contents = printed.toUTF8 := by decide +kernel
  obtain ⟨-, lossless⟩ := stateLine_is_lossless (.zeros 4 (by decide)) (.zeros 4 (by decide)) [] []
  obtain ⟨summary, text, -, put, -, -, final⟩ := lossless config (ofMemory (.zeros 4 (by decide)))
    .configuring files Device.accepting Device.accepting_of_unlimited ready echo loads
  have same : text = printed.toList := by
    have bytes : (String.ofList text).toByteArray = printed.toByteArray := by
      rw [String.toByteArray_ofList, ← String.toUTF8_eq_toByteArray, ← contents,
        show outcome.out.contents = _ from put]
      exact (ByteArray.empty_append ..).symm
    rw [← String.toByteArray_inj.mp bytes, String.toList_ofList]
  have told : (Text.lines printed.toList).filterMap lineWrite? = [⟨7, 5⟩] := by decide +kernel
  rw [show (bench.loaded files).2 = _ from congrArg Prod.snd loaded, same, told] at final
  exact ⟨ready, echo, loads, contents, final⟩

end Accumulator

end Testbench
