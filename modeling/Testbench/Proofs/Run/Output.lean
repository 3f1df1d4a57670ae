import Testbench.Proofs.Run.Budget
import Testbench.Proofs.Sink.Limited

/-! What a run puts out. Its state lines and its report follow one another as one text, and an
output with little room keeps the beginning of it. The line that does not fit is the last state
line to be tried, but the report is tried all the same: an output that fails a single time among
the lines has a whole report behind the part of a line. -/
namespace Testbench

open Sink

namespace Printout

variable {ω : Type} [Sink ω] {room : Nat → ω → Prop} {spent : ω → Prop} {contents : ω → ByteArray}
  {left : Nat} {out : ω}

theorem foldl_print_limited (limited : Limited room spent contents) (lines : List String)
    (ready : room left out) :
    let printed := lines.foldl print ⟨out, true⟩
    Poured room spent contents left (text lines).utf8Encode out printed.out printed.echo := by
  induction lines generalizing out left with
  | nil => exact .nothing ready
  | cons line rest ih =>
    intro printed
    obtain ⟨answer, next, put, poured⟩ := limited.put (line ++ "\n").toUTF8 ready
    have first : printed = rest.foldl print (match answer with
        | .ok _ => ⟨next, true⟩
        | .error _ => ⟨next, false⟩) := by
      simp only [printed, List.foldl_cons, print, put, if_true]
      cases answer <;> rfl
    have whole : (text (line :: rest)).utf8Encode =
        (line ++ "\n").toUTF8 ++ (text rest).utf8Encode := by
      rw [String.toUTF8_eq_toByteArray, ← String.utf8Encode_toList, String.toList_append,
        ← List.utf8Encode_append]
      rfl
    rw [first, whole]
    cases answer with
    | ok _ => exact poured.append (ih poured.ready)
    | error _ =>
      rw [foldl_print_silent]
      exact poured.stop _

theorem report_limited (limited : Limited room spent contents) (echo : Bool) (lines : List String)
    (cycles : Nat) (ready : room left out) :
    let printed := (text (if echo then lines else [])).utf8Encode
    let reported := (reportText cycles).utf8Encode
    let final := (lines.foldl print ⟨out, echo⟩).report cycles
    (printed.size ≤ left ∧ ∃ all,
        Poured room spent contents left (printed ++ reported) out final all) ∨
      left < printed.size ∧ ∃ middle, spent middle ∧
        contents middle = contents out ++ printed.extract 0 left ∧
        final = (Sink.put reported middle).2 := by
  intro printed reported final
  have poured : ∃ all, Poured room spent contents left printed out
      (lines.foldl print ⟨out, echo⟩).out all := by
    cases echo with
    | true => exact ⟨_, foldl_print_limited limited lines ready⟩
    | false =>
      rw [foldl_print_silent]
      exact ⟨true, .nothing ready⟩
  have behind : final = (Sink.put reported (lines.foldl print ⟨out, echo⟩).out).2 := by
    simp only [reported, reportText, String.utf8Encode_toList, ← String.toUTF8_eq_toByteArray]
    rfl
  obtain ⟨all, poured⟩ := poured
  cases poured with
  | whole enough still grown =>
    obtain ⟨answer, after, put, rest⟩ := limited.put reported still
    rw [behind, put]
    exact .inl ⟨enough, _, .append (.whole enough still grown) rest⟩
  | part short ended grown => exact .inr ⟨short, _, ended, grown, behind⟩

theorem report_failing (limited : Limited room (room 0) contents) (echo : Bool)
    (lines : List String) (cycles : Nat) (ready : room left out) :
    contents ((lines.foldl print ⟨out, echo⟩).report cycles) = contents out ++
      ((text (if echo then lines else [])).utf8Encode ++
        (reportText cycles).utf8Encode).extract 0 left := by
  rcases report_limited limited echo lines cycles ready with
    ⟨-, all, poured⟩ | ⟨short, middle, full, grown, final⟩
  · exact poured.contents_eq
  · obtain ⟨answer, after, put, poured⟩ := limited.put (reportText cycles).utf8Encode full
    rw [final, put, poured.full.2, grown, extract_append_of_le_size _ (Nat.le_of_lt short)]

theorem report_recovering (limited : Limited room spent contents)
    (recovered : Accepting spent contents) (echo : Bool) (lines : List String) (cycles : Nat)
    (ready : room left out) :
    let printed := (text (if echo then lines else [])).utf8Encode
    let reported := (reportText cycles).utf8Encode
    contents ((lines.foldl print ⟨out, echo⟩).report cycles) = contents out ++
      if (printed ++ reported).size ≤ left then printed ++ reported
      else if left < printed.size then (printed ++ reported).extract 0 left ++ reported
      else (printed ++ reported).extract 0 left := by
  intro printed reported
  rcases report_limited limited echo lines cycles ready with
    ⟨enough, all, poured⟩ | ⟨short, middle, ended, grown, final⟩
  · have inside : ¬left < printed.size := Nat.not_lt.mpr enough
    rw [poured.contents_eq, if_neg inside]
    by_cases fits : (printed ++ reported).size ≤ left
    · rw [if_pos fits, extract_of_size_le fits]
    · rw [if_neg fits]
  · obtain ⟨after, put, -, whole⟩ := recovered.write reported middle ended
    have cut : left < printed.size := short
    have misses : ¬(printed ++ reported).size ≤ left := by
      rw [ByteArray.size_append]
      omega
    rw [if_neg misses, if_pos cut, extract_append_of_le_size _ (Nat.le_of_lt cut), final, Sink.put,
      put, ← ByteArray.append_assoc, ← grown]
    exact whole

end Printout

namespace Bench

variable {σ : Type u}

/-- A run puts out its state lines and its report. Of this text, an output that has little room
keeps the beginning, with the whole report behind it if it has failed in a state line and recovers.
What the run returns is the same on every output. -/
theorem run_prints_lines_then_report (bench : Bench σ) (files : FileSystem)
    (loads : (bench.loaded files).1 = .ok ()) :
    ∃ summary : Summary,
      let start := bench.design.tick true (bench.loaded files).2
      let lines := (Printout.text
        (bench.design.printed bench.config.echoState start summary.cycles)).utf8Encode
      let report := (Printout.reportText summary.cycles).utf8Encode
      let text := lines ++ report
      (∀ {ω : Type} [Sink ω] (out : ω), (bench.run files out).result = .ok summary) ∧
      (∀ {ω : Type} [Sink ω] {accepts : ω → Prop} {contents : ω → ByteArray},
        Sink.Accepting accepts contents → ∀ out, accepts out →
          contents (bench.run files out).out = contents out ++ text) ∧
      (∀ {ω : Type} [Sink ω] {room : Nat → ω → Prop} {contents : ω → ByteArray},
        Sink.Limited room (room 0) contents → ∀ limit out, room limit out →
          contents (bench.run files out).out =
            contents out ++ text.extract 0 (min limit text.size)) ∧
      ∀ {ω : Type} [Sink ω] {room : Nat → ω → Prop} {spent : ω → Prop} {contents : ω → ByteArray},
        Sink.Limited room spent contents → Sink.Accepting spent contents →
          ∀ limit out, room limit out →
            contents (bench.run files out).out = contents out ++
              if text.size ≤ limit then text
              else if limit < lines.size then text.extract 0 limit ++ report
              else text.extract 0 limit := by
  let loaded := (bench.loaded files).2
  let start := bench.design.tick true loaded
  let cycles := bench.design.cyclesWithin bench.config.maxCycles.toNat start
  let halted := bench.design.haltsWithin bench.config.maxCycles.toNat start
  let states := bench.design.stateLines start cycles
  have ran {ω : Type} [Sink ω] (out : ω) := bench.run_account out (Prod.ext loads rfl)
  have written {ω : Type} [Sink ω] (out : ω) : (bench.run files out).out =
      (states.foldl Printout.print ⟨out, bench.config.echoState⟩).report cycles := (ran out).2.2.2
  refine ⟨(bench.design.account bench.config loaded cycles halted files Device.accepting).summary,
    ?_⟩
  intro start lines report text
  refine ⟨fun out => (ran out).1, ?_, ?_, ?_⟩
  · intro ω _ accepts contents accepting out ready
    have took :=
      Printout.report_foldl_print_accepting accepting states bench.config.echoState cycles ready
    rw [written, took.contents_eq, List.utf8Encode_append]
    rfl
  · intro ω _ room contents limited limit out ready
    rw [written, extract_min_size]
    exact Printout.report_failing limited bench.config.echoState states cycles ready
  · intro ω _ room spent contents limited recovered limit out ready
    rw [written]
    exact Printout.report_recovering limited recovered bench.config.echoState states cycles ready

/-- A counter prints two lines of 24 bytes each; the output has room for a quarter of the second. -/
theorem run_prints_to_failing_devices :
    let bench := ofDesign Counter.design { maxCycles := 2 } (.ofMemory (.zeros 3 (by decide)))
    let whole := bench.run .initial Device.accepting
    let failing := bench.run .initial (Device.ofLimit (some 30) false false)
    let recovering := bench.run .initial (Device.ofLimit (some 30) true false)
    (bench.loaded .initial).1 = .ok () ∧ (whole.result = .ok ⟨2, false, none, none⟩ ∧
        failing.result = whole.result ∧ recovering.result = whole.result) ∧
      whole.out.contents =
        "count=00000001 halted=0\ncount=00000002 halted=0\nran for 2 cycles\n".toUTF8 ∧
      failing.out.contents = "count=00000001 halted=0\ncount=".toUTF8 ∧
      recovering.out.contents = "count=00000001 halted=0\ncount=ran for 2 cycles\n".toUTF8 := by
  intro bench whole failing recovering
  have loads : (bench.loaded .initial).1 = .ok () := rfl
  obtain ⟨summary, same, accepts, fails, recovers⟩ :=
    run_prints_lines_then_report bench .initial loads
  have result : whole.result = .ok ⟨2, false, none, none⟩ := by decide
  obtain rfl : summary = ⟨2, false, none, none⟩ := Except.ok.inj ((same _).symm.trans result)
  have taken := accepts Device.accepting_of_unlimited Device.accepting rfl
  have cut := fails (Device.limited_of_failing false) 30 (.ofLimit (some 30) false false)
    ⟨rfl, rfl, rfl⟩
  have patched := recovers (Device.limited_of_recovering false) Device.accepting_of_unlimited 30
    (.ofLimit (some 30) true false) ⟨rfl, rfl, rfl⟩
  have ran : bench.run .initial Device.accepting = whole := rfl
  have ran' : bench.run .initial (Device.ofLimit (some 30) false false) = failing := rfl
  have ran'' : bench.run .initial (Device.ofLimit (some 30) true false) = recovering := rfl
  have agree : failing.result = whole.result ∧ recovering.result = whole.result :=
    ⟨(same _).trans (same _).symm, (same _).trans (same _).symm⟩
  rw [ran] at taken
  rw [ran'] at cut
  rw [ran''] at patched
  -- What the outputs hold is decided from the text of the run alone.
  clear_value whole failing recovering
  refine ⟨loads, ⟨result, agree⟩, ?_, ?_, ?_⟩
  · rw [taken]
    decide
  · rw [cut]
    decide
  · rw [patched]
    decide

end Bench

end Testbench
