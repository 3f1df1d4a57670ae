import Testbench.Proofs.Sink.Honest
import Testbench.Proofs.Text.Layout
import Testbench.Proofs.Trace.Recording

/-! Traces in which lines break off. A write that fails can leave the beginning of a line, and the
lines after it go on right there. What was written before and after some calls is known, however,
and in what they have added every line that has its end was written whole. Every character is a
byte, so a cut falls between two of them. -/
namespace Testbench

namespace Trace

theorem utf8Encode_of_ascii {text : List Char} (ascii : ∀ c ∈ text, c.toNat < 128) :
    text.utf8Encode = (text.map Char.toUInt8).toByteArray := by
  have bytes : text.flatMap String.utf8EncodeChar = text.map Char.toUInt8 := by
    induction text with
    | nil => rfl
    | cons c text ih =>
      rw [List.forall_mem_cons] at ascii
      have single : c.utf8Size = 1 :=
        Char.utf8Size_eq_one_iff.mpr (UInt32.le_iff_toNat_le.mpr (Nat.le_of_lt_succ ascii.1))
      rw [List.flatMap_cons, String.utf8EncodeChar_eq_singleton single, ih ascii.2]
      rfl
  rw [List.utf8Encode, bytes]

theorem extract_utf8Encode {text : List Char} (ascii : ∀ c ∈ text, c.toNat < 128) (count : Nat) :
    text.utf8Encode.extract 0 count = (text.take count).utf8Encode := by
  rw [utf8Encode_of_ascii ascii,
    utf8Encode_of_ascii fun c here => ascii c (List.mem_of_mem_take here), extract_toByteArray,
    List.map_take]

theorem size_utf8Encode {text : List Char} (ascii : ∀ c ∈ text, c.toNat < 128) :
    text.utf8Encode.size = text.length := by
  rw [utf8Encode_of_ascii ascii, List.size_toByteArray, List.length_map]

theorem ascii_of_mem_identifier {c : Char} {n : Nat} (here : c ∈ identifier n) : c.toNat < 128 := by
  have digit := digit_of_printable (printable_of_mem_identifier here)
  unfold digitCount at digit
  have mark : '!'.toNat = 33 := rfl
  omega

theorem ascii_of_all {text : List Char} (all : text.all (·.toNat < 128) = true) :
    ∀ c ∈ text, c.toNat < 128 := by
  simpa using all

theorem Line.ascii (line : Line) : ∀ c ∈ line.text, c.toNat < 128 := by
  have bit (b : Bool) : (bitChar b).toNat < 128 := by cases b <;> decide
  cases line with
  | time t =>
    intro c here
    rcases List.mem_cons.mp here with rfl | digit
    · decide
    · have decimal := Nat.isDigit_of_mem_toDigits (by decide) (by decide) digit
      have high := (Bool.and_eq_true_iff.mp decimal).2
      have below := UInt32.le_iff_toNat_le.mp (of_decide_eq_true high)
      exact Nat.lt_of_le_of_lt below (by decide)
  | baselineStart => exact ascii_of_all (by decide)
  | baselineEnd => exact ascii_of_all (by decide)
  | change change =>
    intro c here
    rw [text] at here
    cases value : change.value with
    | bit b =>
      rw [value, Value.text] at here
      rcases List.mem_cons.mp here with rfl | name
      · exact bit b
      · exact ascii_of_mem_identifier name
    | bits bs =>
      rw [value, Value.text, List.mem_cons, List.mem_append, List.mem_map, List.mem_cons] at here
      rcases here with rfl | ⟨b, -, rfl⟩ | rfl | name
      · decide
      · exact bit b
      · decide
      · exact ascii_of_mem_identifier name

/-- The lines of a text up to its last newline. -/
def wholeLines (bytes : ByteArray) : List Line :=
  match bytes.utf8Decode? with
  | some text => (Text.lines text.toList).dropLast.filterMap Line.read?
  | none => []

theorem wholeLines_renderLines (lines : List Line) {torn : List Char} (oneLine : '\n' ∉ torn) :
    wholeLines (renderLines lines ++ torn).utf8Encode = lines := by
  have front : (Text.lines (renderLines lines)).dropLast = lines.map Line.text := by
    rw [Text.lines, splitOn_renderLines, List.dropLast_concat]
  have whole : (Text.lines (renderLines lines ++ torn)).dropLast = lines.map Line.text := by
    rw [Text.lines_append, Text.lines_of_not_mem oneLine, front]
    exact List.dropLast_concat
  have inverse : Line.read? ∘ Line.text = some := funext Line.read?_text
  simp only [wholeLines, List.utf8Decode?_utf8Encode, whole, List.filterMap_map, inverse,
    List.filterMap_some]

variable {σ : Type} {contents : σ → ByteArray} {lines first second : List Line} {line : Line}
  {sink middle after : σ} {all : Bool}

def gained (contents : σ → ByteArray) (sink after : σ) : List Line :=
  wholeLines ((contents after).extract (contents sink).size (contents after).size)

/-- A sink has taken these lines. If that is not all, the beginning of another one may follow. -/
inductive Wrote (contents : σ → ByteArray) (lines : List Line) (sink after : σ) : Bool → Prop
  | whole (grown : contents after = contents sink ++ (renderLines lines).utf8Encode) :
      Wrote contents lines sink after true
  | torn {rest : List Char} (oneLine : '\n' ∉ rest)
      (grown : contents after = contents sink ++ (renderLines lines ++ rest).utf8Encode) :
      Wrote contents lines sink after false

theorem Wrote.nothing : Wrote contents [] sink sink true :=
  .whole ByteArray.append_empty.symm

theorem Wrote.append (one : Wrote contents first sink middle true)
    (two : Wrote contents second middle after all) :
    Wrote contents (first ++ second) sink after all := by
  cases one with
  | whole grown =>
    cases two with
    | whole grown' =>
      refine .whole ?_
      rw [grown', grown, renderLines_append, List.utf8Encode_append, ByteArray.append_assoc]
    | torn oneLine grown' =>
      refine .torn oneLine ?_
      rw [grown', grown, renderLines_append]
      simp only [List.utf8Encode_append, ByteArray.append_assoc]

theorem Wrote.gained_eq (wrote : Wrote contents lines sink after all) :
    gained contents sink after = lines := by
  have added {text : List Char} (grown : contents after = contents sink ++ text.utf8Encode) :
      (contents after).extract (contents sink).size (contents after).size = text.utf8Encode := by
    rw [grown]
    exact ByteArray.extract_append_eq_right rfl ByteArray.size_append
  unfold gained
  cases wrote with
  | whole grown =>
    have whole : wholeLines (renderLines lines ++ []).utf8Encode = lines :=
      wholeLines_renderLines lines List.not_mem_nil
    rw [List.append_nil] at whole
    rw [added grown, whole]
  | torn oneLine grown => rw [added grown, wholeLines_renderLines lines oneLine]

theorem wrote_of_reported (reported : Sink.Reported contents (renderLines [line]).utf8Encode sink
    after all) : Wrote contents (if all then [line] else []) sink after all := by
  cases reported with
  | whole grown => exact .whole grown
  | @part taken short grown =>
    have single : renderLines [line] = line.text ++ ['\n'] := by simp [renderLines]
    have ascii : ∀ c ∈ line.text ++ ['\n'], c.toNat < 128 := by
      rw [List.forall_mem_append]
      exact ⟨line.ascii, ascii_of_all (by decide)⟩
    rw [single, size_utf8Encode ascii, List.length_append, List.length_singleton] at short
    rw [single, extract_utf8Encode ascii,
      List.take_append_of_le_length (Nat.le_of_lt_succ short)] at grown
    exact .torn (fun here => line.newline_not_mem_text (List.mem_of_mem_take here)) grown

theorem putAll_line [Sink σ] (honest : Sink.Honest contents) {pieces : List String}
    (spelled : Sink.characters pieces = renderLines [line]) (sink : σ) :
    ∃ answer after, Sink.putAll pieces sink = (answer, after) ∧
      Wrote contents (if answer.isOk then [line] else []) sink after answer.isOk := by
  obtain ⟨answer, after, put, reported⟩ := honest.putAll pieces sink
  rw [spelled] at reported
  exact ⟨answer, after, put, wrote_of_reported reported⟩

end Trace

end Testbench
