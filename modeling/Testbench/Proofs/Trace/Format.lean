import Testbench.Trace.ValueChange
import Testbench.Proofs.Sink.Accepting
import Testbench.Proofs.Text.Numeral
import Testbench.Proofs.Trace.Identifier

/-! The text of a value-change trace as a language of its own: records written line by
line, and a reader that undoes the writing. A name may hold any printable character, yet
no line can be taken for another one: the first character says what a line is, and a name
always ends it. -/
namespace Testbench.Trace

inductive Value where
  | bit (b : Bool)
  | bits (bs : List Bool)
  deriving DecidableEq, Repr

structure Change where
  wire : Nat
  value : Value
  deriving DecidableEq, Repr

structure Record where
  time : Nat
  /-- Whether the changes stand between the marks of a full dump. -/
  baseline : Bool
  changes : List Change
  deriving DecidableEq, Repr

inductive Line where
  | time (t : Nat)
  | baselineStart
  | baselineEnd
  | change (c : Change)
  deriving DecidableEq, Repr

namespace Value

def ofNat (width n : Nat) : Value :=
  if width = 1 then .bit (n.testBit 0) else .bits ((List.range width).reverse.map n.testBit)

def toNat : Value → Nat
  | .bit b => b.toNat
  | .bits bs => bs.foldl (fun n b => 2 * n + b.toNat) 0

theorem foldl_testBit (width n start : Nat) :
    ((List.range width).reverse.map n.testBit).foldl (fun n b => 2 * n + b.toNat) start =
      start * 2 ^ width + n % 2 ^ width := by
  induction width generalizing start with
  | zero => simp [Nat.mod_one]
  | succ width ih =>
    rw [List.range_succ, List.reverse_append, List.reverse_singleton, List.singleton_append,
      List.map_cons, List.foldl_cons, ih, Nat.toNat_testBit, Nat.mod_pow_succ, Nat.pow_succ]
    ring

@[simp] theorem toNat_ofNat (width n : Nat) : (ofNat width n).toNat = n % 2 ^ width := by
  by_cases single : width = 1
  · rw [ofNat, if_pos single, toNat, Nat.toNat_testBit, single, Nat.pow_zero, Nat.div_one,
      Nat.pow_one]
  · rw [ofNat, if_neg single, toNat, foldl_testBit, Nat.zero_mul, Nat.zero_add]

end Value

def bitChar (b : Bool) : Char :=
  if b then '1' else '0'

def bit? : Char → Option Bool
  | '0' => some false
  | '1' => some true
  | _ => none

def Value.text (name : List Char) : Value → List Char
  | .bit b => bitChar b :: name
  | .bits bs => 'b' :: (bs.map bitChar ++ ' ' :: name)

def Value.read? : List Char → Option (Value × List Char)
  | [] => none
  | mark :: rest =>
    if mark = 'b' then
      match rest.splitOn ' ' with
      | [digits, name] => (digits.mapM bit?).map fun bs => (.bits bs, name)
      | _ => none
    else (bit? mark).map fun b => (.bit b, rest)

def startMark : List Char :=
  ['$', 'd', 'u', 'm', 'p', 'v', 'a', 'r', 's']

def endMark : List Char :=
  ['$', 'e', 'n', 'd']

namespace Line

def text : Line → List Char
  | .time t => '#' :: Nat.toDigits 10 t
  | .baselineStart => startMark
  | .baselineEnd => endMark
  | .change c => c.value.text (identifier c.wire)

def read? (text : List Char) : Option Line :=
  if text = startMark then some .baselineStart
  else if text = endMark then some .baselineEnd
  else match text with
    | '#' :: digits => if digits.isEmpty then none else (Text.ofDigits? 10 digits).map .time
    | _ => (Value.read? text).bind fun (value, name) =>
      (number? name).map fun wire => .change ⟨wire, value⟩

end Line

namespace Record

def body (record : Record) : List Line :=
  if record.baseline then
    .baselineStart :: (record.changes.map .change ++ [.baselineEnd])
  else record.changes.map .change

def lines (record : Record) : List Line :=
  .time record.time :: record.body

end Record

def renderLines (lines : List Line) : List Char :=
  lines.flatMap fun line => line.text ++ ['\n']

def render (records : List Record) : List Char :=
  renderLines (records.flatMap Record.lines)

/-- The lines of a text, provided the last one is ended as well. -/
def lines? (text : List Char) : Option (List Line) :=
  if (text.splitOn '\n').getLast? = some [] then (text.splitOn '\n').dropLast.mapM Line.read?
  else none

/-- The lines before the first time, then every time with the lines up to the next one. -/
def group : List Line → List Line × List (Nat × List Line)
  | [] => ([], [])
  | .time t :: rest => ([], (t, (group rest).1) :: (group rest).2)
  | line :: rest => (line :: (group rest).1, (group rest).2)

def Line.change? : Line → Option Change
  | .change c => some c
  | _ => none

def record? (time : Nat) (body : List Line) : Option Record :=
  match body with
  | .baselineStart :: rest =>
    if rest.getLast? = some .baselineEnd then
      (rest.dropLast.mapM Line.change?).map (⟨time, true, ·⟩)
    else none
  | _ => (body.mapM Line.change?).map (⟨time, false, ·⟩)

def read? (text : List Char) : Option (List Record) := do
  match group (← lines? text) with
  | ([], groups) => groups.mapM fun (time, body) => record? time body
  | _ => none

theorem mapM_map_some {α β : Type} {write : α → β} {read : β → Option α}
    (inverse : ∀ a, read (write a) = some a) (as : List α) :
    (as.map write).mapM read = some as := by
  have same : read ∘ write = fun a => pure a := funext inverse
  rw [List.mapM_map, same, List.mapM_pure, List.map_id']
  rfl

theorem bit?_bitChar (b : Bool) : bit? (bitChar b) = some b := by
  cases b <;> rfl

theorem not_mem_identifier {c : Char} (blank : printable c = false) (n : Nat) :
    c ∉ identifier n := by
  intro mem
  rw [printable_of_mem_identifier mem] at blank
  exact nomatch blank

theorem not_mem_bits {c : Char} (other : bit? c = none) (bs : List Bool) :
    c ∉ bs.map bitChar := by
  intro mem
  obtain ⟨b, -, rfl⟩ := List.mem_map.mp mem
  rw [bit?_bitChar] at other
  exact nomatch other

theorem number?_identifier (n : Nat) : number? (identifier n) = some n :=
  (number?_eq_some_iff _ n).mpr rfl

theorem Value.read?_text (name : List Char) (blank : ' ' ∉ name) (value : Value) :
    read? (value.text name) = some (value, name) := by
  cases value with
  | bit b => cases b <;> rfl
  | bits bs =>
    rw [text, read?, if_pos rfl, List.splitOn_append_cons_self_of_not_mem (not_mem_bits rfl bs),
      List.splitOn_eq_singleton blank]
    simp [mapM_map_some bit?_bitChar]

theorem Value.head_text (name : List Char) (value : Value) :
    ∃ mark rest, value.text name = mark :: rest ∧ mark ≠ '$' ∧ mark ≠ '#' := by
  cases value with
  | bit b => cases b <;> exact ⟨_, name, rfl, by decide, by decide⟩
  | bits bs => exact ⟨'b', _, rfl, by decide, by decide⟩

theorem Line.read?_text (line : Line) : read? line.text = some line := by
  unfold read?
  cases line with
  | time t =>
    rw [text, if_neg (by simp [startMark]), if_neg (by simp [endMark])]
    simp [Text.ofDigits?_toDigits]
  | baselineStart => rfl
  | baselineEnd => rfl
  | change c =>
    have value := c.value.read?_text (identifier c.wire) (not_mem_identifier (by decide) c.wire)
    obtain ⟨mark, rest, begins, dollar, hash⟩ := c.value.head_text (identifier c.wire)
    rw [text]
    rw [begins] at value ⊢
    rw [if_neg (by simp [startMark, dollar]), if_neg (by simp [endMark, dollar])]
    simp [hash, value, number?_identifier]

theorem Line.newline_not_mem_text (line : Line) : '\n' ∉ line.text := by
  cases line with
  | time t =>
    intro mem
    rcases List.mem_cons.mp mem with h | h
    · exact absurd h (by decide)
    · exact absurd (Nat.isDigit_of_mem_toDigits (by decide) (by decide) h) (by decide)
  | baselineStart => decide
  | baselineEnd => decide
  | change c =>
    have name := not_mem_identifier (c := '\n') (by decide) c.wire
    rw [text]
    cases c.value with
    | bit b => cases b <;> simp [Value.text, bitChar, name]
    | bits bs => simp [Value.text, not_mem_bits (c := '\n') rfl, name]

theorem splitOn_renderLines (lines : List Line) :
    (renderLines lines).splitOn '\n' = lines.map Line.text ++ [[]] := by
  induction lines with
  | nil => rfl
  | cons line rest ih =>
    rw [renderLines, List.flatMap_cons, List.append_assoc, List.singleton_append,
      List.splitOn_append_cons_self_of_not_mem line.newline_not_mem_text]
    exact congrArg (line.text :: ·) ih

theorem lines?_renderLines (lines : List Line) : lines? (renderLines lines) = some lines := by
  unfold lines?
  rw [splitOn_renderLines, List.getLast?_concat, if_pos rfl, List.dropLast_concat]
  exact mapM_map_some Line.read?_text lines

theorem group_append {body : List Line} (timeless : ∀ t, Line.time t ∉ body)
    (rest : List Line) : group (body ++ rest) = (body ++ (group rest).1, (group rest).2) := by
  induction body with
  | nil => rfl
  | cons line body ih =>
    have others := ih fun t mem => timeless t (List.mem_cons_of_mem line mem)
    cases line with
    | time t => exact absurd List.mem_cons_self (timeless t)
    | _ => simp [group, others]

theorem Record.time_not_mem_body (record : Record) (t : Nat) : Line.time t ∉ record.body := by
  unfold body
  split <;> simp

theorem group_lines (records : List Record) :
    group (records.flatMap Record.lines) = ([], records.map fun r => (r.time, r.body)) := by
  induction records with
  | nil => rfl
  | cons record rest ih =>
    rw [List.flatMap_cons, Record.lines, List.cons_append, group,
      group_append record.time_not_mem_body, ih, List.append_nil]
    rfl

theorem record?_body (record : Record) : record? record.time record.body = some record := by
  obtain ⟨time, baseline, changes⟩ := record
  have inverse (c : Change) : Line.change? (.change c) = some c := rfl
  have all := mapM_map_some inverse changes
  cases baseline with
  | true =>
    simp only [Record.body, if_true, record?]
    rw [List.getLast?_concat, if_pos rfl, List.dropLast_concat, all]
    rfl
  | false =>
    have unmarked (rest : List Line) : changes.map Line.change ≠ .baselineStart :: rest := by
      cases changes <;> simp
    simp only [Record.body]
    rw [if_neg Bool.false_ne_true, record?, all]
    · rfl
    · exact unmarked

theorem read?_render (records : List Record) : read? (render records) = some records := by
  unfold read? render
  rw [lines?_renderLines, Option.bind_eq_bind, Option.bind_some, group_lines]
  exact mapM_map_some record?_body records

theorem render_injective : Function.Injective render := by
  intro first second same
  have read := read?_render first
  rw [same, read?_render] at read
  exact (Option.some.inj read).symm

example : read? "#0\n$dumpvars\n1#\n$end\n#12\nb10 b1\n".toList =
    some [⟨0, true, [⟨2, .bit true⟩]⟩, ⟨12, false, [⟨1663, .bits [true, false]⟩]⟩] := by
  decide

@[simp] theorem renderLines_append (first second : List Line) :
    renderLines (first ++ second) = renderLines first ++ renderLines second :=
  List.flatMap_append

@[simp] theorem characters_identifierPieces (n : Nat) :
    Sink.characters (identifierPieces n) = identifier n := by
  simp [Sink.characters, identifierPieces, List.flatMap_map]

theorem toList_bit (value : UInt64) (position : Nat) :
    (bit value position).toList = [bitChar (value.toNat.testBit position)] := by
  unfold bit
  cases value.toNat.testBit position <;> rfl

@[simp] theorem characters_bits (value : UInt64) (positions : List Nat) :
    Sink.characters (positions.map (bit value)) =
      (positions.map value.toNat.testBit).map bitChar := by
  induction positions with
  | nil => rfl
  | cons position rest ih => simp [toList_bit, ih]

theorem characters_timestamp (t : Nat) :
    Sink.characters (timestamp t) = renderLines [.time t] := by
  simp [timestamp, Text.decimal, renderLines, Line.text]

theorem characters_baselineStart :
    Sink.characters baselineStart = renderLines [.baselineStart] :=
  rfl

theorem characters_baselineEnd : Sink.characters baselineEnd = renderLines [.baselineEnd] :=
  rfl

theorem characters_change (wire : Wire) (value : UInt64) :
    Sink.characters (change wire value) =
      renderLines [.change ⟨wire.number, .ofNat wire.width value.toNat⟩] := by
  unfold change Value.ofNat
  by_cases single : wire.width = 1
  · simp [single, renderLines, Line.text, Value.text, toList_bit]
  · rw [if_neg single, if_neg single]
    simp only [Sink.characters_cons, Sink.characters_append, characters_bits, List.cons_append]
    simp [renderLines, Line.text, Value.text]

end Testbench.Trace
