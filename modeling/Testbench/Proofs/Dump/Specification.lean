import Testbench.Config.DumpSpec
import Testbench.Proofs.HexText.Rendering

/-! Dump specifications as a language of their own. The fields are told from the end, so that a
filename may hold commas; which text is which field is settled by the two commas behind which no
other one stands. A specification is refused for the first thing that is wrong with it. -/
namespace Testbench.Dump

structure Parts (spec path start length : List Char) : Prop where
  joined : spec = path ++ ',' :: (start ++ ',' :: length)
  start : ',' ∉ start
  length : ',' ∉ length

variable {spec path start length : List Char}

theorem Parts.splitSpec_eq (parts : Parts spec path start length) :
    splitSpec spec = some (path, start, length) := by
  have pieces : spec.splitOn ',' = path.splitOn ',' ++ [start, length] := by
    rw [parts.joined, List.splitOn_append_cons_self,
      List.splitOn_append_cons_self_of_not_mem parts.start, List.splitOn_eq_singleton parts.length]
  cases reversed : (path.splitOn ',').reverse with
  | nil => exact absurd (List.reverse_eq_nil_iff.mp reversed) (List.splitOn_ne_nil _ _)
  | cons field fields =>
    have same : path.splitOn ',' = fields.reverse ++ [field] := by
      rw [← List.reverse_cons, ← reversed, List.reverse_reverse]
    unfold splitSpec
    rw [pieces, List.reverse_append, reversed]
    simp [← same, List.intercalate_splitOn]

theorem Parts.two_le_count (parts : Parts spec path start length) : 2 ≤ spec.count ',' := by
  rw [parts.joined, List.count_append, List.count_cons_self, List.count_append,
    List.count_cons_self]
  omega

theorem exists_last_comma {text : List Char} (comma : ',' ∈ text) :
    ∃ front last, text = front ++ ',' :: last ∧ ',' ∉ last := by
  obtain ⟨last, front, reversed, none⟩ := List.eq_append_cons_of_mem (List.mem_reverse.mpr comma)
  refine ⟨front.reverse, last.reverse, ?_, mt List.mem_reverse.mp none⟩
  rw [← List.reverse_reverse text, reversed]
  simp

theorem parts_or_few (spec : List Char) :
    (∃ path start length, Parts spec path start length) ∨
      spec.count ',' < 2 ∧ splitSpec spec = none := by
  by_cases last : ',' ∈ spec
  · obtain ⟨front, length, rfl, behind⟩ := exists_last_comma last
    by_cases another : ',' ∈ front
    · obtain ⟨path, start, rfl, between⟩ := exists_last_comma another
      exact .inl ⟨path, start, length, by simp, between, behind⟩
    · refine .inr ⟨?_, ?_⟩
      · rw [List.count_append, List.count_cons_self, List.count_eq_zero_of_not_mem another,
          List.count_eq_zero_of_not_mem behind]
        decide
      · rw [splitSpec, List.splitOn_append_cons_self_of_not_mem another,
          List.splitOn_eq_singleton behind]
        rfl
  · refine .inr ⟨?_, ?_⟩
    · rw [List.count_eq_zero_of_not_mem last]
      decide
    · rw [splitSpec, List.splitOn_eq_singleton last]
      rfl

/-- The number a field denotes once the blanks around it and one mark in front of it are gone. -/
def Offset (field : List Char) (value : UInt64) : Prop :=
  ∃ core, Text.Trimmed field core ∧ Text.Numeral 16 (HexText.withoutMark core) value.toNat

theorem offset?_eq_some_iff (field : List Char) (value : UInt64) :
    offset? field = some value ↔ Offset field value := by
  have injective : Function.Injective (Option.map UInt64.toNat) :=
    Option.map_injective fun _ _ => UInt64.toNat_inj.mp
  rw [← injective.eq_iff, Option.map_some, offset?, Text.hexadecimal?,
    HexText.unmarked_eq_withoutMark, Text.unsigned?_eq_some_iff (by decide)]
  constructor
  · exact fun numeral => ⟨_, Text.trimmed_trim field, numeral⟩
  · rintro ⟨core, trimmed, numeral⟩
    rwa [trimmed.trim_eq]

theorem offset?_eq_none_iff (field : List Char) :
    offset? field = none ↔ ∀ value, ¬Offset field value := by
  simp only [Option.eq_none_iff_forall_ne_some, ne_eq, offset?_eq_some_iff]

inductive Spells (spec : List Char) : Request → Prop
  | fields {path start length : List Char} {first size : UInt64}
    (parts : Parts spec path start length) (named : path ≠ []) (starts : Offset start first)
    (sized : Offset length size) : Spells spec ⟨String.ofList path, first, size⟩

/-- What is wrong with a specification, if nothing before it is. -/
inductive FirstDefect (spec : List Char) : SpecDefect → Prop
  | tooFewFields (few : spec.count ',' < 2) : FirstDefect spec .tooFewFields
  | missingFilename {start length : List Char} (parts : Parts spec [] start length) :
    FirstDefect spec .missingFilename
  | startNotHex {path start length : List Char} (parts : Parts spec path start length)
    (named : path ≠ []) (unread : ∀ value, ¬Offset start value) : FirstDefect spec .startNotHex
  | lengthNotHex {path start length : List Char} {first : UInt64}
    (parts : Parts spec path start length) (named : path ≠ []) (starts : Offset start first)
    (unread : ∀ value, ¬Offset length value) : FirstDefect spec .lengthNotHex

theorem Parts.parseSpec_eq (parts : Parts spec path start length) (named : path ≠ []) :
    parseSpec spec = match offset? start, offset? length with
      | none, _ => .error .startNotHex
      | some _, none => .error .lengthNotHex
      | some first, some size => .ok ⟨String.ofList path, first, size⟩ := by
  obtain ⟨c, rest, rfl⟩ := List.exists_cons_of_ne_nil named
  rw [parseSpec, parts.splitSpec_eq]
  rfl

theorem Spells.parseSpec_eq {request : Request} (spells : Spells spec request) :
    parseSpec spec = .ok request := by
  cases spells with
  | fields parts named starts sized =>
    rw [parts.parseSpec_eq named, (offset?_eq_some_iff _ _).mpr starts,
      (offset?_eq_some_iff _ _).mpr sized]

theorem FirstDefect.parseSpec_eq {defect : SpecDefect} (first : FirstDefect spec defect) :
    parseSpec spec = .error defect := by
  cases first with
  | tooFewFields few =>
    rcases parts_or_few spec with ⟨path, start, length, parts⟩ | ⟨-, none⟩
    · exact absurd parts.two_le_count (Nat.not_le_of_lt few)
    · rw [parseSpec, none]
  | missingFilename parts =>
    rw [parseSpec, parts.splitSpec_eq]
    rfl
  | startNotHex parts named unread =>
    rw [parts.parseSpec_eq named, (offset?_eq_none_iff _).mpr unread]
  | lengthNotHex parts named starts unread =>
    rw [parts.parseSpec_eq named, (offset?_eq_some_iff _ _).mpr starts,
      (offset?_eq_none_iff _).mpr unread]

theorem spells_or_firstDefect (spec : List Char) :
    (∃ request, Spells spec request) ∨ ∃ defect, FirstDefect spec defect := by
  rcases parts_or_few spec with ⟨path, start, length, parts⟩ | ⟨few, -⟩
  · by_cases named : path = []
    · exact .inr ⟨_, .missingFilename (named ▸ parts)⟩
    · by_cases starts : ∃ first, Offset start first
      · obtain ⟨first, starts⟩ := starts
        by_cases sized : ∃ size, Offset length size
        · obtain ⟨size, sized⟩ := sized
          exact .inl ⟨_, .fields parts named starts sized⟩
        · exact .inr ⟨_, .lengthNotHex parts named starts (not_exists.mp sized)⟩
      · exact .inr ⟨_, .startNotHex parts named (not_exists.mp starts)⟩
  · exact .inr ⟨_, .tooFewFields few⟩

theorem parseSpec_eq_ok_iff (spec : List Char) (request : Request) :
    parseSpec spec = .ok request ↔ Spells spec request := by
  constructor
  · intro parsed
    rcases spells_or_firstDefect spec with ⟨other, spells⟩ | ⟨defect, first⟩
    · rw [spells.parseSpec_eq] at parsed
      exact Except.ok.inj parsed ▸ spells
    · rw [first.parseSpec_eq] at parsed
      cases parsed
  · exact Spells.parseSpec_eq

theorem parseSpec_eq_error_iff (spec : List Char) (defect : SpecDefect) :
    parseSpec spec = .error defect ↔ FirstDefect spec defect := by
  constructor
  · intro parsed
    rcases spells_or_firstDefect spec with ⟨request, spells⟩ | ⟨other, first⟩
    · rw [spells.parseSpec_eq] at parsed
      cases parsed
    · rw [first.parseSpec_eq] at parsed
      exact Except.error.inj parsed ▸ first
  · exact FirstDefect.parseSpec_eq

def Writes (value : UInt64) (field : List Char) : Prop :=
  ∃ before mark zeros digits after,
    field = before ++ (mark ++ (List.replicate zeros '0' ++ digits) ++ after) ∧
    (∀ c ∈ before, Text.isBlank c = true) ∧ (∀ c ∈ after, Text.isBlank c = true) ∧
    (mark = [] ∨ mark = ['0', 'x'] ∨ mark = ['0', 'X']) ∧
    digits.map Char.toLower = Nat.toDigits 16 value.toNat

def isInner (c : Char) : Bool :=
  !Text.isBlank c && c != ','

theorem Writes.offset_and_comma {value : UInt64} {field : List Char} (writes : Writes value field) :
    Offset field value ∧ ',' ∉ field := by
  obtain ⟨before, mark, zeros, digits, after, rfl, lead, trail, marked, lowered⟩ := writes
  have read := Text.digits_of_lowered lowered zeros
  have unmarked : ∀ c ∈ List.replicate zeros '0' ++ digits, (c != 'x' && c != 'X') = true :=
    Text.forall_digits (by decide) read
  have inner : ∀ c ∈ mark ++ (List.replicate zeros '0' ++ digits), isInner c = true := by
    rw [List.forall_mem_append]
    refine ⟨?_, Text.forall_digits (by decide) read⟩
    rcases marked with rfl | rfl | rfl <;> exact List.all_eq_true.mp rfl
  have solid : ∀ c ∈ mark ++ (List.replicate zeros '0' ++ digits), Text.isBlank c = false := by
    intro c here
    have both := inner c here
    simp only [isInner, Bool.and_eq_true, Bool.not_eq_true'] at both
    exact both.1
  have nonempty : List.replicate zeros '0' ++ digits ≠ [] := by
    intro empty
    rw [(List.append_eq_nil_iff.mp empty).2] at lowered
    exact Nat.toDigits_ne_nil lowered.symm
  refine ⟨⟨_, ⟨⟨before, after, rfl, lead, trail⟩, ?_, ?_⟩, ?_⟩, ?_⟩
  · exact fun c here => solid c (List.mem_of_mem_head? here)
  · exact fun c here => solid c (List.mem_of_getLast? here)
  · rw [HexText.withoutMark_append marked unmarked]
    exact ⟨[], _, rfl, .inl rfl, nonempty, read, value.toNat_lt⟩
  · intro comma
    rcases List.mem_append.mp comma with here | here
    · exact absurd (lead _ here) (by decide)
    · rcases List.mem_append.mp here with here | here
      · exact absurd (inner _ here) (by decide)
      · exact absurd (trail _ here) (by decide)

/-- A specification is read exactly if it has two commas, something in front of them and a number
in each field behind them; what is in front is the filename as it stands. Any other one is refused,
whole, for the first thing that is wrong with it. So every request with a filename is read back,
however its numbers are written. -/
theorem ofSpec_reads_last_two_fields :
    (∀ spec request, Request.ofSpec spec = .ok request ↔ Spells spec.toList request) ∧
    (∀ spec fault, Request.ofSpec spec = .error fault ↔
      ∃ defect, fault = .dumpSpec spec defect ∧ FirstDefect spec.toList defect) ∧
    ∀ (request : Request) (start length : List Char), request.path ≠ "" →
      Writes request.start start → Writes request.length length →
      Request.ofSpec (String.ofList (request.path.toList ++ ',' :: (start ++ ',' :: length))) =
        .ok request := by
  have reads : ∀ spec request, Request.ofSpec spec = .ok request ↔ Spells spec.toList request := by
    intro spec request
    rw [← parseSpec_eq_ok_iff, Request.ofSpec]
    cases parseSpec spec.toList <;> simp
  refine ⟨reads, fun spec fault => ?_, ?_⟩
  · simp only [← parseSpec_eq_error_iff, Request.ofSpec]
    cases parseSpec spec.toList <;> simp [eq_comm]
  · intro request start length named starts sized
    obtain ⟨first, between⟩ := starts.offset_and_comma
    obtain ⟨size, behind⟩ := sized.offset_and_comma
    have nonempty : request.path.toList ≠ [] := by simpa using named
    rw [reads, String.toList_ofList]
    have spells := Spells.fields ⟨rfl, between, behind⟩ nonempty first size
    rwa [String.ofList_toList] at spells

/-- A filename with a comma in it, a number between blanks and the largest length. Of a text in
which neither field is a number the first one is reported. -/
theorem ofSpec_reads_spaced_numbers :
    let start : List Char := [' ', '0', 'X', '0', '0', '1', 'f', '\t']
    let length : List Char := List.replicate 15 'f' ++ ['F']
    "a,b" ≠ "" ∧ Writes 0x1F start ∧ Writes 0xFFFFFFFFFFFFFFFF length ∧
      Request.ofSpec "a,b, 0X001f\t,fffffffffffffffF" = .ok ⟨"a,b", 0x1F, 0xFFFFFFFFFFFFFFFF⟩ ∧
      Request.ofSpec "a,g,h" = .error (.dumpSpec "a,g,h" .startNotHex) := by
  intro start length
  obtain ⟨-, refuses, reads⟩ := ofSpec_reads_last_two_fields
  have starts : Writes 0x1F start :=
    ⟨[' '], ['0', 'X'], 2, ['1', 'f'], ['\t'], rfl, List.forall_mem_singleton.mpr (by decide),
      List.forall_mem_singleton.mpr (by decide), by decide, by decide⟩
  have sized : Writes 0xFFFFFFFFFFFFFFFF length :=
    ⟨[], [], 0, length, [], rfl, nofun, nofun, .inl rfl, by decide +kernel⟩
  have read := reads ⟨"a,b", 0x1F, 0xFFFFFFFFFFFFFFFF⟩ start length (by decide) starts sized
  have joined : String.ofList ("a,b".toList ++ ',' :: (start ++ ',' :: length)) =
      "a,b, 0X001f\t,fffffffffffffffF" := by decide +kernel
  have unread : ∀ value, ¬Offset ['g'] value := (offset?_eq_none_iff _).mp (by decide)
  have parts : Parts "a,g,h".toList ['a'] ['g'] ['h'] := ⟨by decide, by decide, by decide⟩
  refine ⟨by decide, starts, sized, joined ▸ read, ?_⟩
  exact (refuses _ _).mpr ⟨_, rfl, .startNotHex parts (by decide) unread⟩

end Testbench.Dump
