import Testbench.Proofs.HexText.Placement
import Testbench.Proofs.HexText.Position

/-! Ways to write words down as a hex text. Each word has digits of either case, grouped as the
writer likes, and the words are kept apart by blanks and comments. Reading finds the same words
whichever way they were written. -/
namespace Testbench.HexText

/-- A word written out: perhaps a mark, then digits with underscores anywhere among them. -/
def Spells (token : List Char) (word : UInt32) : Prop :=
  ∃ mark digits, token = mark ++ digits ∧
    (mark = [] ∨ mark = ['0', 'x'] ∨ mark = ['0', 'X']) ∧
    digits.filter (· != '_') ≠ [] ∧ Text.Digits 16 (digits.filter (· != '_')) word.toNat

inductive Gap : List Char → Prop
  | nil : Gap []
  | blank {c : Char} {rest : List Char} (blank : Text.isBlank c = true) (gap : Gap rest) :
      Gap (c :: rest)
  | comment {mark body rest : List Char} (opens : mark = ['#'] ∨ mark = ['/', '/'])
      (oneLine : '\n' ∉ body) (gap : Gap rest) : Gap (mark ++ body ++ '\n' :: rest)

/-- A text in which some words are written out, in order, with a gap between any two. -/
inductive Renders : List UInt32 → List Char → Prop
  | last {word : UInt32} {token after : List Char} (spells : Spells token word)
      (gap : Gap after) : Renders [word] (token ++ after)
  | word {word : UInt32} {words : List UInt32} {token between rest : List Char}
      (spells : Spells token word) (gap : Gap between) (apart : between ≠ [])
      (renders : Renders words rest) : Renders (word :: words) (token ++ between ++ rest)
  | lead {words : List UInt32} {before rest : List Char} (gap : Gap before)
      (renders : Renders words rest) : Renders words (before ++ rest)

theorem uncommented_blank {c : Char} (blank : Text.isBlank c = true) (rest : List Char) :
    uncommented (c :: rest) = c :: uncommented rest := by
  have hash : c ≠ '#' := by
    rintro rfl
    exact absurd blank (by decide)
  have slash : c ≠ '/' := by
    rintro rfl
    exact absurd blank (by decide)
  rw [uncommented_cons, opensComment_eq_false hash slash, if_neg Bool.false_ne_true]

theorem uncommented_comment {mark : List Char} (opens : mark = ['#'] ∨ mark = ['/', '/'])
    (body : List Char) : uncommented (mark ++ body) = [] := by
  rcases opens with rfl | rfl <;> exact uncommented_cons _ _

theorem not_mem_comment {mark body : List Char} (opens : mark = ['#'] ∨ mark = ['/', '/'])
    (oneLine : '\n' ∉ body) : '\n' ∉ mark ++ body := by
  rcases opens with rfl | rfl <;> simpa using oneLine

theorem tokenTexts_blank {c : Char} (blank : Text.isBlank c = true) (text : List Char) :
    tokenTexts (c :: text) = tokenTexts text := by
  by_cases feed : c = '\n'
  · rw [feed]
    exact tokenTexts_newline [] text
  · have dropped (line : List Char) : Text.words (c :: line) = Text.words line :=
      Text.words_blank [] blank line
    unfold tokenTexts
    rw [Text.lines_cons feed, List.flatMap_cons, uncommented_blank blank, dropped,
      Text.lines_eq_cons text, List.flatMap_cons, ← Text.lines_eq_cons]

theorem Gap.tokenTexts_append {gap : List Char} (isGap : Gap gap) (rest : List Char) :
    tokenTexts (gap ++ rest) = tokenTexts rest := by
  induction isGap with
  | nil => rfl
  | blank blank gap ih => rw [List.cons_append, tokenTexts_blank blank, ih]
  | @comment mark body below opens oneLine gap ih =>
    have silent : tokenTexts (mark ++ body) = [] := by
      rw [tokenTexts, Text.lines_of_not_mem (not_mem_comment opens oneLine), List.flatMap_singleton,
        uncommented_comment opens]
      rfl
    rw [List.append_assoc, List.cons_append, tokenTexts_newline, silent, ih, List.nil_append]

theorem Gap.starts {gap rest : List Char} (isGap : Gap gap) (apart : gap ≠ [] ∨ rest = []) :
    ∀ c ∈ (uncommented (Text.firstLine (gap ++ rest))).head?, Text.isBlank c = true := by
  cases isGap with
  | nil =>
    obtain rfl : rest = [] := apart.resolve_left (absurd rfl)
    exact nofun
  | @blank c below blank gap =>
    by_cases feed : c = '\n'
    · rw [feed, show '\n' :: below ++ rest = [] ++ '\n' :: (below ++ rest) from rfl,
        Text.firstLine_newline]
      exact nofun
    · rw [List.cons_append, Text.firstLine_cons feed, uncommented_blank blank]
      rintro _ ⟨⟩
      exact blank
  | @comment mark body below opens oneLine gap =>
    rw [List.append_assoc, List.cons_append, Text.firstLine_newline,
      Text.firstLine_of_not_mem (not_mem_comment opens oneLine), uncommented_comment opens]
    exact nofun

def isPlain (c : Char) : Bool :=
  !Text.isBlank c && c != '#' && c != '/' && c != '@'

theorem forall_grouped {p : Char → Bool} (underscore : p '_' = true)
    (digit : ∀ d < 16, p d.digitChar = true ∧ p d.digitChar.toUpper = true)
    {digits : List Char} {value : Nat}
    (read : Text.Digits 16 (digits.filter (· != '_')) value) : ∀ c ∈ digits, p c = true := by
  have kept : ∀ c ∈ digits.filter (· != '_'), p c = true := Text.forall_digits digit read
  intro c here
  by_cases grouping : c = '_'
  · rw [grouping, underscore]
  · exact kept c (List.mem_filter.mpr ⟨here, bne_iff_ne.mpr grouping⟩)

theorem Spells.plain_of_mem {token : List Char} {word : UInt32} (spells : Spells token word) :
    ∀ c ∈ token, isPlain c = true := by
  obtain ⟨mark, digits, rfl, marked, -, read⟩ := spells
  have grouped : ∀ c ∈ digits, isPlain c = true := forall_grouped rfl (by decide) read
  rw [List.forall_mem_append]
  refine ⟨?_, grouped⟩
  rcases marked with rfl | rfl | rfl <;> exact List.all_eq_true.mp rfl

theorem Spells.nonempty {token : List Char} {word : UInt32} (spells : Spells token word) :
    token ≠ [] := by
  obtain ⟨mark, digits, rfl, -, some, -⟩ := spells
  intro empty
  rw [(List.append_eq_nil_iff.mp empty).2] at some
  exact some rfl

theorem Spells.isWord {token : List Char} {word : UInt32} (spells : Spells token word) :
    isWord token = true := by
  obtain ⟨c, rest, rfl⟩ := List.exists_cons_of_ne_nil spells.nonempty
  have plain := spells.plain_of_mem c (.head _)
  simp only [isPlain, Bool.and_eq_true, bne_iff_ne] at plain
  simp [HexText.isWord, plain.2]

theorem withoutMark_append {mark digits : List Char}
    (marked : mark = [] ∨ mark = ['0', 'x'] ∨ mark = ['0', 'X'])
    (unmarked : ∀ c ∈ digits, (c != 'x' && c != 'X') = true) :
    withoutMark (mark ++ digits) = digits := by
  rcases marked with rfl | rfl | rfl
  · rw [withoutMark, if_neg]
    · rfl
    · rintro (⟨rest, rfl⟩ | ⟨rest, rfl⟩)
      · exact absurd (unmarked 'x' (by simp)) (by decide)
      · exact absurd (unmarked 'X' (by simp)) (by decide)
  · exact if_pos (.inl (List.prefix_append _ _))
  · exact if_pos (.inr (List.prefix_append _ _))

theorem Spells.denotes {token : List Char} {word : UInt32} (spells : Spells token word) :
    Denotes token word.toNat := by
  obtain ⟨mark, digits, rfl, marked, some, read⟩ := spells
  have unmarked : ∀ c ∈ digits, (c != 'x' && c != 'X') = true :=
    forall_grouped rfl (by decide) read
  refine ⟨[], digits.filter (· != '_'), ?_, .inl rfl, some, read, ?_⟩
  · rw [withoutMark_append marked unmarked]
    rfl
  · exact Nat.lt_trans word.toNat_lt (by decide)

theorem uncommented_plain {token : List Char} (plain : ∀ c ∈ token, isPlain c = true)
    (rest : List Char) : uncommented (token ++ rest) = token ++ uncommented rest := by
  induction token with
  | nil => rfl
  | cons c token ih =>
    obtain ⟨first, others⟩ := List.forall_mem_cons.mp plain
    simp only [isPlain, Bool.and_eq_true, bne_iff_ne] at first
    rw [List.cons_append, uncommented_cons, opensComment_eq_false first.1.1.2 first.1.2,
      if_neg Bool.false_ne_true, ih others]
    rfl

theorem Spells.tokenTexts_append {token after : List Char} {word : UInt32}
    (spells : Spells token word)
    (starts : ∀ c ∈ (uncommented (Text.firstLine after)).head?, Text.isBlank c = true) :
    tokenTexts (token ++ after) = token :: tokenTexts after := by
  have run : ∀ c ∈ token, Text.isBlank c = false := by
    intro c here
    have plain := spells.plain_of_mem c here
    simp only [isPlain, Bool.and_eq_true, Bool.not_eq_true'] at plain
    exact plain.1.1.1
  have stands : Stands [] token after := by
    refine ⟨uncommented (Text.firstLine after), ?_, spells.nonempty, run, nofun, starts⟩
    exact uncommented_plain spells.plain_of_mem _
  exact tokenTexts_of_stands stands

theorem Renders.spelled {words : List UInt32} {text : List Char} (renders : Renders words text) :
    List.Forall₂ Spells (tokenTexts text) words := by
  induction renders with
  | @last word token after spells gap =>
    have silent : tokenTexts after = [] := by
      have dropped := gap.tokenTexts_append []
      rwa [List.append_nil] at dropped
    have starts := gap.starts (.inr rfl)
    rw [List.append_nil] at starts
    rw [spells.tokenTexts_append starts, silent]
    exact .cons spells .nil
  | word spells gap apart renders ih =>
    rw [List.append_assoc, spells.tokenTexts_append (gap.starts (.inl apart)),
      gap.tokenTexts_append]
    exact .cons spells ih
  | lead gap renders ih => rwa [gap.tokenTexts_append]

end Testbench.HexText
