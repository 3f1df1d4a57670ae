import Testbench.Text.Layout
import Mathlib.Data.List.Infix
import Mathlib.Data.List.TakeWhile

/-! Texts put together from parts. Where two texts meet, the last line of the one and the first
line of the other become a single line; words stay apart wherever a blank stands. -/
namespace Testbench.Text

theorem lines_ne_nil (text : List Char) : lines text ≠ [] :=
  List.splitOn_ne_nil _ _

def firstLine (text : List Char) : List Char :=
  (lines text).head (lines_ne_nil text)

def lastLine (text : List Char) : List Char :=
  (lines text).getLast (lines_ne_nil text)

theorem lines_eq_cons (text : List Char) : lines text = firstLine text :: (lines text).tail :=
  (List.cons_head_tail (lines_ne_nil text)).symm

theorem lines_eq_concat (text : List Char) :
    lines text = (lines text).dropLast ++ [lastLine text] :=
  (List.dropLast_append_getLast (lines_ne_nil text)).symm

theorem lines_of_not_mem {text : List Char} (oneLine : '\n' ∉ text) : lines text = [text] :=
  List.splitOn_eq_singleton oneLine

theorem lines_newline (first second : List Char) :
    lines (first ++ '\n' :: second) = lines first ++ lines second :=
  List.splitOn_append_cons_self first second

@[simp] theorem firstLine_of_not_mem {text : List Char} (oneLine : '\n' ∉ text) :
    firstLine text = text := by
  simp only [firstLine, lines_of_not_mem oneLine, List.head_cons]

@[simp] theorem lastLine_of_not_mem {text : List Char} (oneLine : '\n' ∉ text) :
    lastLine text = text := by
  simp only [lastLine, lines_of_not_mem oneLine, List.getLast_singleton]

theorem lastLine_newline (first second : List Char) :
    lastLine (first ++ '\n' :: second) = lastLine second := by
  simp only [lastLine, lines_newline]
  exact List.getLast_append_of_ne_nil _ (lines_ne_nil second)

theorem firstLine_newline (first second : List Char) :
    firstLine (first ++ '\n' :: second) = firstLine first := by
  simp only [firstLine, lines_newline]
  exact List.head_append_of_ne_nil _

/-- Every text is a last line with finished lines in front of it. -/
theorem byLines {motive : List Char → Prop} (last : ∀ line, '\n' ∉ line → motive line)
    (more : ∀ line rest, '\n' ∉ line → motive rest → motive (line ++ '\n' :: rest))
    (text : List Char) : motive text := by
  induction size : text.length using Nat.strongRecOn generalizing text with
  | ind size shorter =>
    by_cases newline : '\n' ∈ text
    · obtain ⟨line, rest, rfl, oneLine⟩ := List.eq_append_cons_of_mem newline
      refine more line rest oneLine (shorter rest.length ?_ rest rfl)
      rw [← size, List.length_append, List.length_cons]
      omega
    · exact last text newline

theorem lines_append (first second : List Char) :
    lines (first ++ second) =
      (lines first).dropLast ++ (lastLine first ++ firstLine second) :: (lines second).tail := by
  induction first using byLines with
  | last line oneLine =>
    rw [lines_of_not_mem oneLine, lastLine_of_not_mem oneLine]
    induction second using byLines with
    | last other otherLine =>
      rw [firstLine_of_not_mem otherLine, lines_of_not_mem otherLine, lines_of_not_mem]
      · rfl
      · rw [List.mem_append]
        exact not_or.mpr ⟨oneLine, otherLine⟩
    | more other rest otherLine _ =>
      rw [firstLine_newline, firstLine_of_not_mem otherLine, lines_newline,
        lines_of_not_mem otherLine, ← List.append_assoc, lines_newline, lines_of_not_mem]
      · rfl
      · rw [List.mem_append]
        exact not_or.mpr ⟨oneLine, otherLine⟩
  | more line rest oneLine ih =>
    rw [List.append_assoc, List.cons_append, lines_newline, ih, lines_newline, lastLine_newline,
      List.dropLast_append_of_ne_nil (lines_ne_nil rest), List.append_assoc]

theorem lines_cons {c : Char} (inside : c ≠ '\n') (text : List Char) :
    lines (c :: text) = (c :: firstLine text) :: (lines text).tail := by
  have oneLine : '\n' ∉ [c] := by simpa using inside.symm
  have joined := lines_append [c] text
  rwa [lines_of_not_mem oneLine, lastLine_of_not_mem oneLine] at joined

theorem firstLine_cons {c : Char} (inside : c ≠ '\n') (text : List Char) :
    firstLine (c :: text) = c :: firstLine text := by
  simp only [firstLine, lines_cons inside, List.head_cons]

theorem lines_append_append (first second : List Char) {middle : List Char}
    (oneLine : '\n' ∉ middle) :
    lines (first ++ middle ++ second) =
      (lines first).dropLast ++ (lastLine first ++ middle ++ firstLine second) ::
        (lines second).tail := by
  have front : lines (first ++ middle) = (lines first).dropLast ++ [lastLine first ++ middle] := by
    rw [lines_append, firstLine_of_not_mem oneLine, lines_of_not_mem oneLine]
    rfl
  have last : lastLine (first ++ middle) = lastLine first ++ middle := by
    simp only [lastLine, front, List.getLast_append_singleton]
  rw [lines_append, last, front, List.dropLast_concat]

theorem length_dropLast_lines (text : List Char) :
    (lines text).dropLast.length = text.count '\n' := by
  induction text using byLines with
  | last line oneLine =>
    rw [lines_of_not_mem oneLine, List.count_eq_zero_of_not_mem oneLine]
    rfl
  | more line rest oneLine ih =>
    rw [lines_newline, List.dropLast_append_of_ne_nil (lines_ne_nil rest), List.length_append, ih,
      lines_of_not_mem oneLine, List.count_append, List.count_cons_self,
      List.count_eq_zero_of_not_mem oneLine, List.length_singleton]
    omega

theorem length_lines (text : List Char) : (lines text).length = text.count '\n' + 1 := by
  rw [lines_eq_concat, List.length_append, length_dropLast_lines, List.length_singleton]

theorem words_of_blanks {text : List Char} (blank : ∀ c ∈ text, isBlank c = true) :
    words text = [] := by
  induction text with
  | nil => rfl
  | cons c rest ih =>
    rw [List.forall_mem_cons] at blank
    unfold words at ih ⊢
    rw [List.splitOnP_cons_eq_if_modifyHead, if_pos blank.1]
    exact ih blank.2

@[simp] theorem words_nil : words [] = [] := rfl

theorem words_of_run {text : List Char} (nonempty : text ≠ [])
    (run : ∀ c ∈ text, isBlank c = false) : words text = [text] := by
  rw [words, List.splitOnP_eq_singleton run]
  simpa using nonempty

theorem words_blank (first : List Char) {c : Char} (blank : isBlank c = true)
    (second : List Char) : words (first ++ c :: second) = words first ++ words second := by
  simp only [words, List.splitOnP_append_cons first second blank, List.filter_append]

theorem words_append_of_starts {second : List Char} (first : List Char)
    (starts : ∀ c ∈ second.head?, isBlank c = true) :
    words (first ++ second) = words first ++ words second := by
  cases second with
  | nil => rw [words_nil, List.append_nil, List.append_nil]
  | cons c rest =>
    have blank : isBlank c = true := starts c rfl
    have dropped : words (c :: rest) = words rest := words_blank [] blank rest
    rw [words_blank first blank, dropped]

theorem words_append_of_ends {first : List Char} (second : List Char)
    (ends : ∀ c ∈ first.getLast?, isBlank c = true) :
    words (first ++ second) = words first ++ words second := by
  rcases List.eq_nil_or_concat' first with rfl | ⟨front, c, rfl⟩
  · rfl
  · have blank : isBlank c = true := ends c (by simp)
    have dropped : words (front ++ [c]) = words front := by
      rw [words_blank front blank, words_nil, List.append_nil]
    rw [dropped, List.append_assoc, List.singleton_append, words_blank front blank]

/-- A run of characters that no blank interrupts and that only blanks or the ends of the text
touch. -/
structure Word (before word after : List Char) : Prop where
  nonempty : word ≠ []
  run : ∀ c ∈ word, isBlank c = false
  begins : ∀ c ∈ before.getLast?, isBlank c = true
  ends : ∀ c ∈ after.head?, isBlank c = true

theorem Word.words_eq {before word after : List Char} (found : Word before word after) :
    words (before ++ word ++ after) = words before ++ word :: words after := by
  rw [words_append_of_starts _ found.ends, words_append_of_ends _ found.begins,
    words_of_run found.nonempty found.run, List.append_assoc, List.singleton_append]

theorem first_word {text word : List Char} {rest : List (List Char)}
    (read : words text = word :: rest) :
    ∃ blanks after, text = blanks ++ word ++ after ∧ Word blanks word after ∧
      (∀ c ∈ blanks, isBlank c = true) ∧ words after = rest := by
  have blank : ∀ c ∈ text.takeWhile isBlank, isBlank c = true := fun c => List.mem_takeWhile_imp
  have parts : text = text.takeWhile isBlank ++ text.dropWhile isBlank :=
    List.takeWhile_append_dropWhile.symm
  generalize text.takeWhile isBlank = blanks at blank parts
  have head := List.head?_dropWhile_not isBlank text
  cases behind : text.dropWhile isBlank with
  | nil =>
    rw [parts, behind, List.append_nil, words_of_blanks blank] at read
    exact nomatch read
  | cons c tail =>
    rw [behind] at parts head
    let run := c :: tail.takeWhile fun c => !isBlank c
    let after := tail.dropWhile fun c => !isBlank c
    have whole : text = blanks ++ run ++ after := by
      rw [parts, List.append_assoc, List.cons_append, List.takeWhile_append_dropWhile]
    have found : Word blanks run after := by
      refine ⟨List.cons_ne_nil _ _, ?_, fun c last => blank c (List.mem_of_getLast? last), ?_⟩
      · intro other here
        rcases List.mem_cons.mp here with rfl | here
        · simpa using head
        · simpa using List.mem_takeWhile_imp here
      · intro other first
        have stop := List.head?_dropWhile_not (fun c => !isBlank c) tail
        rw [show List.head? _ = some other from first] at stop
        simpa using stop
    rw [whole, found.words_eq, words_of_blanks blank, List.nil_append, List.cons.injEq] at read
    obtain ⟨rfl, rfl⟩ := read
    exact ⟨blanks, after, whole, found, blank, rfl⟩

/-- Whatever is read as a word stands somewhere in the text, behind the words read before it. -/
theorem word_of_words {text word : List Char} {front rest : List (List Char)}
    (read : words text = front ++ word :: rest) :
    ∃ before after, text = before ++ word ++ after ∧ Word before word after ∧
      words before = front := by
  induction front generalizing text with
  | nil =>
    obtain ⟨blanks, after, parts, found, blank, -⟩ := first_word read
    exact ⟨blanks, after, parts, found, words_of_blanks blank⟩
  | cons earlier front ih =>
    obtain ⟨blanks, behind, rfl, first, blank, others⟩ := first_word read
    obtain ⟨between, after, rfl, found, words⟩ := ih others
    -- Two words never touch.
    have apart : between ≠ [] := by
      rintro rfl
      obtain ⟨c, tail, rfl⟩ := List.exists_cons_of_ne_nil found.nonempty
      exact absurd (first.ends c rfl) (by simp [found.run c (.head _)])
    have starts : ∀ c ∈ between.head?, isBlank c = true := by
      intro c head
      apply first.ends
      rw [List.append_assoc, List.head?_append_of_ne_nil _ apart]
      exact head
    have begins : ∀ c ∈ (blanks ++ earlier ++ between).getLast?, isBlank c = true := by
      rw [List.getLast?_append_of_ne_nil _ apart]
      exact found.begins
    have spaced : Word blanks earlier between :=
      ⟨first.nonempty, first.run, first.begins, starts⟩
    refine ⟨blanks ++ earlier ++ between, after, by simp only [List.append_assoc],
      ⟨found.nonempty, found.run, begins, found.ends⟩, ?_⟩
    rw [spaced.words_eq, words_of_blanks blank, words]
    rfl

theorem length_words_le (text : List Char) : (words text).length ≤ text.length := by
  induction read : words text generalizing text with
  | nil => exact Nat.zero_le _
  | cons word rest ih =>
    obtain ⟨blanks, after, rfl, found, -, others⟩ := first_word read
    have more := ih after others
    have some := List.length_pos_of_ne_nil found.nonempty
    simp only [List.length_append, List.length_cons]
    omega

structure Trimmed (text core : List Char) : Prop where
  around : ∃ before after, text = before ++ (core ++ after) ∧ (∀ c ∈ before, isBlank c = true) ∧
    ∀ c ∈ after, isBlank c = true
  starts : ∀ c ∈ core.head?, isBlank c = false
  ends : ∀ c ∈ core.getLast?, isBlank c = false

theorem dropWhile_of_starts {core : List Char} (starts : ∀ c ∈ core.head?, isBlank c = false) :
    core.dropWhile isBlank = core := by
  cases core with
  | nil => rfl
  | cons c rest => simp [starts c rfl]

theorem not_blank_of_head?_dropWhile (text : List Char) :
    ∀ c ∈ (text.dropWhile isBlank).head?, isBlank c = false := by
  intro c here
  have first := List.head?_dropWhile_not isBlank text
  rw [Option.mem_def.mp here] at first
  exact first

theorem Trimmed.trim_eq {text core : List Char} (trimmed : Trimmed text core) :
    trim text = core := by
  obtain ⟨⟨before, after, rfl, lead, trail⟩, starts, ends⟩ := trimmed
  have behind : (core ++ after).reverse.dropWhile isBlank = core.reverse := by
    rw [List.reverse_append,
      List.dropWhile_append_of_pos fun c here => trail c (List.mem_reverse.mp here)]
    exact dropWhile_of_starts fun c here => ends c (by rwa [List.head?_reverse] at here)
  have front : (core ++ after).dropWhile isBlank = core ++ after ∨ core = [] := by
    cases core with
    | nil => exact .inr rfl
    | cons c rest => exact .inl (dropWhile_of_starts starts)
  unfold trim
  rw [List.dropWhile_append_of_pos lead]
  rcases front with whole | rfl
  · rw [whole, behind, List.reverse_reverse]
  · rw [List.nil_append, List.dropWhile_eq_nil_iff.mpr trail]
    rfl

theorem trimmed_trim (text : List Char) : Trimmed text (trim text) := by
  let rest := text.dropWhile isBlank
  have split : rest = trim text ++ (rest.reverse.takeWhile isBlank).reverse := by
    rw [trim, ← List.reverse_append, List.takeWhile_append_dropWhile, List.reverse_reverse]
  constructor
  · refine ⟨text.takeWhile isBlank, (rest.reverse.takeWhile isBlank).reverse, ?_,
      fun c => List.mem_takeWhile_imp,
      fun c here => List.mem_takeWhile_imp (List.mem_reverse.mp here)⟩
    rw [← split, List.takeWhile_append_dropWhile]
  · intro c here
    have first : c ∈ rest.head? := by
      rw [split, List.head?_append, Option.mem_def.mp here]
      rfl
    exact not_blank_of_head?_dropWhile text c first
  · intro c here
    rw [trim, List.getLast?_reverse] at here
    exact not_blank_of_head?_dropWhile _ c here

end Testbench.Text
