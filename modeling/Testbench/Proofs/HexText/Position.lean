import Testbench.Proofs.HexText.Grammar
import Testbench.Proofs.Text.Layout

/-! Where the tokens of a hex text stand. A token is a word of what its line holds in front of
the comment; its line number counts the line feeds before it. Whatever stands in a text as a
token is read as one, behind the tokens before it, and every token that is read stands there. -/
namespace Testbench.HexText

/-- A text is a token of the line that it shares with what is before and after it. -/
def Stands (before token after : List Char) : Prop :=
  ∃ rest, uncommented (Text.lastLine before ++ token ++ Text.firstLine after) =
      Text.lastLine before ++ token ++ rest ∧
    Text.Word (Text.lastLine before) token rest

theorem exists_comment (line : List Char) : ∃ comment, line = uncommented line ++ comment :=
  ⟨_, (List.take_append_drop _ line).symm⟩

theorem uncommented_cons (c : Char) (rest : List Char) :
    uncommented (c :: rest) =
      if opensComment (c :: rest) then [] else c :: uncommented rest := by
  rw [uncommented, List.tails_cons, List.findIdx_cons]
  cases opensComment (c :: rest) <;> rfl

theorem opensComment_eq_false {c : Char} (hash : c ≠ '#') (slash : c ≠ '/') (rest : List Char) :
    opensComment (c :: rest) = false := by
  simp only [opensComment, List.isPrefixOf_cons_cons, beq_eq_false_iff_ne.mpr hash.symm,
    beq_eq_false_iff_ne.mpr slash.symm, Bool.false_and, Bool.or_self]

theorem opensComment_append {first : List Char} (opens : opensComment first = true)
    (second : List Char) : opensComment (first ++ second) = true := by
  simp only [opensComment, Bool.or_eq_true, List.isPrefixOf_iff_prefix] at opens ⊢
  exact opens.imp (·.trans (List.prefix_append _ _)) (·.trans (List.prefix_append _ _))

theorem uncommented_append {first second rest : List Char}
    (kept : uncommented (first ++ second) = first ++ rest) :
    uncommented first = first ∧ uncommented second = rest := by
  induction first with
  | nil => exact ⟨rfl, kept⟩
  | cons c first ih =>
    rw [List.cons_append, uncommented_cons] at kept
    split at kept
    · exact nomatch kept
    · rename_i closed
      have plain : opensComment (c :: first) = false :=
        Bool.eq_false_iff.mpr fun opens => closed (opensComment_append opens second)
      rw [List.cons_append, List.cons.injEq] at kept
      obtain ⟨whole, behind⟩ := ih kept.2
      rw [uncommented_cons, plain, whole]
      exact ⟨rfl, behind⟩

theorem Stands.oneLine {before token after : List Char} (stands : Stands before token after) :
    '\n' ∉ token := by
  obtain ⟨_, -, word⟩ := stands
  exact fun feed => absurd (word.run '\n' feed) (by decide)

def numbered (number : Nat) (lines : List (List Char)) : List Token :=
  (lines.zipIdx number).flatMap fun (line, number) => (Text.words (code line)).map (⟨number, ·⟩)

def Token.below (count : Nat) (token : Token) : Token :=
  ⟨token.line + count, token.text⟩

theorem numbered_cons (number : Nat) (line : List Char) (rest : List (List Char)) :
    numbered number (line :: rest) =
      (Text.words (uncommented line)).map (⟨number, ·⟩) ++ numbered (number + 1) rest := by
  rw [← code_eq_uncommented]
  rfl

theorem numbered_append (number : Nat) (first second : List (List Char)) :
    numbered number (first ++ second) =
      numbered number first ++ numbered (number + first.length) second := by
  simp only [numbered, List.zipIdx_append, List.flatMap_append]

theorem numbered_add (number count : Nat) (lines : List (List Char)) :
    numbered (number + count) lines = (numbered number lines).map (·.below count) := by
  induction lines generalizing number with
  | nil => rfl
  | cons line rest ih =>
    rw [numbered_cons, numbered_cons, List.map_append, List.map_map, Nat.add_right_comm, ih]
    rfl

theorem tokens_eq_numbered (text : List Char) : tokens text = numbered 1 (Text.lines text) :=
  rfl

theorem tokens_of_not_mem {line : List Char} (oneLine : '\n' ∉ line) :
    tokens line = (Text.words (uncommented line)).map (⟨1, ·⟩) := by
  rw [tokens_eq_numbered, Text.lines_of_not_mem oneLine, numbered_cons]
  exact List.append_nil _

theorem tokens_newline (first second : List Char) :
    tokens (first ++ '\n' :: second) =
      tokens first ++ (tokens second).map (·.below (first.count '\n' + 1)) := by
  simp only [tokens_eq_numbered]
  rw [Text.lines_newline, numbered_append, Text.length_lines, numbered_add]

theorem length_tokens_le (text : List Char) : (tokens text).length ≤ text.length := by
  have one (line : List Char) (oneLine : '\n' ∉ line) : (tokens line).length ≤ line.length := by
    rw [tokens_of_not_mem oneLine, List.length_map]
    exact (Text.length_words_le _).trans (List.length_take_le' _ _)
  induction text using Text.byLines with
  | last line oneLine => exact one line oneLine
  | more line rest oneLine ih =>
    have first := one line oneLine
    rw [tokens_newline, List.length_append, List.length_map, List.length_append, List.length_cons]
    omega

/-- What stands in a text as a token is read between the tokens before and after it. -/
theorem tokens_of_stands {before token after : List Char} (stands : Stands before token after) :
    tokens (before ++ token ++ after) =
      tokens before ++ ⟨1 + before.count '\n', token⟩ ::
        (tokens after).map (·.below (before.count '\n')) := by
  have oneLine := stands.oneLine
  obtain ⟨rest, kept, word⟩ := stands
  obtain ⟨front, behind⟩ := uncommented_append kept
  have first : uncommented (Text.lastLine before) = Text.lastLine before :=
    (uncommented_append front).1
  let here : List Char → Token := (⟨1 + before.count '\n', ·⟩)
  have above : tokens before =
      numbered 1 (Text.lines before).dropLast ++ (Text.words (Text.lastLine before)).map here := by
    rw [tokens_eq_numbered, Text.lines_eq_concat, numbered_append, Text.length_dropLast_lines,
      numbered_cons, first, ← Text.lines_eq_concat]
    exact congrArg _ (List.append_nil _)
  have below : (tokens after).map (·.below (before.count '\n')) =
      (Text.words rest).map here ++
        numbered (1 + before.count '\n' + 1) (Text.lines after).tail := by
    rw [tokens_eq_numbered, ← numbered_add, Text.lines_eq_cons, numbered_cons, behind,
      ← Text.lines_eq_cons]
  rw [tokens_eq_numbered, Text.lines_append_append before after oneLine, numbered_append,
    Text.length_dropLast_lines, numbered_cons, kept, word.words_eq, List.map_append, List.map_cons,
    above, below, List.append_assoc, List.append_assoc, List.cons_append]

theorem tokenTexts_of_stands {before token after : List Char}
    (stands : Stands before token after) :
    tokenTexts (before ++ token ++ after) = tokenTexts before ++ token :: tokenTexts after := by
  simp only [← map_text_tokens, tokens_of_stands stands, List.map_append, List.map_cons,
    List.map_map]
  rfl

theorem tokenTexts_newline (first second : List Char) :
    tokenTexts (first ++ '\n' :: second) = tokenTexts first ++ tokenTexts second := by
  unfold tokenTexts
  rw [Text.lines_newline, List.flatMap_append]

theorem stands_of_tokens_line {line : List Char} (oneLine : '\n' ∉ line) {front rest : List Token}
    {token : Token} (read : tokens line = front ++ token :: rest) :
    ∃ before after, line = before ++ token.text ++ after ∧ Stands before token.text after ∧
      tokens before = front := by
  rw [tokens_of_not_mem oneLine] at read
  obtain ⟨earlier, others, words, rfl, tail⟩ := List.map_eq_append_iff.mp read
  obtain ⟨text, later, rfl, rfl, rfl⟩ := List.map_eq_cons_iff.mp tail
  obtain ⟨before, after, code, word, front⟩ := Text.word_of_words words
  obtain ⟨comment, whole⟩ := exists_comment line
  rw [code, List.append_assoc] at whole
  have inBefore : '\n' ∉ before := fun feed => oneLine (by rw [whole]; simp [feed])
  have inAfter : '\n' ∉ after ++ comment := fun feed => oneLine (by rw [whole]; simp [feed])
  have cut : uncommented (before ++ (text ++ (after ++ comment))) = before ++ (text ++ after) := by
    rw [← List.append_assoc, ← whole, code, List.append_assoc]
  have kept : uncommented before = before := (uncommented_append cut).1
  refine ⟨before, after ++ comment, whole, ⟨after, ?_, ?_⟩, ?_⟩
  · rw [Text.lastLine_of_not_mem inBefore, Text.firstLine_of_not_mem inAfter, ← whole, code]
  · rwa [Text.lastLine_of_not_mem inBefore]
  · rw [tokens_of_not_mem inBefore, kept, front]

theorem append_eq_append_cons {α : Type} {first second front rest : List α} {x : α}
    (joined : first ++ second = front ++ x :: rest) :
    (∃ later, first = front ++ x :: later) ∨
      ∃ earlier, front = first ++ earlier ∧ second = earlier ++ x :: rest := by
  rcases List.append_eq_append_iff.mp joined with inSecond | ⟨inner, split, tail⟩
  · exact .inr inSecond
  · rcases List.cons_eq_append_iff.mp tail with ⟨rfl, same⟩ | ⟨later, rfl, -⟩
    · exact .inr ⟨[], by simpa using split.symm, same⟩
    · exact .inl ⟨later, split⟩

theorem stands_of_tokens {text : List Char} {front rest : List Token} {token : Token}
    (read : tokens text = front ++ token :: rest) :
    ∃ before after, text = before ++ token.text ++ after ∧ Stands before token.text after ∧
      tokens before = front := by
  induction text using Text.byLines generalizing front rest token with
  | last line oneLine => exact stands_of_tokens_line oneLine read
  | more line below oneLine ih =>
    rw [tokens_newline] at read
    rcases append_eq_append_cons read with ⟨later, above⟩ | ⟨earlier, rfl, behind⟩
    · obtain ⟨before, after, rfl, stands, front⟩ := stands_of_tokens_line oneLine above
      refine ⟨before, after ++ '\n' :: below, by simp only [List.append_assoc], ?_, front⟩
      unfold Stands
      rwa [Text.firstLine_newline]
    · obtain ⟨first, second, split, rfl, tail⟩ := List.map_eq_append_iff.mp behind
      obtain ⟨inner, others, rfl, rfl, -⟩ := List.map_eq_cons_iff.mp tail
      obtain ⟨before, after, rfl, stands, front⟩ := ih split
      refine ⟨line ++ '\n' :: before, after, by simp [Token.below], ?_, ?_⟩
      · unfold Stands
        rwa [Text.lastLine_newline]
      · rw [tokens_newline, front]

end Testbench.HexText
