import Testbench.Proofs.HexText.FirstDefect

/-! Two hex texts in one. A directive between them forgets how far the first one came, and a line
break closes what the first one left open, so the whole stores the first text and then the second.
Only the line numbers of the second text move down. -/
namespace Testbench.HexText

inductive LineBreak where
  | feed
  | returnAndFeed
  deriving DecidableEq

def LineBreak.text : LineBreak → String
  | feed => "\n"
  | returnAndFeed => "\r\n"

def Defect.below (count : Nat) : Defect → Defect
  | .invalidWord line token => .invalidWord (line + count) token
  | .invalidAddress line token => .invalidAddress (line + count) token
  | .overflow line address depth => .overflow (line + count) address depth

theorem uncommented_concat {c : Char} (blank : Text.isBlank c = true) (line : List Char) :
    uncommented (line ++ [c]) = uncommented line ∨
      uncommented (line ++ [c]) = uncommented line ++ [c] := by
  have hash : c ≠ '#' := by
    rintro rfl
    exact absurd blank (by decide)
  have slash : c ≠ '/' := by
    rintro rfl
    exact absurd blank (by decide)
  induction line with
  | nil =>
    right
    rw [List.nil_append, uncommented_cons, opensComment_eq_false hash slash]
    rfl
  | cons d rest ih =>
    have same : opensComment (d :: (rest ++ [c])) = opensComment (d :: rest) := by
      cases rest <;> simp [opensComment, List.isPrefixOf, slash.symm]
    rw [List.cons_append, uncommented_cons, uncommented_cons, same]
    split
    · exact .inl rfl
    · exact ih.imp (congrArg (d :: ·)) (congrArg (d :: ·))

theorem words_uncommented_concat {c : Char} (blank : Text.isBlank c = true) (line : List Char) :
    Text.words (uncommented (line ++ [c])) = Text.words (uncommented line) := by
  rcases uncommented_concat blank line with same | longer
  · rw [same]
  · rw [longer, Text.words_blank _ blank, Text.words_nil, List.append_nil]

theorem tokens_concat {c : Char} (blank : Text.isBlank c = true) (inside : c ≠ '\n')
    (text : List Char) : tokens (text ++ [c]) = tokens text := by
  have oneLine : '\n' ∉ [c] := by simpa using inside.symm
  rw [tokens_eq_numbered, tokens_eq_numbered, Text.lines_append, Text.firstLine_of_not_mem oneLine,
    Text.lines_of_not_mem oneLine, numbered_append, numbered_cons, words_uncommented_concat blank,
    ← numbered_cons, ← numbered_append, List.tail_cons, ← Text.lines_eq_concat]

theorem tokens_lineBreak (first : List Char) (lineBreak : LineBreak) (second : List Char) :
    tokens (first ++ lineBreak.text.toList ++ second) =
      tokens first ++ (tokens second).map (·.below (first.count '\n' + 1)) := by
  cases lineBreak with
  | feed =>
    rw [show LineBreak.feed.text.toList = ['\n'] from rfl, List.append_assoc, List.singleton_append,
      tokens_newline]
  | returnAndFeed =>
    rw [show LineBreak.returnAndFeed.text.toList = ['\r'] ++ ['\n'] from rfl, ← List.append_assoc,
      List.append_assoc, List.singleton_append, tokens_newline, tokens_concat rfl (by decide),
      List.count_append]
    rfl

theorem tokens_directive (first second : List Char) (one two : LineBreak) :
    tokens (first ++ one.text.toList ++ (['@', '0'] ++ two.text.toList ++ second)) =
      tokens first ++ ⟨first.count '\n' + 2, ['@', '0']⟩ ::
        (tokens second).map (·.below (2 + first.count '\n')) := by
  have directive : tokens ['@', '0'] = [⟨1, ['@', '0']⟩] := by rfl
  have moved (token : Token) :
      (token.below 1).below (first.count '\n' + 1) = token.below (2 + first.count '\n') := by
    simp only [Token.below, Token.mk.injEq, and_true]
    omega
  rw [tokens_lineBreak, tokens_lineBreak, directive, List.singleton_append, List.map_cons,
    List.map_map]
  congr 2
  · simp only [Token.below, Token.mk.injEq, and_true]
    omega
  · exact List.map_congr_left fun token _ => moved token

/-- Behind a directive the store goes on from the memory and the count alone. -/
theorem store_append_directive {digits : List Char} {base : UInt64}
    (named : value? digits = some base) (front rest : List Token) (line start stored : Nat)
    (image : Image) :
    store (front ++ ⟨line, '@' :: digits⟩ :: rest) start stored image =
      match store front start stored image with
      | (.ok count, middle) => store rest base.toNat count middle
      | (.error defect, left) => (.error defect, left) := by
  fun_induction store front start stored image with
  | case1 start stored image => rw [List.nil_append, store, named]
  | case2 start line digits front stored image address number ih =>
    rw [List.cons_append, store, number]
    exact ih
  | case3 start line digits front stored image number => rw [List.cons_append, store, number]
  | case4 line text front start stored image plain number =>
    rw [List.cons_append, store_word (isWord_of_not_directive plain), number]
  | case5 line text front start stored image plain word number fits ih =>
    rw [List.cons_append, store_word (isWord_of_not_directive plain), number]
    dsimp only
    rw [if_pos fits, ih]
  | case6 line text front start stored image plain word number full =>
    rw [List.cons_append, store_word (isWord_of_not_directive plain), number]
    dsimp only
    rw [if_neg full]

theorem store_below (tokens : List Token) (lines earlier address stored : Nat) (image : Image) :
    store (tokens.map (·.below lines)) address (earlier + stored) image =
      match store tokens address stored image with
      | (.ok count, after) => (.ok (earlier + count), after)
      | (.error defect, after) => (.error (defect.below lines), after) := by
  fun_induction store tokens address stored image with
  | case1 address stored image => rfl
  | case2 address line digits rest stored image base number ih =>
    rw [List.map_cons, Token.below, store, number]
    exact ih
  | case3 address line digits rest stored image number =>
    rw [List.map_cons, Token.below, store, number]
    rfl
  | case4 line text rest address stored image plain number =>
    rw [List.map_cons, Token.below, store_word (isWord_of_not_directive plain), number]
    rfl
  | case5 line text rest address stored image plain word number fits ih =>
    rw [List.map_cons, Token.below, store_word (isWord_of_not_directive plain), number]
    dsimp only
    rw [if_pos fits, Nat.add_assoc, ih]
  | case6 line text rest address stored image plain word number full =>
    rw [List.map_cons, Token.below, store_word (isWord_of_not_directive plain), number]
    dsimp only
    rw [if_neg full]
    rfl

end Testbench.HexText

namespace Testbench

open HexText in
/-- A text, a line with a directive to address zero and another text store what the two texts store
one after the other, wherever the first one stops. A defect in the first one is the defect of the
whole; one in the second is told with the lines above it counted in. -/
theorem Image.parseHex_composes (image : Image) (first second : String) (one two : LineBreak) :
    image.parseHex (first ++ one.text ++ "@0" ++ two.text ++ second) =
      match image.parseHex first with
      | (.error defect, left) => (.error defect, left)
      | (.ok count, middle) =>
        match middle.parseHex second with
        | (.ok more, after) => (.ok (count + more), after)
        | (.error defect, after) =>
          (.error (defect.below (2 + first.toList.count '\n')), after) := by
  have whole : (first ++ one.text ++ "@0" ++ two.text ++ second).toList =
      first.toList ++ one.text.toList ++ (['@', '0'] ++ two.text.toList ++ second.toList) := by
    simp only [String.toList_append, List.append_assoc]
    rfl
  have zero : value? ['0'] = some 0 := by rfl
  unfold Image.parseHex
  rw [whole, tokens_directive, store_append_directive zero]
  split <;> rename_i stored <;> rw [stored]
  · exact store_below (tokens second.toList) _ _ 0 0 _

/-- The comment ends with its line, and the word without room is told on the fourth one. -/
example : (⟨#[8, 8], by decide⟩ : Image).parseHex ("1 // 2" ++ "\r\n@0\n" ++ "3 4\n5") =
    (.error (.overflow 4 2 2), ⟨#[3, 4], by decide⟩) := by
  rfl

end Testbench
