import Testbench.Memory.HexText
import Testbench.Proofs.Text.Numeral
import Mathlib.Data.List.Infix

/-! The grammar of hex texts, told without the reader: where a comment starts, what the
tokens of a text are and which number a token denotes. -/
namespace Testbench.HexText

def opensComment (rest : List Char) : Bool :=
  ['/', '/'].isPrefixOf rest || ['#'].isPrefixOf rest

def uncommented (line : List Char) : List Char :=
  line.take (line.tails.findIdx opensComment)

theorem code_eq_uncommented (line : List Char) : code line = uncommented line := by
  unfold uncommented
  fun_induction code line with
  | case1 => rfl
  | case2 rest => simp [List.findIdx_cons, opensComment]
  | case3 rest => simp [List.findIdx_cons, opensComment]
  | case4 c rest hash slashes ih =>
    have closed : opensComment (c :: rest) = false := by
      rw [opensComment, Bool.or_eq_false_iff, Bool.eq_false_iff, Bool.eq_false_iff]
      constructor <;> intro opens <;> obtain ⟨tail, h⟩ := List.isPrefixOf_iff_prefix.mp opens <;>
        cases h
      · exact slashes tail rfl rfl
      · exact hash rfl
    rw [ih, List.tails_cons, List.findIdx_cons, closed]
    rfl

def tokenTexts (text : List Char) : List (List Char) :=
  (Text.lines text).flatMap fun line => Text.words (uncommented line)

theorem map_text_tokens (text : List Char) : (tokens text).map Token.text = tokenTexts text := by
  unfold tokens tokenTexts
  generalize Text.lines text = lines
  generalize 1 = number
  induction lines generalizing number with
  | nil => rfl
  | cons line rest ih =>
    rw [List.zipIdx_cons, List.flatMap_cons, List.map_append, ih, List.flatMap_cons,
      ← code_eq_uncommented line, List.map_map]
    exact congrArg (· ++ _) (List.map_id _)

def withoutMark (text : List Char) : List Char :=
  if ['0', 'x'] <+: text ∨ ['0', 'X'] <+: text then text.drop 2 else text

theorem unmarked_eq_withoutMark (text : List Char) : Text.unmarked text = withoutMark text := by
  unfold Text.unmarked withoutMark
  split
  · rfl
  · rfl
  · rename_i lower upper
    rw [if_neg]
    rintro (⟨rest, rfl⟩ | ⟨rest, rfl⟩)
    · exact lower rest rfl
    · exact upper rest rfl

/-- The number a token denotes: the mark goes first, then every underscore. -/
def Denotes (token : List Char) (value : Nat) : Prop :=
  Text.Numeral 16 ((withoutMark token).filter (· != '_')) value

theorem value?_eq_some_iff (token : List Char) (value : Nat) :
    (value? token).map UInt64.toNat = some value ↔ Denotes token value := by
  unfold value? Denotes
  rw [unmarked_eq_withoutMark, Text.unsigned?_eq_some_iff (by decide)]

end Testbench.HexText
