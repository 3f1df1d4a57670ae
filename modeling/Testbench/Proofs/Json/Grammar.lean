import Testbench.Json.Skip
import Testbench.Proofs.Text.Numeral

/-! The grammar of JSON, told without the reader. A text that is skipped need only be well-formed;
a string that somebody asks for spells its characters, each of them in one of several ways. -/
namespace Testbench.Json

def Blank (text : List Char) : Prop :=
  ∀ c ∈ text, c ∈ [' ', '\t', '\n', '\r']

def shortEscapes : List (Char × Char) :=
  [('"', '"'), ('\\', '\\'), ('/', '/'), ('\x08', 'b'), ('\x0c', 'f'), ('\n', 'n'), ('\r', 'r'),
    ('\t', 't')]

def CodeUnit (digits : List Char) (value : Nat) : Prop :=
  digits.length = 4 ∧ Text.Digits 16 digits value

inductive SpellsChar : Char → List Char → Prop
  | plain {c : Char} (printable : 0x20 ≤ c.toNat) (unquoted : c ≠ '"') (unescaped : c ≠ '\\') :
    SpellsChar c [c]
  | short {c letter : Char} (known : (c, letter) ∈ shortEscapes) : SpellsChar c ['\\', letter]
  | unit {c : Char} {digits : List Char} (unit : CodeUnit digits c.toNat) :
    SpellsChar c ('\\' :: 'u' :: digits)
  /-- A character beyond the basic plane, by its two surrogates. -/
  | surrogates {c : Char} {high low : List Char} (large : 0x10000 ≤ c.toNat)
    (first : CodeUnit high (0xD800 + (c.toNat - 0x10000) / 0x400))
    (second : CodeUnit low (0xDC00 + (c.toNat - 0x10000) % 0x400)) :
    SpellsChar c ('\\' :: 'u' :: high ++ '\\' :: 'u' :: low)

inductive Spells : List Char → List Char → Prop
  | nil : Spells [] []
  | cons {c : Char} {text chars rest : List Char} (first : SpellsChar c text)
    (others : Spells chars rest) : Spells (c :: chars) (text ++ rest)

/-- What may stand in a string that nobody reads: a surrogate need not have its partner there. -/
inductive LooseChar : List Char → Prop
  | plain {c : Char} (printable : 0x20 ≤ c.toNat) (unquoted : c ≠ '"') (unescaped : c ≠ '\\') :
    LooseChar [c]
  | short {c letter : Char} (known : (c, letter) ∈ shortEscapes) : LooseChar ['\\', letter]
  | unit {digits : List Char} {value : Nat} (unit : CodeUnit digits value) :
    LooseChar ('\\' :: 'u' :: digits)

def Loose (text : List Char) : Prop :=
  ∃ pieces : List (List Char), (∀ piece ∈ pieces, LooseChar piece) ∧ text = pieces.flatten

def AllDigits (text : List Char) : Prop :=
  ∀ c ∈ text, Number.isDigit c = true

inductive IsInteger : List Char → Prop
  | zero : IsInteger ['0']
  | positive {c : Char} {rest : List Char} (digit : Number.isDigit c = true) (leading : c ≠ '0')
    (digits : AllDigits rest) : IsInteger (c :: rest)

inductive IsFraction : List Char → Prop
  | none : IsFraction []
  | digits {c : Char} {rest : List Char} (digits : AllDigits (c :: rest)) :
    IsFraction ('.' :: c :: rest)

inductive IsExponent : List Char → Prop
  | none : IsExponent []
  | digits {mark c : Char} {sign rest : List Char} (marked : mark = 'e' ∨ mark = 'E')
    (signed : sign = [] ∨ sign = ['+'] ∨ sign = ['-']) (digits : AllDigits (c :: rest)) :
    IsExponent (mark :: (sign ++ c :: rest))

def IsNumber (text : List Char) : Prop :=
  ∃ sign integer fraction exponent, text = sign ++ integer ++ fraction ++ exponent ∧
    (sign = [] ∨ sign = ['-']) ∧ IsInteger integer ∧ IsFraction fraction ∧ IsExponent exponent

structure Element where
  before : List Char
  value : List Char
  after : List Char

def Element.text (element : Element) : List Char :=
  element.before ++ element.value ++ element.after

def Element.Spaced (element : Element) : Prop :=
  Blank element.before ∧ Blank element.after

structure Member where
  before : List Char
  key : List Char
  after : List Char
  element : Element

def Member.text (member : Member) : List Char :=
  member.before ++ '"' :: (member.key ++ '"' :: (member.after ++ ':' :: member.element.text))

def Member.Spaced (member : Member) : Prop :=
  Blank member.before ∧ Blank member.after ∧ member.element.Spaced

def Member.value (member : Member) : List Char :=
  member.element.value

def joined (texts : List (List Char)) : List Char :=
  [','].intercalate texts

def object (blanks : List Char) (members : List Member) : List Char :=
  '{' :: (blanks ++ joined (members.map Member.text) ++ ['}'])

def array (blanks : List Char) (elements : List Element) : List Char :=
  '[' :: (blanks ++ joined (elements.map Element.text) ++ [']'])

inductive Value : List Char → Prop
  | null : Value ['n', 'u', 'l', 'l']
  | true : Value ['t', 'r', 'u', 'e']
  | false : Value ['f', 'a', 'l', 's', 'e']
  | number {text : List Char} (number : IsNumber text) : Value text
  | string {inner : List Char} (loose : Loose inner) : Value ('"' :: (inner ++ ['"']))
  | array {blanks : List Char} {elements : List Element} (blank : Blank blanks)
    (spaced : ∀ element ∈ elements, element.Spaced)
    (values : ∀ element ∈ elements, Value element.value) : Value (array blanks elements)
  | object {blanks : List Char} {members : List Member} (blank : Blank blanks)
    (spaced : ∀ member ∈ members, member.Spaced) (keys : ∀ member ∈ members, Loose member.key)
    (values : ∀ member ∈ members, Value member.value) : Value (object blanks members)

/-- The text ends here, or goes on with a blank or a mark between or behind values. -/
def Stops (text : List Char) : Prop :=
  ∀ c ∈ text.head?, c ∈ [' ', '\t', '\n', '\r', ',', ']', '}']

theorem Stops.cons {c : Char} (mark : c = ',' ∨ c = ']' ∨ c = '}') (rest : List Char) :
    Stops (c :: rest) := by
  rcases mark with rfl | rfl | rfl <;> simp [Stops]

theorem Stops.append {blanks rest : List Char} (blank : Blank blanks) (stops : Stops rest) :
    Stops (blanks ++ rest) := by
  cases blanks with
  | nil => exact stops
  | cons c blanks =>
    simp only [Stops, List.cons_append, List.head?_cons, Option.mem_some_iff, forall_eq']
    exact List.mem_append_left [',', ']', '}'] (blank c (.head _))

theorem Stops.flatMap {rest : List Char} (texts : List (List Char)) (stops : Stops rest) :
    Stops (texts.flatMap (',' :: ·) ++ rest) := by
  cases texts with
  | nil => exact stops
  | cons text texts => exact .cons (.inl rfl) _

theorem joined_cons (text : List Char) (texts : List (List Char)) :
    joined (text :: texts) = text ++ texts.flatMap (',' :: ·) := by
  induction texts generalizing text with
  | nil => simp [joined, List.intercalate]
  | cons next rest ih =>
    have later := ih next
    simp only [joined, List.intercalate, List.intersperse_cons_cons, List.flatten_cons] at later ⊢
    rw [later]
    simp

theorem IsInteger.exists_cons {digits : List Char} (grammar : IsInteger digits) :
    ∃ c others, digits = c :: others ∧ Number.isDigit c = true ∧ AllDigits others := by
  cases grammar with
  | zero => exact ⟨'0', [], rfl, by decide, nofun⟩
  | positive digit leading more => exact ⟨_, _, rfl, digit, more⟩

theorem IsInteger.allDigits {digits : List Char} (grammar : IsInteger digits) :
    AllDigits digits := by
  obtain ⟨c, others, rfl, digit, more⟩ := grammar.exists_cons
  exact List.forall_mem_cons.mpr ⟨digit, more⟩

theorem isBlank_iff {c : Char} : isBlank c = true ↔ c ∈ [' ', '\t', '\n', '\r'] := by
  simp [isBlank, or_assoc]

theorem Blank.isBlank {text : List Char} (blank : Blank text) {c : Char} (here : c ∈ text) :
    Json.isBlank c = Bool.true :=
  isBlank_iff.mpr (blank c here)

theorem Blank.append {first second : List Char} (one : Blank first) (two : Blank second) :
    Blank (first ++ second) :=
  List.forall_mem_append.mpr ⟨one, two⟩

theorem mem_of_isDigit {c : Char} (digit : Number.isDigit c = Bool.true) :
    c ∈ ['0', '1', '2', '3', '4', '5', '6', '7', '8', '9'] := by
  have ascii : ∀ n < 128, Number.isDigit (Char.ofNat n) = true →
      Char.ofNat n ∈ ['0', '1', '2', '3', '4', '5', '6', '7', '8', '9'] := by decide
  have small : c.toNat < 128 := by
    have le : c ≤ '9' := by
      simp only [Number.isDigit, Bool.and_eq_true, decide_eq_true_eq] at digit
      exact digit.2
    have bound : c.toNat ≤ '9'.toNat := UInt32.le_iff_toNat_le.mp (Char.le_def.mp le)
    exact Nat.lt_of_le_of_lt bound (by decide)
  have table := ascii c.toNat small
  rw [Char.ofNat_toNat] at table
  exact table digit

theorem not_mark_of_isDigit {c : Char} (digit : Number.isDigit c = Bool.true) :
    Json.isBlank c = Bool.false ∧ c ≠ '-' ∧ c ≠ ']' := by
  have known := mem_of_isDigit digit
  simp only [List.mem_cons, List.not_mem_nil, or_false] at known
  rcases known with rfl | rfl | rfl | rfl | rfl | rfl | rfl | rfl | rfl | rfl <;> decide

end Testbench.Json
