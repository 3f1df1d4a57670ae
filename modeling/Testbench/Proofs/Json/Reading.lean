import Mathlib.Data.List.TakeDrop
import Testbench.Json.Reader
import Testbench.Proofs.Json.Skip

/-! Single values are read from each of their spellings, with blanks in front of them and up to
their last character. -/
namespace Testbench.Json

/-- The reader takes every spelling of a value, wherever a value may stand. -/
def Reads {α : Type} (read : Reader α) (spells : α → List Char → Prop) : Prop :=
  ∀ value text, spells value text → ∀ blanks rest, Blank blanks → Stops rest →
    read (blanks ++ (text ++ rest)) = .ok (value, rest)

def SpellsNull (_ : Unit) (text : List Char) : Prop :=
  text = ['n', 'u', 'l', 'l']

def SpellsBool (value : Bool) (text : List Char) : Prop :=
  text = if value then ['t', 'r', 'u', 'e'] else ['f', 'a', 'l', 's', 'e']

/-- A natural number is written with its decimal digits, without zeros in front. -/
def SpellsNatural (value : UInt64) (text : List Char) : Prop :=
  text = Nat.toDigits 10 value.toNat

def SpellsString (value : String) (text : List Char) : Prop :=
  ∃ inner, Spells value.toList inner ∧ text = '"' :: (inner ++ ['"'])

def SpellsOptional {α : Type} (spells : α → List Char → Prop) : Option α → List Char → Prop
  | none, text => text = ['n', 'u', 'l', 'l']
  | some value, text => spells value text

variable {blanks rest : List Char} {c : Char}

theorem dropBlanks_append (blank : Blank blanks) :
    dropBlanks (blanks ++ rest) = dropBlanks rest := by
  unfold dropBlanks
  rw [List.dropWhile_append_of_pos fun c here => blank.isBlank here]

theorem dropBlanks_cons (visible : isBlank c = false) : dropBlanks (c :: rest) = c :: rest := by
  simp [dropBlanks, visible]

theorem literal_append (left : List Char) : literal left (left ++ rest) = .ok rest := by
  induction left with
  | nil => rfl
  | cons c left ih => simpa [literal] using ih

theorem reads_null : Reads null SpellsNull := by
  rintro value text rfl blanks rest blank -
  unfold null
  rw [dropBlanks_append blank]
  exact congrArg (Except.map ((), ·)) (literal_append ['u', 'l', 'l'])

theorem reads_bool : Reads bool SpellsBool := by
  rintro value text rfl blanks rest blank -
  unfold bool
  rw [dropBlanks_append blank]
  cases value with
  | true => exact congrArg (Except.map (true, ·)) (literal_append ['r', 'u', 'e'])
  | false => exact congrArg (Except.map (false, ·)) (literal_append ['a', 'l', 's', 'e'])

theorem reads_string : Reads string SpellsString := by
  rintro value text ⟨inner, spells, rfl⟩ blanks rest blank -
  unfold string
  rw [dropBlanks_append blank, List.cons_append, dropBlanks_cons (by decide), List.append_assoc]
  simp [quoted_spells spells, Except.map]

theorem optional_cons {α : Type} (read : Reader α) (blank : Blank blanks)
    (visible : isBlank c = false) (letter : c ≠ 'n') : optional read (blanks ++ c :: rest) =
      (read (c :: rest)).map fun (value, rest) => (some value, rest) := by
  unfold optional
  rw [dropBlanks_append blank, dropBlanks_cons visible]
  split
  · rename_i same
    cases same
    exact absurd rfl letter
  · rfl

theorem reads_optional {α : Type} {read : Reader α} {spells : α → List Char → Prop}
    (reads : Reads read spells)
    (starts : ∀ value text, spells value text → ∃ c rest, text = c :: rest ∧ isBlank c = false ∧
      c ≠ 'n') : Reads (optional read) (SpellsOptional spells) := by
  intro value text spelled blanks rest blank stops
  cases value with
  | none =>
    obtain rfl := spelled
    unfold optional
    rw [dropBlanks_append blank]
    exact congrArg (Except.map (none, ·)) (literal_append ['u', 'l', 'l'])
  | some value =>
    obtain ⟨c, others, rfl, visible, letter⟩ := starts value text spelled
    have taken := reads value _ spelled [] rest nofun stops
    rw [List.nil_append, List.cons_append] at taken
    rw [List.cons_append, optional_cons read blank visible letter, taken]
    rfl

theorem toDigits_of_pos {n : Nat} (positive : 0 < n) :
    ∃ c rest, Nat.toDigits 10 n = c :: rest ∧ Number.isDigit c = true ∧ c ≠ '0' ∧
      AllDigits rest := by
  have table : ∀ d < 10, Number.isDigit d.digitChar = true ∧ (d ≠ 0 → d.digitChar ≠ '0') := by
    decide
  induction n using Nat.strongRecOn with
  | ind n ih =>
    by_cases short : n < 10
    · rw [Nat.toDigits_of_lt_base short]
      exact ⟨_, [], rfl, (table n short).1, (table n short).2 (by omega), nofun⟩
    · obtain ⟨c, rest, digits, digit, leading, more⟩ :=
        ih (n / 10) (Nat.div_lt_self positive (by decide)) (by omega)
      rw [Nat.toDigits_of_base_le (by decide) (by omega), digits]
      refine ⟨c, rest ++ [(n % 10).digitChar], rfl, digit, leading, fun d here => ?_⟩
      rcases List.mem_append.mp here with here | last
      · exact more d here
      · rw [List.mem_singleton.mp last]
        exact (table _ (Nat.mod_lt n (by decide))).1

theorem integer_toDigits {n : Nat} (fits : n < 2 ^ 64) :
    Number.integer (Nat.toDigits 10 n) = (n, 0) := by
  have table : ∀ d < 10, Number.digitValue d.digitChar = d := by decide
  induction n using Nat.strongRecOn with
  | ind n ih =>
    by_cases short : n < 10
    · rw [Nat.toDigits_of_lt_base short]
      have small : n < UInt64.size := fits
      simp [Number.integer, table n short, small]
    · have before := ih (n / 10) (Nat.div_lt_self (by omega) (by decide)) (by omega)
      have small : n < UInt64.size := fits
      have split : n / 10 * 10 + n % 10 = n := by omega
      unfold Number.integer at before
      rw [Nat.toDigits_of_base_le (by decide) (by omega), Number.integer, List.foldl_append, before]
      simp [table _ (Nat.mod_lt n (by decide)), split, small]

theorem Stops.ends (stops : Stops (c :: rest)) :
    Number.isDigit c = false ∧ c ≠ '.' ∧ c ≠ 'e' ∧ c ≠ 'E' := by
  have mark := stops c rfl
  simp only [List.mem_cons, List.not_mem_nil, or_false] at mark
  rcases mark with rfl | rfl | rfl | rfl | rfl | rfl | rfl <;> decide

theorem span_digits {digits : List Char} (all : AllDigits digits) (stops : Stops rest) :
    (digits ++ rest).span Number.isDigit = (digits, rest) := by
  have loop (done : List Char) :
      List.span.loop Number.isDigit (digits ++ rest) done = (done.reverse ++ digits, rest) := by
    induction digits generalizing done with
    | nil =>
      cases rest with
      | nil => simp [List.span.loop]
      | cons c rest => simp [List.span.loop, stops.ends.1]
    | cons c digits ih =>
      simp [List.span.loop, all c (.head _), ih fun d here => all d (.tail _ here)]
  exact loop []

theorem isInteger_toDigits (n : Nat) : IsInteger (Nat.toDigits 10 n) := by
  rcases Nat.eq_zero_or_pos n with rfl | positive
  · exact .zero
  · obtain ⟨c, others, digits, digit, leading, more⟩ := toDigits_of_pos positive
    exact digits ▸ .positive digit leading more

theorem readUnsigned_integer {digits : List Char} {n : Nat} (grammar : IsInteger digits)
    (value : Number.integer digits = (n, 0)) (stops : Stops rest) :
    Number.readUnsigned (digits ++ rest) = .ok (some (UInt64.ofNat n), rest) := by
  unfold Number.readUnsigned
  rw [span_digits grammar.allDigits stops]
  cases rest with
  | nil =>
    cases grammar with
    | zero => simp [value]
    | positive digit leading more => simp [value, leading]
  | cons c rest =>
    obtain ⟨-, point, lower, upper⟩ := stops.ends
    cases grammar with
    | zero => simp [value, point, lower, upper]
    | positive digit leading more => simp [value, leading, point, lower, upper]

theorem reads_natural : Reads natural SpellsNatural := by
  rintro value text rfl blanks rest blank stops
  have read := readUnsigned_integer (isInteger_toDigits value.toNat)
    (integer_toDigits value.toNat_lt) stops
  obtain ⟨c, others, digits, digit, -⟩ := (isInteger_toDigits value.toNat).exists_cons
  obtain ⟨visible, unsigned, -⟩ := not_mark_of_isDigit digit
  rw [digits, List.cons_append, UInt64.ofNat_toNat] at read
  have same : number (c :: (others ++ rest)) = .ok (some value, rest) := by
    unfold number
    split
    · rename_i dash
      cases dash
      exact absurd rfl unsigned
    · exact read
  unfold natural
  rw [dropBlanks_append blank, digits, List.cons_append, dropBlanks_cons visible]
  simp [digit, same]

end Testbench.Json
