import Testbench.Text.Number
import Mathlib.Data.Nat.Digits.Defs
import Mathlib.Data.List.Forall2
import Mathlib.Tactic.Ring

/-! The grammar of unsigned numbers: an optional plus sign, then at least one digit of
either case, with a value that fits 64 bits. Reading accepts exactly the numerals. -/
namespace Testbench.Text

def Digit (base : Nat) (c : Char) (d : Nat) : Prop :=
  d < base ∧ (c = d.digitChar ∨ c = d.digitChar.toUpper)

def Digits (base : Nat) (digits : List Char) (value : Nat) : Prop :=
  ∃ values, List.Forall₂ (Digit base) digits values ∧ Nat.ofDigits base values.reverse = value

def Numeral (base : Nat) (text : List Char) (value : Nat) : Prop :=
  ∃ sign digits, text = sign ++ digits ∧ (sign = [] ∨ sign = ['+']) ∧ digits ≠ [] ∧
    Digits base digits value ∧ value < 2 ^ 64

theorem digit?_digitChar : ∀ d < 16,
    digit? 16 d.digitChar = some d ∧ digit? 16 d.digitChar.toUpper = some d := by
  decide

theorem digit?_ascii : ∀ n < 128, ∀ d ∈ digit? 16 (Char.ofNat n),
    Char.ofNat n = d.digitChar ∨ Char.ofNat n = d.digitChar.toUpper := by
  decide

theorem digit?_eq_filter {base : Nat} (small : base ≤ 16) (c : Char) :
    digit? base c = (digit? 16 c).filter (· < base) := by
  unfold digit?
  dsimp only
  rw [Option.filter_filter]
  congr 1
  funext value
  simp
  omega

/-- Digits are ASCII, so a table decides what they stand for. -/
theorem toNat_lt_of_digit? {c : Char} {d : Nat} (h : digit? 16 c = some d) : c.toNat < 128 := by
  obtain ⟨value, -⟩ := Option.filter_eq_some_iff.mp h
  by_contra large
  have above (bound : Char) (ascii : bound.toNat < 128) : ¬c ≤ bound := by
    intro le
    have : c.toNat ≤ bound.toNat := UInt32.le_iff_toNat_le.mp (Char.le_def.mp le)
    omega
  simp [above '9' (by decide), above 'f' (by decide), above 'F' (by decide)] at value

theorem digit?_eq_some_iff {base : Nat} (small : base ≤ 16) (c : Char) (d : Nat) :
    digit? base c = some d ↔ Digit base c d := by
  rw [digit?_eq_filter small, Option.filter_eq_some_iff, decide_eq_true_iff]
  constructor
  · intro ⟨value, bound⟩
    have table := digit?_ascii c.toNat (toNat_lt_of_digit? value)
    rw [Char.ofNat_toNat] at table
    exact ⟨bound, table d value⟩
  · intro ⟨bound, char⟩
    have table := digit?_digitChar d (Nat.lt_of_lt_of_le bound small)
    rcases char with rfl | rfl
    · exact ⟨table.1, bound⟩
    · exact ⟨table.2, bound⟩

theorem foldlM_digit?_eq_some_iff {base : Nat} (small : base ≤ 16) (digits : List Char)
    (start value : Nat) :
    digits.foldlM (fun value c => (digit? base c).map (value * base + ·)) start = some value ↔
      ∃ values, List.Forall₂ (Digit base) digits values ∧
        start * base ^ digits.length + Nat.ofDigits base values.reverse = value := by
  induction digits generalizing start with
  | nil =>
    constructor
    · intro h
      exact ⟨[], .nil, by simpa using h⟩
    · rintro ⟨_, ⟨⟩, h⟩
      simpa using h
  | cons c rest ih =>
    have place (d : Nat) (values : List Nat) (same : values.length = rest.length) :
        start * base ^ (c :: rest).length + Nat.ofDigits base (d :: values).reverse =
          (start * base + d) * base ^ rest.length + Nat.ofDigits base values.reverse := by
      rw [Nat.ofDigits_reverse_cons, same, List.length_cons, pow_succ]
      ring
    rw [List.foldlM_cons]
    constructor
    · intro h
      obtain ⟨next, first, h⟩ := Option.bind_eq_some_iff.mp h
      obtain ⟨d, digit, rfl⟩ := Option.map_eq_some_iff.mp first
      obtain ⟨values, read, total⟩ := (ih _).mp h
      refine ⟨d :: values, .cons ((digit?_eq_some_iff small c d).mp digit) read, ?_⟩
      rw [place d values read.length_eq.symm, total]
    · rintro ⟨_, _ | ⟨digit, read⟩, total⟩
      rename_i d values
      rw [place d values read.length_eq.symm] at total
      apply Option.bind_eq_some_iff.mpr
      refine ⟨start * base + d, ?_, (ih _).mpr ⟨values, read, total⟩⟩
      rw [(digit?_eq_some_iff small c d).mpr digit]
      rfl

theorem ofDigits?_eq_some_iff {base : Nat} (small : base ≤ 16) (digits : List Char) (value : Nat) :
    ofDigits? base digits = some value ↔ Digits base digits value := by
  unfold ofDigits? Digits
  rw [foldlM_digit?_eq_some_iff small]
  simp only [Nat.zero_mul, Nat.zero_add]

theorem ofDigits?_toDigits {base : Nat} (big : 1 < base) (small : base ≤ 16) (value : Nat) :
    ofDigits? base (Nat.toDigits base value) = some value := by
  have digit (d : Nat) (bound : d < base) : digit? base d.digitChar = some d :=
    (digit?_eq_some_iff small _ _).mpr ⟨bound, .inl rfl⟩
  induction value using Nat.strongRecOn with
  | ind value ih =>
    by_cases short : value < base
    · rw [Nat.toDigits_of_lt_base short]
      simp [ofDigits?, digit value short]
    · have positive : 0 < base := by omega
      have before := ih (value / base) (Nat.div_lt_self (by omega) big)
      unfold ofDigits? at before
      rw [Nat.toDigits_of_base_le big (by omega), ofDigits?, List.foldlM_append, before]
      simp [digit _ (Nat.mod_lt value positive), Nat.div_add_mod']

theorem digit?_toLower (c : Char) : digit? 16 c.toLower = digit? 16 c := by
  by_cases upper : 'A' ≤ c ∧ c ≤ 'Z'
  · have table : ∀ n < 128, digit? 16 (Char.ofNat n).toLower = digit? 16 (Char.ofNat n) := by decide
    have bound : c.toNat ≤ 'Z'.toNat := UInt32.le_iff_toNat_le.mp (Char.le_def.mp upper.2)
    have same := table c.toNat (Nat.lt_of_le_of_lt bound (by decide))
    rwa [Char.ofNat_toNat] at same
  · have same : c.toLower = c := dif_neg upper
    rw [same]

theorem ofDigits?_toLower (digits : List Char) :
    ofDigits? 16 (digits.map Char.toLower) = ofDigits? 16 digits := by
  simp only [ofDigits?, List.foldlM_map, digit?_toLower]

theorem ofDigits?_zeros (zeros : Nat) (digits : List Char) :
    ofDigits? 16 (List.replicate zeros '0' ++ digits) = ofDigits? 16 digits := by
  have zero : digit? 16 '0' = some 0 := by decide
  induction zeros with
  | zero => rfl
  | succ zeros ih =>
    rw [← ih]
    simp [ofDigits?, List.replicate_succ, zero]

theorem digits_of_lowered {digits : List Char} {value : Nat}
    (lowered : digits.map Char.toLower = Nat.toDigits 16 value) (zeros : Nat) :
    Digits 16 (List.replicate zeros '0' ++ digits) value := by
  rw [← ofDigits?_eq_some_iff (by decide), ofDigits?_zeros, ← ofDigits?_toLower, lowered]
  exact ofDigits?_toDigits (by decide) (by decide) value

theorem forall_digits {p : Char → Bool}
    (digit : ∀ d < 16, p d.digitChar = true ∧ p d.digitChar.toUpper = true)
    {digits : List Char} {value : Nat} (read : Digits 16 digits value) :
    ∀ c ∈ digits, p c = true := by
  obtain ⟨values, read, -⟩ := read
  induction read with
  | nil => exact nofun
  | @cons c d _ _ first _ ih =>
    refine List.forall_mem_cons.mpr ⟨?_, ih⟩
    obtain ⟨bound, rfl | rfl⟩ := first
    · exact (digit d bound).1
    · exact (digit d bound).2

theorem not_digits_plus {base : Nat} (small : base ≤ 16) (rest : List Char) (value : Nat) :
    ¬Digits base ('+' :: rest) value := by
  rintro ⟨_, _ | ⟨digit, _⟩, _⟩
  rw [← digit?_eq_some_iff small, digit?_eq_filter small] at digit
  exact nomatch digit

theorem numeral_plus_iff {base : Nat} (small : base ≤ 16) (rest : List Char) (value : Nat) :
    Numeral base ('+' :: rest) value ↔
      rest ≠ [] ∧ Digits base rest value ∧ value < 2 ^ 64 := by
  constructor
  · rintro ⟨sign, digits, text, rfl | rfl, nonempty, read, fits⟩
    · rw [List.nil_append] at text
      exact absurd (text ▸ read) (not_digits_plus small rest value)
    · cases text
      exact ⟨nonempty, read, fits⟩
  · intro ⟨nonempty, read, fits⟩
    exact ⟨['+'], rest, rfl, .inr rfl, nonempty, read, fits⟩

theorem numeral_iff_of_unsigned (base : Nat) (text : List Char) (value : Nat)
    (unsigned : ∀ rest, text ≠ '+' :: rest) :
    Numeral base text value ↔ text ≠ [] ∧ Digits base text value ∧ value < 2 ^ 64 := by
  constructor
  · rintro ⟨sign, digits, rfl, rfl | rfl, nonempty, read, fits⟩
    · exact ⟨nonempty, read, fits⟩
    · exact absurd rfl (unsigned digits)
  · intro ⟨nonempty, read, fits⟩
    exact ⟨[], text, rfl, .inl rfl, nonempty, read, fits⟩

theorem map_fit_eq_some_iff (read : Option Nat) (value : Nat) :
    (read.bind fun value =>
      if h : value < UInt64.size then some (UInt64.ofNatLT value h) else none).map UInt64.toNat =
        some value ↔ read = some value ∧ value < 2 ^ 64 := by
  cases read with
  | none => simp
  | some number =>
    by_cases fits : number < UInt64.size
    · have bound : number < 2 ^ 64 := fits
      simp only [Option.bind_some, dif_pos fits, Option.map_some, UInt64.toNat_ofNatLT,
        Option.some.injEq]
      constructor
      · rintro rfl
        exact ⟨rfl, bound⟩
      · exact And.left
    · simp only [Option.bind_some, dif_neg fits, Option.map_none, Option.some.injEq]
      constructor
      · exact fun h => nomatch h
      · rintro ⟨rfl, bound⟩
        exact absurd bound fits

theorem unsigned?_eq_some_iff {base : Nat} (small : base ≤ 16) (text : List Char) (value : Nat) :
    (unsigned? base text).map UInt64.toNat = some value ↔ Numeral base text value := by
  have fitting (digits : List Char) :
      ((if digits.isEmpty then none
        else (ofDigits? base digits).bind fun value =>
          if h : value < UInt64.size then some (UInt64.ofNatLT value h) else none).map
        UInt64.toNat) = some value ↔
        digits ≠ [] ∧ Digits base digits value ∧ value < 2 ^ 64 := by
    rw [← ofDigits?_eq_some_iff small]
    cases digits with
    | nil => simp
    | cons c rest =>
      rw [List.isEmpty_cons, if_neg Bool.false_ne_true, map_fit_eq_some_iff]
      exact (and_iff_right (List.cons_ne_nil c rest)).symm
  unfold unsigned?
  dsimp only
  split
  · rw [fitting, numeral_plus_iff small]
  · rename_i unsigned
    rw [fitting, numeral_iff_of_unsigned base text value unsigned]

theorem toList_hexadecimal (width value : Nat) :
    (hexadecimal width value).toList =
      List.replicate (width - (Nat.toDigits 16 value).length) '0' ++ Nat.toDigits 16 value :=
  String.toList_ofList

theorem ofDigits?_hexadecimal (width value : Nat) :
    ofDigits? 16 (hexadecimal width value).toList = some value := by
  rw [toList_hexadecimal, ofDigits?_zeros, ofDigits?_toDigits (by decide) (by decide)]

theorem not_mem_hexadecimal {c : Char} (other : digit? 16 c = none) (width value : Nat) :
    c ∉ (hexadecimal width value).toList := by
  have read := (ofDigits?_eq_some_iff (by decide) _ _).mp (ofDigits?_hexadecimal width value)
  have apart (d : Char) (digit : (digit? 16 d).isSome = true) : (d != c) = true := by
    refine bne_iff_ne.mpr ?_
    rintro rfl
    rw [other] at digit
    cases digit
  have digits := forall_digits (p := (· != c)) (fun d small => ?_) read
  · exact fun here => bne_iff_ne.mp (digits c here) rfl
  · obtain ⟨lower, upper⟩ := digit?_digitChar d small
    exact ⟨apart _ (by rw [lower]; rfl), apart _ (by rw [upper]; rfl)⟩

end Testbench.Text
