import Testbench.Proofs.Json.Grammar

/-! Strings are read back from each of their spellings. -/
namespace Testbench.Json

theorem CodeUnit.exists_digits {text : List Char} {value : Nat} (unit : CodeUnit text value) :
    ∃ a b c d w x y z, text = [a, b, c, d] ∧ Text.digit? 16 a = some w ∧
      Text.digit? 16 b = some x ∧ Text.digit? 16 c = some y ∧ Text.digit? 16 d = some z ∧
      value = ((w * 16 + x) * 16 + y) * 16 + z := by
  obtain ⟨length, values, read, rfl⟩ := unit
  have digit {c : Char} {d : Nat} (digit : Text.Digit 16 c d) : Text.digit? 16 c = some d :=
    (Text.digit?_eq_some_iff (by decide) c d).mpr digit
  match text, values, length, read with
  | [a, b, c, d], [w, x, y, z], _, .cons one (.cons two (.cons three (.cons four .nil))) =>
    refine ⟨a, b, c, d, w, x, y, z, rfl, digit one, digit two, digit three, digit four, ?_⟩
    simp [Nat.ofDigits_cons]
    ring

namespace Quoted

variable (strict : Bool) (done rest : List Char)

theorem scan_digit {high : Option Nat} {count value digit : Nat} {c : Char}
    (read : Text.digit? 16 c = some digit) (more : count + 1 < 4) :
    (hex high count value).scan strict done (c :: rest) =
      (hex high (count + 1) (value * 16 + digit)).scan strict done rest := by
  simp [scan, step, read, more]

theorem scan_digits (high : Option Nat) {text : List Char} {value : Nat}
    (unit : CodeUnit text value) :
    (hex high 0 0).scan strict done (text ++ rest) =
      match number strict high value with
      | .error failure => .error failure
      | .ok (some c, state) => state.scan strict (c :: done) rest
      | .ok (none, state) => state.scan strict done rest := by
  obtain ⟨a, b, c, d, w, x, y, z, rfl, one, two, three, four, rfl⟩ := unit.exists_digits
  simp only [List.cons_append, List.nil_append]
  rw [scan_digit strict done _ one (by decide), scan_digit strict done _ two (by decide),
    scan_digit strict done _ three (by decide), scan]
  · rcases numbered : number strict high (((w * 16 + x) * 16 + y) * 16 + z) with
      failure | ⟨_ | c, state⟩ <;> simp [step, four, numbered]
  · intro impossible
    cases impossible

theorem scan_plain {c : Char} (printable : 0x20 ≤ c.toNat) (unquoted : c ≠ '"')
    (unescaped : c ≠ '\\') :
    plain.scan strict done (c :: rest) = plain.scan strict (c :: done) rest := by
  rw [scan]
  · simp [step, unescaped, Nat.not_lt_of_le printable]
  · exact fun _ => unquoted

theorem scan_short {c letter : Char} (known : (c, letter) ∈ shortEscapes) :
    plain.scan strict done ('\\' :: letter :: rest) = plain.scan strict (c :: done) rest := by
  have table : ∀ entry ∈ shortEscapes, entry.2 ≠ 'u' ∧ escaped? entry.2 = some entry.1 := by decide
  obtain ⟨named, escaped⟩ := table _ known
  simp [scan, step, named, escaped]

theorem scan_unit (text : List Char) :
    plain.scan strict done ('\\' :: 'u' :: text) = (hex none 0 0).scan strict done text := by
  simp [scan, step]

theorem scan_pair (high : Nat) (text : List Char) :
    (pair high).scan strict done ('\\' :: 'u' :: text) =
      (hex (some high) 0 0).scan strict done text := by
  simp [scan, step]

theorem not_surrogate (c : Char) : isHigh c.toNat = false ∧ isLow c.toNat = false := by
  have valid : c.toNat < 0xD800 ∨ 0xDFFF < c.toNat ∧ c.toNat < 0x110000 := c.valid
  simp [isHigh, isLow]
  omega

theorem number_first {c : Char} (large : 0x10000 ≤ c.toNat) :
    number true none (0xD800 + (c.toNat - 0x10000) / 0x400) =
      .ok (none, pair (0xD800 + (c.toNat - 0x10000) / 0x400)) := by
  have valid : c.toNat < 0xD800 ∨ 0xDFFF < c.toNat ∧ c.toNat < 0x110000 := c.valid
  have low : isLow (0xD800 + (c.toNat - 0x10000) / 0x400) = false := by
    simp [isLow]
    omega
  have high : isHigh (0xD800 + (c.toNat - 0x10000) / 0x400) = true := by
    simp [isHigh]
    omega
  simp [number, low, high]

theorem number_second {c : Char} (large : 0x10000 ≤ c.toNat) :
    number true (some (0xD800 + (c.toNat - 0x10000) / 0x400))
      (0xDC00 + (c.toNat - 0x10000) % 0x400) = .ok (some c, .plain) := by
  have low : isLow (0xDC00 + (c.toNat - 0x10000) % 0x400) = true := by
    simp [isLow]
    omega
  have value : (0xD800 + (c.toNat - 0x10000) / 0x400 - 0xD800) * 0x400 +
      (0xDC00 + (c.toNat - 0x10000) % 0x400 - 0xDC00) + 0x10000 = c.toNat := by
    omega
  have whole : combine (0xD800 + (c.toNat - 0x10000) / 0x400)
      (0xDC00 + (c.toNat - 0x10000) % 0x400) = c := by
    rw [combine, value, Char.ofNat_toNat]
  simp [number, low, whole]

theorem scan_spellsChar {c : Char} {text : List Char} (spells : SpellsChar c text) :
    plain.scan true done (text ++ rest) = plain.scan true (c :: done) rest := by
  cases spells with
  | plain printable unquoted unescaped =>
    exact scan_plain true done rest printable unquoted unescaped
  | short known => exact scan_short true done rest known
  | unit unit =>
    obtain ⟨high, low⟩ := not_surrogate c
    rw [List.cons_append, List.cons_append, scan_unit, scan_digits true done rest none unit]
    simp [number, high, low]
  | surrogates large first second =>
    simp only [List.cons_append, List.append_assoc]
    rw [scan_unit, scan_digits true done _ none first, number_first large]
    dsimp only
    rw [scan_pair, scan_digits true done rest _ second, number_second large]

theorem scan_spells {chars inner : List Char} (spells : Spells chars inner) :
    plain.scan true done (inner ++ '"' :: rest) = .ok (done.reverse ++ chars, rest) := by
  induction spells generalizing done with
  | nil => simp [scan]
  | cons first others ih =>
    rw [List.append_assoc, scan_spellsChar done _ first, ih]
    simp

end Quoted

theorem quoted_spells {chars inner : List Char} (spells : Spells chars inner) (rest : List Char) :
    quoted (inner ++ '"' :: rest) = .ok (chars, rest) :=
  Quoted.scan_spells [] rest spells

end Testbench.Json
