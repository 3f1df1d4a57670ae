import Testbench.Proofs.Json.Schema

/-! Compact texts for values: no blanks, and escapes where there have to be some. -/
namespace Testbench.Json

def escape (c : Char) : List Char :=
  if c = '"' ∨ c = '\\' then ['\\', c]
  else if c.toNat < 0x20 then
    ['\\', 'u', '0', '0', (c.toNat / 16).digitChar, (c.toNat % 16).digitChar]
  else [c]

def quote (text : String) : List Char :=
  '"' :: (text.toList.flatMap escape ++ ['"'])

def Member.compact (name : String) (value : List Char) : Member :=
  ⟨[], name.toList.flatMap escape, [], ⟨[], value, []⟩⟩

theorem codeUnit_of_lt {n : Nat} (small : n < 0x100) :
    CodeUnit ['0', '0', (n / 16).digitChar, (n % 16).digitChar] n := by
  have digit (d : Nat) (small : d < 16) : Text.Digit 16 d.digitChar d := ⟨small, .inl rfl⟩
  refine ⟨rfl, [0, 0, n / 16, n % 16], ?_, ?_⟩
  · exact .cons (digit 0 (by decide)) (.cons (digit 0 (by decide))
      (.cons (digit _ (by omega)) (.cons (digit _ (by omega)) .nil)))
  · simp only [List.reverse_cons, List.reverse_nil, List.nil_append, List.cons_append,
      Nat.ofDigits_cons, Nat.ofDigits_nil]
    omega

theorem spellsChar_escape (c : Char) : SpellsChar c (escape c) := by
  unfold escape
  split
  next special => rcases special with rfl | rfl <;> exact .short (by decide)
  next plain =>
    rw [not_or] at plain
    split
    next control => exact .unit (codeUnit_of_lt (by omega))
    next printable => exact .plain (Nat.le_of_not_lt printable) plain.1 plain.2

theorem spells_escape (chars : List Char) : Spells chars (chars.flatMap escape) := by
  induction chars with
  | nil => exact .nil
  | cons c chars ih => exact .cons (spellsChar_escape c) ih

theorem spellsString_quote (text : String) : SpellsString text (quote text) :=
  ⟨_, spells_escape text.toList, rfl⟩

theorem Schema.written_compact {ρ τ : Type} {schema : Schema ρ τ} {given : List τ}
    {text : τ → List Char} (spelled : ∀ setting, schema.Spelled setting (text setting))
    (once : (given.map schema.name).Nodup) :
    schema.Written given
      (object [] (given.map fun setting => .compact (schema.name setting) (text setting))) := by
  let entry (setting : τ) : Entry τ :=
    ⟨.compact (schema.name setting) (text setting), some setting⟩
  refine ⟨[], given.map entry, nofun, ⟨?_, ?_, ?_, once⟩, by simp [entry, Function.comp_def]⟩
  · simp [entry, Member.compact, Member.Spaced, Element.Spaced, Blank]
  · simp only [List.mem_map, forall_exists_index, and_imp, forall_apply_eq_imp_iff₂]
    exact fun setting _ => ⟨spells_escape _, spelled setting⟩
  · have all : settings (given.map entry) = given := by simp [settings, entry]
    rw [all]

end Testbench.Json
