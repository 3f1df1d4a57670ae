import Mathlib.Data.List.Nodup
import Testbench.Proofs.Json.Reading
import Testbench.Proofs.Json.Record

/-! Records are told by their settings, each of which gives one field its value. An object that
holds settings for different fields, in any order and between members with other names, is read as
the record with these settings. -/
namespace Testbench.Json

/-- The settings of a record, with the texts they are written as. -/
structure Schema (ρ τ : Type) where
  fields : List (RecordField ρ)
  names : List String
  name : τ → String
  set : ρ → τ → ρ
  Spelled : τ → List Char → Prop
  named : fields.map RecordField.name = names
  taken (setting : τ) : ∃ field, fields.find? (·.name = name setting) = some field ∧
    ∀ text, Spelled setting text → ∀ record blanks rest, Blank blanks → Stops rest →
      field.read record (blanks ++ (text ++ rest)) = .ok (set record setting, rest)
  commute (record : ρ) (a b : τ) :
    name a ≠ name b → set (set record a) b = set (set record b) a

theorem RecordField.of_reads {ρ α : Type} {read : Reader α} {spells : α → List Char → Prop}
    (reads : Reads read spells) (name : String) (set : ρ → α → ρ) {value : α} {text : List Char}
    (spelled : spells value text) (record : ρ) (blanks rest : List Char) (blank : Blank blanks)
    (stops : Stops rest) :
    (RecordField.of name read set).read record (blanks ++ (text ++ rest)) =
      .ok (set record value, rest) := by
  simp [RecordField.of, reads value text spelled blanks rest blank stops, Except.map]

/-- A member of an object, with the setting it stands for, if any. -/
structure Entry (τ : Type) where
  member : Member
  setting : Option τ

def settings {τ : Type} (entries : List (Entry τ)) : List τ :=
  entries.filterMap Entry.setting

namespace Schema

variable {ρ τ : Type}

/-- A setting is spelled under the name of its field. Any other member has a name of its own. -/
def Spells (schema : Schema ρ τ) (entry : Entry τ) : Prop :=
  match entry.setting with
  | some setting =>
    entry.member.Names (schema.name setting) ∧ schema.Spelled setting entry.member.value
  | none => (∃ name ∉ schema.names, entry.member.Names name) ∧ Value entry.member.value

/-- Members that hold the given settings, each of them once. -/
structure Describes (schema : Schema ρ τ) (entries : List (Entry τ)) (given : List τ) : Prop where
  spaced : ∀ entry ∈ entries, entry.member.Spaced
  spelled : ∀ entry ∈ entries, schema.Spells entry
  same : (settings entries).Perm given
  once : (given.map schema.name).Nodup

def Written (schema : Schema ρ τ) (given : List τ) (text : List Char) : Prop :=
  ∃ blanks entries, Blank blanks ∧ schema.Describes entries given ∧
    text = object blanks (entries.map Entry.member)

/-- The beginning of an object, with the given settings so far, in front of a next key. -/
def Begun (schema : Schema ρ τ) (given : List τ) (text : List Char) : Prop :=
  ∃ blanks entries before, Blank blanks ∧ schema.Describes entries given ∧ Blank before ∧
    text = opened blanks (entries.map Entry.member) ++ before

variable {schema : Schema ρ τ} {given : List τ} {entries : List (Entry τ)}

theorem find?_name (schema : Schema ρ τ) (setting : τ) : ∃ field,
    field.name = schema.name setting ∧
    schema.fields.find? (·.name = field.name) = some field ∧
    ∀ text, schema.Spelled setting text → ∀ record blanks rest, Blank blanks → Stops rest →
      field.read record (blanks ++ (text ++ rest)) = .ok (schema.set record setting, rest) := by
  obtain ⟨field, found, takes⟩ := schema.taken setting
  have named : field.name = schema.name setting := by simpa using List.find?_some found
  exact ⟨field, named, named ▸ found, takes⟩

theorem setAll (schema : Schema ρ τ) (spaced : ∀ entry ∈ entries, entry.member.Spaced)
    (spelled : ∀ entry ∈ entries, schema.Spells entry)
    (once : ((settings entries).map schema.name).Nodup) {seen : List String}
    (fresh : ∀ setting ∈ settings entries, schema.name setting ∉ seen) (record : ρ) :
    SetAll schema.fields (entries.map Entry.member) seen record
      (((settings entries).map schema.name).reverse ++ seen)
      ((settings entries).foldl schema.set record) := by
  induction entries generalizing seen record with
  | nil => exact .nil
  | cons entry entries ih =>
    have others := ih (fun entry here => spaced entry (.tail _ here))
      (fun entry here => spelled entry (.tail _ here))
    have here := spelled entry (.head _)
    obtain ⟨member, setting⟩ := entry
    cases setting with
    | none =>
      obtain ⟨⟨name, unknown, named⟩, value⟩ := here
      exact .cons (spaced _ (.head _)) (.foreign named (schema.named ▸ unknown) value)
        (others once fresh record)
    | some setting =>
      obtain ⟨named, spelling⟩ := here
      obtain ⟨field, same, found, takes⟩ := schema.find?_name setting
      have parts : settings (⟨member, some setting⟩ :: entries) = setting :: settings entries := rfl
      rw [parts] at once fresh ⊢
      obtain ⟨different, once⟩ := List.nodup_cons.mp once
      have later : ∀ next ∈ settings entries, schema.name next ∉ field.name :: seen := by
        intro next there
        rw [List.mem_cons, same, not_or]
        exact ⟨fun equal => different (equal ▸ List.mem_map_of_mem there),
          fresh next (.tail _ there)⟩
      have first : member.Sets schema.fields seen record (field.name :: seen)
          (schema.set record setting) :=
        .known (same ▸ named) found (same ▸ fresh setting (.head _)) fun rest stops =>
          takes _ spelling record _ rest (spaced _ (.head _)).2.2.1 stops
      have all := SetAll.cons (spaced _ (.head _)) first (others once later _)
      simpa [same] using all

theorem foldl_perm {others : List τ} (schema : Schema ρ τ) (perm : others.Perm given)
    (once : (given.map schema.name).Nodup) (record : ρ) :
    others.foldl schema.set record = given.foldl schema.set record := by
  refine (perm.symm.foldl_eq' ?_ record).symm
  intro a first b second record
  by_cases same : schema.name a = schema.name b
  · rw [List.inj_on_of_nodup_map once first second same]
  · exact schema.commute record a b same

theorem Describes.setAll (describes : schema.Describes entries given) (start : ρ) : ∃ seen,
    (∀ setting, schema.name setting ∈ seen ↔ schema.name setting ∈ given.map schema.name) ∧
    SetAll schema.fields (entries.map Entry.member) [] start seen
      (given.foldl schema.set start) := by
  obtain ⟨spaced, spelled, same, once⟩ := describes
  have names := same.map schema.name
  have all := schema.setAll spaced spelled (names.nodup_iff.mpr once)
    (fun _ _ => List.not_mem_nil) start
  rw [schema.foldl_perm same once] at all
  refine ⟨_, fun setting => ?_, all⟩
  rw [List.append_nil, List.mem_reverse, names.mem_iff]

theorem Describes.perm {others : List (Entry τ)} (describes : schema.Describes entries given)
    (perm : others.Perm entries) : schema.Describes others given where
  spaced entry here := describes.spaced entry (perm.mem_iff.mp here)
  spelled entry here := describes.spelled entry (perm.mem_iff.mp here)
  same := (perm.filterMap Entry.setting).trans describes.same
  once := describes.once

variable {α : Type} {finish : ρ → Option α} {start : ρ} {value : α} {text lead rest : List Char}

theorem reads_written (written : schema.Written given text)
    (finished : finish (given.foldl schema.set start) = some value) (led : Blank lead) :
    record schema.fields start finish (lead ++ (text ++ rest)) = .ok (value, rest) := by
  obtain ⟨blanks, entries, blank, describes, rfl⟩ := written
  obtain ⟨seen, -, sets⟩ := describes.setAll start
  exact record_object sets finished led blank

variable {setting : τ} {key tail : List Char}

theorem Begun.brace (begun : schema.Begun given text) : ∃ rest, text = '{' :: rest := by
  obtain ⟨_, _, _, _, _, _, rfl⟩ := begun
  exact ⟨_, rfl⟩

theorem refuses_repeated (begun : schema.Begun given text) (again : setting ∈ given)
    (spells : Json.Spells (schema.name setting).toList key) (led : Blank lead) :
    record schema.fields start finish (lead ++ (text ++ '"' :: (key ++ '"' :: tail))) =
      .error .mismatched := by
  obtain ⟨blanks, entries, before, blank, describes, spaced, rfl⟩ := begun
  obtain ⟨seen, names, sets⟩ := describes.setAll start
  obtain ⟨field, same, found, -⟩ := schema.find?_name setting
  have known : field.name ∈ seen := same ▸ (names setting).mpr (List.mem_map_of_mem again)
  rw [List.append_assoc]
  exact record_repeated sets found known led blank spaced (same ▸ spells)

theorem refuses_mismatched {name : String} {field : RecordField ρ} {after : List Char}
    (begun : schema.Begun given text) (spells : Json.Spells name.toList key)
    (found : schema.fields.find? (·.name = name) = some field) (led : Blank lead)
    (behind : Blank after) (refused : ∀ record, field.read record tail = .error .mismatched) :
    record schema.fields start finish
      (lead ++ (text ++ '"' :: (key ++ '"' :: (after ++ ':' :: tail)))) = .error .mismatched := by
  obtain ⟨blanks, entries, before, blank, describes, spaced, rfl⟩ := begun
  obtain ⟨seen, -, sets⟩ := describes.setAll start
  obtain rfl : field.name = name := by simpa using List.find?_some found
  rw [List.append_assoc]
  by_cases known : field.name ∈ seen
  · exact record_repeated sets found known led blank spaced spells
  · exact record_refused sets found known led blank spaced spells behind (refused _)

end Schema

end Testbench.Json
