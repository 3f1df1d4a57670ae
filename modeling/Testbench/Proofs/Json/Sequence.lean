import Testbench.Proofs.Json.Schema

/-! Records are read from arrays, too. The elements go to the fields in the order in which these are
declared, and the array may end in front of any of them; whether it may end there is for the record
to say. Behind the last field only the end of the array may stand. -/
namespace Testbench.Json

def Visible (text : List Char) : Prop :=
  ∃ c rest, text = c :: rest ∧ isBlank c = false ∧ c ≠ ']'

variable {ρ : Type} {fields left : List (RecordField ρ)} {field : RecordField ρ}
  {element : Element} {es : List Element} {record final : ρ} {blanks lead text rest : List Char}
  {failure : Failure}

theorem visible_of_bool {value : Bool} (spelled : SpellsBool value text) : Visible text := by
  obtain rfl := spelled
  cases value <;> exact ⟨_, _, rfl, by decide, by decide⟩

theorem visible_of_string {value : String} (spelled : SpellsString value text) : Visible text := by
  obtain ⟨inner, -, rfl⟩ := spelled
  exact ⟨_, _, rfl, by decide, by decide⟩

theorem visible_of_natural {value : UInt64} (spelled : SpellsNatural value text) :
    Visible text := by
  obtain rfl := spelled
  obtain ⟨c, others, digits, digit, -⟩ := (isInteger_toDigits value.toNat).exists_cons
  obtain ⟨visible, -, inside⟩ := not_mark_of_isDigit digit
  exact ⟨c, others, digits, visible, inside⟩

theorem visible_of_optional {α : Type} {spells : α → List Char → Prop} {value : Option α}
    (visible : ∀ value, spells value text → Visible text)
    (spelled : SpellsOptional spells value text) : Visible text := by
  cases value with
  | none =>
    obtain rfl := spelled
    exact ⟨_, _, rfl, by decide, by decide⟩
  | some value => exact visible value spelled

structure Element.Sets (field : RecordField ρ) (element : Element) (record final : ρ) : Prop where
  spaced : element.Spaced
  visible : Visible element.value
  reads : ∀ rest, Stops rest → field.read record (element.value ++ rest) = .ok (final, rest)

/-- What elements do one after the other, and the fields that none is left for. -/
inductive Fills : List (RecordField ρ) → List Element → ρ → List (RecordField ρ) → ρ → Prop
  | nil {fields : List (RecordField ρ)} {record : ρ} : Fills fields [] record fields record
  | cons {field : RecordField ρ} {fields left : List (RecordField ρ)} {element : Element}
    {es : List Element} {record between final : ρ} (first : element.Sets field record between)
    (others : Fills fields es between left final) :
    Fills (field :: fields) (element :: es) record left final

theorem elements_here (visible : Visible text) (blank : Blank blanks) :
    elements (field :: fields) true record (blanks ++ (text ++ rest)) =
      match field.read record (text ++ rest) with
      | .ok (record, rest) => elements fields false record rest
      | .error failure => .error failure := by
  obtain ⟨c, others, rfl, visible, inside⟩ := visible
  rw [elements, dropBlanks_append blank, List.cons_append, dropBlanks_cons visible]
  cases read : field.read record (c :: (others ++ rest)) <;> simp [read]

theorem elements_comma (led : Blank lead) (visible : Visible text) (blank : Blank blanks) :
    elements (field :: fields) false record (lead ++ ',' :: (blanks ++ (text ++ rest))) =
      match field.read record (text ++ rest) with
      | .ok (record, rest) => elements fields false record rest
      | .error failure => .error failure := by
  obtain ⟨c, others, rfl, visible, inside⟩ := visible
  rw [List.cons_append]
  have behind : dropBlanks (blanks ++ c :: (others ++ rest)) = c :: (others ++ rest) := by
    rw [dropBlanks_append blank, dropBlanks_cons visible]
  rw [elements, dropBlanks_append led, dropBlanks_cons (by decide)]
  cases read : field.read record (c :: (others ++ rest)) <;> simp [behind, inside, read]

theorem elements_later (fills : Fills fields es record left final) (led : Blank lead)
    (stops : Stops rest) :
    ∃ after, Blank after ∧
      elements fields false record (lead ++ ((es.map Element.text).flatMap (',' :: ·) ++ rest)) =
        elements left false final (after ++ rest) := by
  induction fills generalizing lead with
  | nil => exact ⟨lead, led, rfl⟩
  | @cons field fields left element es record between final first others ih =>
    obtain ⟨after, blank, loop⟩ := ih first.spaced.2
    refine ⟨after, blank, ?_⟩
    rw [← loop, List.map_cons, List.flatMap_cons, Element.text]
    simp only [List.append_assoc, List.cons_append]
    rw [elements_comma led first.visible first.spaced.1,
      first.reads _ ((stops.flatMap _).append first.spaced.2)]

theorem elements_first (fills : Fills fields es record left final) (blank : Blank blanks)
    (stops : Stops rest) :
    ∃ first after, Blank after ∧ (es ≠ [] → first = false) ∧
      elements fields true record (blanks ++ (joined (es.map Element.text) ++ rest)) =
        elements left first final (after ++ rest) := by
  cases fills with
  | nil => exact ⟨true, blanks, blank, absurd rfl, rfl⟩
  | @cons field fields left element es record between final first others =>
    obtain ⟨after, ended, loop⟩ := elements_later others first.spaced.2 stops
    refine ⟨false, after, ended, fun _ => rfl, ?_⟩
    have leading : Blank (blanks ++ element.before) := blank.append first.spaced.1
    rw [← loop, List.map_cons, joined_cons, Element.text]
    simp only [List.append_assoc]
    rw [← List.append_assoc, elements_here first.visible leading,
      first.reads _ ((stops.flatMap _).append first.spaced.2)]

theorem closeArray_append (blank : Blank blanks) :
    closeArray (blanks ++ ']' :: rest) = .ok rest := by
  unfold closeArray
  rw [dropBlanks_append blank, dropBlanks_cons (by decide)]
  rfl

theorem elements_end (fields : List (RecordField ρ)) (first : Bool) (record : ρ)
    (blank : Blank blanks) (rest : List Char) : ∃ text,
      elements fields first record (blanks ++ ']' :: rest) = .ok (record, text) ∧
        closeArray text = .ok rest := by
  cases fields with
  | nil => exact ⟨_, rfl, closeArray_append blank⟩
  | cons field fields =>
    refine ⟨']' :: rest, ?_, closeArray_append (nofun : Blank [])⟩
    rw [elements, dropBlanks_append blank, dropBlanks_cons (by decide)]
    rfl

variable {α : Type} {finish : ρ → Option α} {start : ρ} {value : α} {tail : List Char}

theorem record_of_elements (led : Blank lead) (text : List Char) :
    Json.record fields start finish (lead ++ '[' :: text) =
      match elements fields true start text with
      | .error failure => .error failure
      | .ok (record, rest) =>
        match finish record with
        | none => .error .mismatched
        | some value =>
          match closeArray rest with
          | .error failure => .error failure
          | .ok rest => .ok (value, rest) := by
  unfold Json.record
  rw [dropBlanks_append led, dropBlanks_cons (by decide)]
  simp only [bind, Except.bind, pure, Except.pure]
  cases elements fields true start text with
  | error failure => rfl
  | ok read =>
    obtain ⟨record, rest⟩ := read
    cases finished : finish record with
    | none => simp only [finished]
    | some value =>
      simp only [finished]
      cases closeArray rest <;> rfl

theorem record_array (fills : Fills fields es start left final) (led : Blank lead)
    (blank : Blank blanks) :
    Json.record fields start finish (lead ++ (array blanks es ++ rest)) =
      match finish final with
      | none => .error .mismatched
      | some value => .ok (value, rest) := by
  obtain ⟨first, after, ended, -, loop⟩ := elements_first fills blank
    (Stops.cons (.inr (.inl rfl)) rest)
  obtain ⟨text, last, closed⟩ := elements_end left first final ended rest
  have split : array blanks es ++ rest =
      '[' :: (blanks ++ (joined (es.map Element.text) ++ ']' :: rest)) := by simp [array]
  rw [split, record_of_elements led, loop, last]
  cases finished : finish final <;> simp [finished, closed]

theorem record_overfull (fills : Fills fields es start [] final)
    (finished : finish final = some value) (led : Blank lead) (blank : Blank blanks)
    (tail : List Char) :
    Json.record fields start finish
      (lead ++ '[' :: (blanks ++ (joined (es.map Element.text) ++ ',' :: tail))) =
        .error .malformed := by
  obtain ⟨first, after, ended, -, loop⟩ := elements_first fills blank
    (Stops.cons (.inl rfl) tail)
  have comma : closeArray (after ++ ',' :: tail) = .error .malformed := by
    unfold closeArray
    rw [dropBlanks_append ended, dropBlanks_cons (by decide)]
    rfl
  rw [record_of_elements led, loop, elements]
  simp [finished, comma]

theorem record_refused_element (fills : Fills fields es start (field :: left) final)
    (nonempty : es ≠ []) (led : Blank lead) (blank : Blank blanks) {before : List Char}
    (spaced : Blank before) (visible : Visible text)
    (refused : field.read final (text ++ tail) = .error failure) :
    Json.record fields start finish
      (lead ++ '[' :: (blanks ++ (joined (es.map Element.text) ++
        ',' :: (before ++ (text ++ tail))))) = .error failure := by
  obtain ⟨first, after, ended, later, loop⟩ := elements_first fills blank
    (Stops.cons (.inl rfl) (before ++ (text ++ tail)))
  rw [record_of_elements led, loop, later nonempty, elements_comma ended visible spaced, refused]

namespace Schema

variable {τ : Type} {schema : Schema ρ τ} {given : List τ}

/-- Settings can be told from the elements of an array. -/
structure Sequential (schema : Schema ρ τ) : Prop where
  once : schema.names.Nodup
  visible : ∀ setting text, schema.Spelled setting text → Visible text

/-- Elements that hold the given settings, which are for the first fields in order. -/
structure Lists (schema : Schema ρ τ) (given : List τ) (es : List Element) : Prop where
  spaced : ∀ element ∈ es, element.Spaced
  spelled : List.Forall₂ (fun setting element => schema.Spelled setting element.value) given es
  inOrder : given.map schema.name <+: schema.names

theorem lists_compact {text : τ → List Char}
    (spelled : ∀ setting, schema.Spelled setting (text setting))
    (inOrder : given.map schema.name <+: schema.names) :
    schema.Lists given (given.map fun setting => ⟨[], text setting, []⟩) where
  spaced := by simp [Element.Spaced, Blank]
  spelled := by
    rw [List.forall₂_map_right_iff]
    exact List.forall₂_same.mpr fun setting _ => spelled setting
  inOrder := inOrder

theorem Sequential.find?_eq (sequential : schema.Sequential) (here : field ∈ schema.fields) :
    schema.fields.find? (·.name = field.name) = some field := by
  have once : (schema.fields.map RecordField.name).Nodup := schema.named ▸ sequential.once
  generalize schema.fields = fields at here once
  induction fields with
  | nil => cases here
  | cons first others ih =>
    rw [List.map_cons, List.nodup_cons] at once
    rcases List.mem_cons.mp here with rfl | later
    · simp
    · have different : first.name ≠ field.name := fun same =>
        once.1 (same ▸ List.mem_map_of_mem later)
      rw [List.find?_cons_of_neg (by simpa using different)]
      exact ih later once.2

theorem Sequential.fills_suffix (sequential : schema.Sequential)
    (spelled : List.Forall₂ (fun setting element => schema.Spelled setting element.value) given es)
    (spaced : ∀ element ∈ es, element.Spaced) {fields : List (RecordField ρ)}
    (suffix : fields <:+ schema.fields)
    (inOrder : given.map schema.name <+: fields.map RecordField.name) (record : ρ) :
    Fills fields es record (fields.drop given.length) (given.foldl schema.set record) := by
  induction spelled generalizing fields record with
  | nil => exact .nil
  | @cons setting element given es here others ih =>
    cases fields with
    | nil => simp at inOrder
    | cons field fields =>
      rw [List.map_cons, List.map_cons, List.cons_prefix_cons] at inOrder
      obtain ⟨named, inOrder⟩ := inOrder
      obtain ⟨found, same, known, takes⟩ := schema.find?_name setting
      have own := sequential.find?_eq (suffix.mem (.head _))
      obtain rfl : found = field := by
        rw [← named, ← same, known] at own
        exact Option.some.inj own
      refine .cons ⟨spaced element (.head _), sequential.visible _ _ here, fun rest stops => ?_⟩
        (ih (fun element here => spaced element (.tail _ here))
          ((List.suffix_cons _ _).trans suffix) inOrder _)
      exact takes _ here record [] rest nofun stops

theorem Sequential.fills (sequential : schema.Sequential) (lists : schema.Lists given es)
    (record : ρ) :
    Fills schema.fields es record (schema.fields.drop given.length)
      (given.foldl schema.set record) :=
  sequential.fills_suffix lists.spelled lists.spaced List.suffix_rfl
    (schema.named ▸ lists.inOrder) record

end Schema

end Testbench.Json
