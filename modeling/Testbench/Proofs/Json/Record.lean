import Testbench.Proofs.Json.Reading

/-! Records are read from objects. Each member either sets a field, once, or is skipped; so the
loop over the members goes from one well-formed beginning of the object to the next. -/
namespace Testbench.Json

variable {blanks rest : List Char}

def Member.Names (member : Member) (name : String) : Prop :=
  Spells name.toList member.key

theorem colon_append (blank : Blank blanks) : colon (blanks ++ ':' :: rest) = .ok rest := by
  unfold colon
  rw [dropBlanks_append blank, dropBlanks_cons (by decide)]
  rfl

theorem nextKey_first {chars key : List Char} (blank : Blank blanks) (spells : Spells chars key) :
    nextKey true (blanks ++ '"' :: (key ++ '"' :: rest)) = .ok (some chars, rest) := by
  unfold nextKey
  rw [dropBlanks_append blank, dropBlanks_cons (by decide)]
  simp [quoted_spells spells, Except.map]

theorem nextKey_later {lead chars key : List Char} (led : Blank lead) (blank : Blank blanks)
    (spells : Spells chars key) :
    nextKey false (lead ++ ',' :: (blanks ++ '"' :: (key ++ '"' :: rest))) =
      .ok (some chars, rest) := by
  have quote : dropBlanks (blanks ++ '"' :: (key ++ '"' :: rest)) =
      '"' :: (key ++ '"' :: rest) := by
    rw [dropBlanks_append blank, dropBlanks_cons (by decide)]
  unfold nextKey
  rw [dropBlanks_append led, dropBlanks_cons (by decide)]
  simp [quote, quoted_spells spells, Except.map]

theorem nextKey_end (first : Bool) (blank : Blank blanks) :
    nextKey first (blanks ++ '}' :: rest) = .ok (none, rest) := by
  unfold nextKey
  rw [dropBlanks_append blank, dropBlanks_cons (by decide)]
  rfl

variable {ρ : Type} {fields : List (RecordField ρ)} {member : Member} {seen seen' : List String}
  {record record' : ρ} {rounds : Nat}

/-- What one member does: it sets a field that was not set before, or nothing. -/
inductive Member.Sets (fields : List (RecordField ρ)) (member : Member) :
    List String → ρ → List String → ρ → Prop
  | known {field : RecordField ρ} {seen : List String} {record after : ρ}
    (named : member.Names field.name)
    (found : fields.find? (·.name = field.name) = some field) (fresh : field.name ∉ seen)
    (reads : ∀ rest, Stops rest →
      field.read record (member.element.before ++ (member.value ++ rest)) = .ok (after, rest)) :
    Sets fields member seen record (field.name :: seen) after
  | foreign {name : String} {seen : List String} {record : ρ} (named : member.Names name)
    (unknown : name ∉ fields.map RecordField.name) (value : Value member.value) :
    Sets fields member seen record seen record

inductive SetAll (fields : List (RecordField ρ)) :
    List Member → List String → ρ → List String → ρ → Prop
  | nil {seen : List String} {record : ρ} : SetAll fields [] seen record seen record
  | cons {member : Member} {members : List Member} {seen middle last : List String}
    {record between final : ρ} (spaced : member.Spaced)
    (first : member.Sets fields seen record middle between)
    (others : SetAll fields members middle between last final) :
    SetAll fields (member :: members) seen record last final

theorem members_of_sets {first : Bool} {text : List Char} (spaced : member.Spaced)
    (sets : member.Sets fields seen record seen' record') (stops : Stops rest)
    (next : ∀ chars, Spells chars member.key → nextKey first text =
      .ok (some chars, member.after ++ ':' :: (member.element.text ++ rest))) :
    members fields (rounds + 1) seen first record text =
      members fields rounds seen' false record' (member.element.after ++ rest) := by
  have behind : Stops (member.element.after ++ rest) := stops.append spaced.2.2.2
  have parts : member.element.text ++ rest = member.element.before ++
      (member.value ++ (member.element.after ++ rest)) := by
    simp [Element.text, Member.value]
  cases sets with
  | @known field _ _ _ named found fresh reads =>
    rw [members, next _ named]
    simp only [bind, Except.bind, String.ofList_toList, found, fresh, if_false,
      colon_append spaced.2.1, parts, reads _ behind]
  | @foreign name _ _ named unknown value =>
    have none : fields.find? (·.name = name) = none := by
      simp only [List.find?_eq_none, decide_eq_true_eq]
      exact fun field here same => unknown (same ▸ List.mem_map_of_mem here)
    rw [members, next _ named]
    simp only [bind, Except.bind, String.ofList_toList, none, colon_append spaced.2.1, parts,
      skip_value spaced.2.2.1 value behind]

variable {ms : List Member}

theorem members_later (rounds : Nat) (sets : SetAll fields ms seen record seen' record')
    {lead : List Char} (led : Blank lead) (stops : Stops rest) :
    ∃ after, Blank after ∧
      members fields (rounds + ms.length) seen false record
          (lead ++ ((ms.map Member.text).flatMap (',' :: ·) ++ rest)) =
        members fields rounds seen' false record' (after ++ rest) := by
  induction sets generalizing lead with
  | nil => exact ⟨lead, led, rfl⟩
  | @cons member ms _ _ _ _ _ _ spaced first others ih =>
    obtain ⟨after, blank, loop⟩ := ih spaced.2.2.2
    refine ⟨after, blank, ?_⟩
    rw [← loop, List.length_cons, ← Nat.add_assoc]
    apply members_of_sets spaced first (stops.flatMap _)
    intro chars spells
    simp only [List.map_cons, List.flatMap_cons, Member.text, List.cons_append, List.append_assoc]
    exact nextKey_later led spaced.1 spells

theorem members_first (rounds : Nat) (sets : SetAll fields ms seen record seen' record')
    (nonempty : ms ≠ []) (blank : Blank blanks) (stops : Stops rest) :
    ∃ after, Blank after ∧
      members fields (rounds + ms.length) seen true record
          (blanks ++ (joined (ms.map Member.text) ++ rest)) =
        members fields rounds seen' false record' (after ++ rest) := by
  cases sets with
  | nil => exact absurd rfl nonempty
  | @cons member ms _ _ _ _ _ _ spaced first others =>
    obtain ⟨after, ended, loop⟩ := members_later rounds others spaced.2.2.2 stops
    refine ⟨after, ended, ?_⟩
    rw [← loop, List.length_cons, ← Nat.add_assoc]
    apply members_of_sets spaced first (stops.flatMap _)
    intro chars spells
    have leading : Blank (blanks ++ member.before) := blank.append spaced.1
    rw [List.map_cons, joined_cons]
    simp only [Member.text, List.append_assoc, List.cons_append]
    rw [← List.append_assoc]
    exact nextKey_first leading spells

theorem length_le_joined (ms : List Member) :
    ms.length ≤ (joined (ms.map Member.text)).length := by
  have tail (ms : List Member) :
      ms.length ≤ ((ms.map Member.text).flatMap (',' :: ·)).length := by
    induction ms with
    | nil => exact Nat.le_refl 0
    | cons member ms ih =>
      simp only [List.map_cons, List.flatMap_cons, List.length_append, List.length_cons]
      omega
  cases ms with
  | nil => exact Nat.zero_le _
  | cons member ms =>
    have rest := tail ms
    rw [List.map_cons, joined_cons, List.length_append, List.length_cons]
    simp only [Member.text, List.length_append, List.length_cons]
    omega

variable {α : Type} {finish : ρ → Option α} {start : ρ} {value : α} {lead : List Char}

theorem members_end (rounds : Nat) (first : Bool) (blank : Blank blanks) :
    members fields (rounds + 1) seen first record (blanks ++ '}' :: rest) = .ok (record, rest) := by
  rw [members, nextKey_end first blank]
  rfl

theorem record_of_members (led : Blank lead) (text : List Char) :
    Json.record fields start finish (lead ++ '{' :: text) =
      match members fields (text.length + 1) [] true start text with
      | .error failure => .error failure
      | .ok (record, rest) =>
        match finish record with
        | some value => .ok (value, rest)
        | none => .error .mismatched := by
  unfold Json.record
  rw [dropBlanks_append led, dropBlanks_cons (by decide)]
  simp only [bind, Except.bind, pure, Except.pure]
  cases members fields (text.length + 1) [] true start text with
  | error failure => rfl
  | ok read =>
    obtain ⟨record, rest⟩ := read
    cases finished : finish record with
    | none => simp only [finished]
    | some value => simp only [finished]

theorem record_object (sets : SetAll fields ms [] start seen record)
    (finished : finish record = some value) (led : Blank lead) (blank : Blank blanks) :
    Json.record fields start finish (lead ++ (object blanks ms ++ rest)) = .ok (value, rest) := by
  let text := blanks ++ (joined (ms.map Member.text) ++ '}' :: rest)
  have loop : members fields (text.length + 1) [] true start text = .ok (record, rest) := by
    cases ms with
    | nil =>
      cases sets
      exact members_end _ true blank
    | cons member others =>
      have enough := length_le_joined (member :: others)
      have rounds : text.length + 1 =
          text.length - (member :: others).length + 1 + (member :: others).length := by
        simp only [text, List.length_append] at enough ⊢
        omega
      obtain ⟨after, ended, same⟩ := members_first (text.length - (member :: others).length + 1)
        sets (List.cons_ne_nil member others) blank (Stops.cons (.inr (.inr rfl)) rest)
      rw [rounds, same]
      exact members_end _ false ended
  have split : object blanks ms ++ rest = '{' :: text := by simp [object, text]
  rw [split, record_of_members led, loop]
  simp [finished]

/-- The beginning of an object, up to where its next key may stand. -/
def opened (blanks : List Char) (members : List Member) : List Char :=
  '{' :: (blanks ++ members.flatMap fun member => member.text ++ [','])

theorem flatMap_comma (member : Member) (others : List Member) (rest : List Char) :
    ((member :: others).flatMap fun member => member.text ++ [',']) ++ rest =
      joined ((member :: others).map Member.text) ++ ',' :: rest := by
  have behind (members : List Member) :
      ',' :: ((members.flatMap fun member => member.text ++ [',']) ++ rest) =
        (members.map Member.text).flatMap (',' :: ·) ++ ',' :: rest := by
    induction members with
    | nil => rfl
    | cons member members ih => simp [ih]
  have same := behind others
  rw [List.map_cons, joined_cons]
  simp [same]

variable {chars before key tail : List Char} {failure : Failure}

/-- After well-formed members it is the next key that decides. -/
theorem members_key (rounds : Nat) (sets : SetAll fields ms [] start seen record)
    (blank : Blank blanks) (spaced : Blank before) (spells : Spells chars key) :
    ∃ first text, nextKey first text = .ok (some chars, tail) ∧
      members fields (rounds + ms.length) [] true start (blanks ++
          (ms.flatMap (fun member => member.text ++ [',']) ++
            (before ++ '"' :: (key ++ '"' :: tail)))) =
        members fields rounds seen first record text := by
  cases ms with
  | nil =>
    cases sets
    exact ⟨true, _, nextKey_first (blank.append spaced) spells, by simp⟩
  | cons member others =>
    obtain ⟨after, ended, loop⟩ := members_first rounds sets (List.cons_ne_nil member others) blank
      (Stops.cons (.inl rfl) (before ++ '"' :: (key ++ '"' :: tail)))
    refine ⟨false, _, nextKey_later ended spaced spells, ?_⟩
    rw [← loop, flatMap_comma]

theorem record_of_key (sets : SetAll fields ms [] start seen record) (led : Blank lead)
    (blank : Blank blanks) (spaced : Blank before) (spells : Spells chars key)
    (fails : ∀ rounds first text, nextKey first text = .ok (some chars, tail) →
      members fields (rounds + 1) seen first record text = .error failure) :
    Json.record fields start finish
      (lead ++ (opened blanks ms ++ (before ++ '"' :: (key ++ '"' :: tail)))) = .error failure := by
  let text := blanks ++ (ms.flatMap (fun member => member.text ++ [',']) ++
    (before ++ '"' :: (key ++ '"' :: tail)))
  have enough : ms.length ≤ text.length := by
    cases ms with
    | nil => exact Nat.zero_le _
    | cons member others =>
      have least := length_le_joined (member :: others)
      simp only [text, flatMap_comma, List.length_append]
      omega
  have rounds : text.length + 1 = text.length - ms.length + 1 + ms.length := by omega
  obtain ⟨first, next, there, same⟩ := members_key (text.length - ms.length + 1) sets blank spaced
    spells
  have split : opened blanks ms ++ (before ++ '"' :: (key ++ '"' :: tail)) = '{' :: text := by
    simp [opened, text]
  rw [split, record_of_members led, rounds, same, fails _ first next there]

theorem record_repeated {field : RecordField ρ} (sets : SetAll fields ms [] start seen record)
    (found : fields.find? (·.name = field.name) = some field) (again : field.name ∈ seen)
    (led : Blank lead) (blank : Blank blanks) (spaced : Blank before)
    (spells : Spells field.name.toList key) :
    Json.record fields start finish
      (lead ++ (opened blanks ms ++ (before ++ '"' :: (key ++ '"' :: tail)))) =
        .error .mismatched := by
  refine record_of_key sets led blank spaced spells fun rounds first text next => ?_
  rw [members, next]
  simp [bind, Except.bind, found, again]

theorem record_refused {field : RecordField ρ} {after : List Char}
    (sets : SetAll fields ms [] start seen record)
    (found : fields.find? (·.name = field.name) = some field) (fresh : field.name ∉ seen)
    (led : Blank lead) (blank : Blank blanks) (spaced : Blank before)
    (spells : Spells field.name.toList key) (behind : Blank after)
    (refused : field.read record tail = .error failure) :
    Json.record fields start finish
      (lead ++ (opened blanks ms ++ (before ++ '"' :: (key ++ '"' :: (after ++ ':' :: tail))))) =
        .error failure := by
  refine record_of_key sets led blank spaced spells fun rounds first text next => ?_
  rw [members, next]
  simp [bind, Except.bind, found, fresh, colon_append behind, refused]

end Testbench.Json
