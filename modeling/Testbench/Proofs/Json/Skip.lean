import Testbench.Proofs.Json.Quoted

/-! Every well-formed value is skipped, to its last character and no further. -/
namespace Testbench.Json

namespace Skip

/-- How the reader goes on when a value has ended inside these brackets. -/
def resume : List Bracket → List Char → Except Failure (List Char)
  | [], rest => .ok rest
  | bracket :: outer, rest => afterValue.run (bracket :: outer) rest

variable {state next : Skip} {opened opened' : List Bracket} {c : Char} {rest blanks : List Char}

theorem run_more (moves : state.step c rest opened = .ok (.more next opened')) :
    state.run opened (c :: rest) = next.run opened' rest := by
  rw [run, moves]

theorem run_closed (closes : state.step c rest opened = .ok (closed opened')) :
    state.run opened (c :: rest) = resume opened' rest := by
  rw [run, closes]
  cases opened' <;> rfl

theorem run_blanks (blank : Blank blanks)
    (stays : ∀ c rest, isBlank c = true → state.step c rest opened = .ok (.more state opened)) :
    state.run opened (blanks ++ rest) = state.run opened rest := by
  induction blanks with
  | nil => rfl
  | cons c blanks ih =>
    rw [List.cons_append, run_more (stays c _ (blank.isBlank (.head _)))]
    exact ih fun d here => blank d (.tail _ here)

theorem run_value_blanks (blank : Blank blanks) :
    value.run opened (blanks ++ rest) = value.run opened rest :=
  run_blanks blank fun c rest blank => by simp [step, beginValue, blank]

theorem run_afterValue_blanks {bracket : Bracket} (blank : Blank blanks) :
    afterValue.run (bracket :: opened) (blanks ++ rest) =
      afterValue.run (bracket :: opened) rest :=
  run_blanks blank fun c rest blank => by simp [step, continueAfter, blank]

theorem run_literal {left : List Char} (nonempty : left ≠ []) :
    (literal left).run opened (left ++ rest) = resume opened rest := by
  induction left with
  | nil => exact absurd rfl nonempty
  | cons c left ih =>
    cases left with
    | nil => exact run_closed (by simp [step])
    | cons d left =>
      have first : step c (d :: left ++ rest) opened (literal (c :: d :: left)) =
          .ok (.more (literal (d :: left)) opened) := by
        simp [step]
      rw [List.cons_append, run_more first]
      exact ih (List.cons_ne_nil d left)

variable (isKey : Bool)

theorem run_escape {letter : Char} :
    (text isKey .plain).run opened ('\\' :: letter :: rest) =
      (text isKey .escape).run opened (letter :: rest) :=
  run_more (by simp [step, Quoted.step])

theorem run_digit {count value digit : Nat} (read : Text.digit? 16 c = some digit)
    (more : count + 1 < 4) :
    (text isKey (.hex none count value)).run opened (c :: rest) =
      (text isKey (.hex none (count + 1) (value * 16 + digit))).run opened rest :=
  run_more (by simp [step, Quoted.step, read, more])

theorem run_looseChar {piece : List Char} (loose : LooseChar piece) :
    (text isKey .plain).run opened (piece ++ rest) = (text isKey .plain).run opened rest := by
  cases loose with
  | @plain c printable unquoted unescaped =>
    exact run_more (by simp [step, Quoted.step, unquoted, unescaped, Nat.not_lt_of_le printable])
  | @short c letter known =>
    have table : ∀ entry ∈ shortEscapes,
        entry.2 ≠ 'u' ∧ Quoted.escaped? entry.2 = some entry.1 := by decide
    obtain ⟨named, escaped⟩ := table _ known
    rw [List.cons_append, List.cons_append, run_escape]
    exact run_more (by simp [step, Quoted.step, named, escaped])
  | unit unit =>
    obtain ⟨a, b, c, d, w, x, y, z, rfl, one, two, three, four, -⟩ := unit.exists_digits
    have numbered : step 'u' (a :: b :: c :: d :: rest) opened (text isKey .escape) =
        .ok (.more (text isKey (.hex none 0 0)) opened) := by
      simp [step, Quoted.step]
    simp only [List.cons_append, List.nil_append]
    rw [run_escape, run_more numbered, run_digit isKey one (by decide),
      run_digit isKey two (by decide), run_digit isKey three (by decide)]
    exact run_more (by simp [step, Quoted.step, Quoted.number, four])

theorem run_loose {inner : List Char} (loose : Loose inner) :
    (text isKey .plain).run opened (inner ++ '"' :: rest) =
      if isKey then colon.run opened rest else resume opened rest := by
  obtain ⟨pieces, each, rfl⟩ := loose
  induction pieces with
  | nil =>
    cases isKey with
    | true => exact run_more (by simp [step])
    | false => exact run_closed (by simp [step])
  | cons piece pieces ih =>
    rw [List.flatten_cons, List.append_assoc, run_looseChar isKey (each piece (.head _))]
    exact ih fun other here => each other (.tail _ here)

/-- Where a number may end, it ends in front of whatever may stand behind a value. -/
theorem run_complete {part : NumberPart} (complete : part.complete = true) (stops : Stops rest) :
    (number part).run opened rest = resume opened rest := by
  cases rest with
  | nil =>
    cases opened with
    | nil => simp [run, atEnd, complete, resume]
    | cons bracket outer => simp [run, atEnd, complete, resume]
  | cons c rest =>
    have mark := stops c rfl
    have ends : part.next? c = none ∧ Number.isDigit c = false := by
      cases part <;> first | (exact absurd complete (by decide)) | skip
      all_goals
        simp only [List.mem_cons, List.not_mem_nil, or_false] at mark
        rcases mark with rfl | rfl | rfl | rfl | rfl | rfl | rfl <;> decide
    have before : step c rest opened (number part) = continueAfter c opened := by
      simp [step, ends.1, ends.2, complete]
    rw [run, before]
    cases opened with
    | nil => rfl
    | cons bracket outer => rw [resume, run]; rfl

theorem run_digits {part : NumberPart} (digits : AllDigits blanks)
    (stays : ∀ c, Number.isDigit c = true → part.next? c = some part) :
    (number part).run opened (blanks ++ rest) = (number part).run opened rest := by
  induction blanks with
  | nil => rfl
  | cons c digits' ih =>
    have first : step c (digits' ++ rest) opened (number part) =
        .ok (.more (number part) opened) := by
      simp only [step, stays c (digits c (.head _))]
    rw [List.cons_append, run_more first]
    exact ih fun d here => digits d (.tail _ here)

theorem run_part {part after : NumberPart} (continues : part.next? c = some after) :
    (number part).run opened (c :: rest) = (number after).run opened rest :=
  run_more (by simp only [step, continues])

theorem run_exponent {part : NumberPart} {exponent : List Char} (complete : part.complete = true)
    (marks : part.next? 'e' = some .exponentMark ∧ part.next? 'E' = some .exponentMark)
    (grammar : IsExponent exponent) (stops : Stops rest) :
    (number part).run opened (exponent ++ rest) = resume opened rest := by
  cases grammar with
  | none => exact run_complete complete stops
  | @digits mark c sign digits' marked signed digits =>
    have marked : part.next? mark = some .exponentMark := by
      rcases marked with rfl | rfl
      · exact marks.1
      · exact marks.2
    have digit := digits c (.head _)
    have plain : ∀ d, Number.isDigit d = true → d ≠ '+' ∧ d ≠ '-' := by
      rintro d digit
      constructor <;> rintro rfl <;> cases digit
    have tail : (number .exponent).run opened (digits' ++ rest) = resume opened rest := by
      rw [run_digits (fun d here => digits d (.tail _ here)) fun d digit => by
        simp [NumberPart.next?, digit]]
      exact run_complete rfl stops
    rw [List.cons_append, run_part marked, List.append_assoc, List.cons_append, ← tail]
    rcases signed with rfl | signed
    · exact run_part (by simp [NumberPart.next?, digit, plain c digit])
    · have sign' : ∃ d, sign = [d] ∧ (d = '+' ∨ d = '-') := by
        rcases signed with rfl | rfl <;> exact ⟨_, rfl, by decide⟩
      obtain ⟨d, rfl, plus⟩ := sign'
      have signed : NumberPart.exponentMark.next? d = some .exponentSign := by
        simp [NumberPart.next?, plus]
      rw [List.cons_append, List.nil_append, run_part signed]
      exact run_part (by simp [NumberPart.next?, digit])

theorem run_fraction {part : NumberPart} {fraction exponent : List Char}
    (complete : part.complete = true) (point : part.next? '.' = some .point)
    (marks : part.next? 'e' = some .exponentMark ∧ part.next? 'E' = some .exponentMark)
    (grammar : IsFraction fraction) (scaled : IsExponent exponent) (stops : Stops rest) :
    (number part).run opened (fraction ++ (exponent ++ rest)) = resume opened rest := by
  cases grammar with
  | none => exact run_exponent complete marks scaled stops
  | @digits c digits' digits =>
    have first : NumberPart.point.next? c = some .fraction := by
      simp [NumberPart.next?, digits c (.head _)]
    rw [List.cons_append, run_part point, List.cons_append, run_part first,
      run_digits (fun d here => digits d (.tail _ here)) fun d digit => by
        simp [NumberPart.next?, digit]]
    exact run_exponent rfl ⟨rfl, rfl⟩ scaled stops

theorem run_integer {integer fraction exponent : List Char} (grammar : IsInteger integer)
    (pointed : IsFraction fraction) (scaled : IsExponent exponent) (stops : Stops rest) :
    (number .sign).run opened (integer ++ (fraction ++ (exponent ++ rest))) =
        resume opened rest ∧
      value.run opened (integer ++ (fraction ++ (exponent ++ rest))) = resume opened rest := by
  cases grammar with
  | zero =>
    have tail : (number .zero).run opened (fraction ++ (exponent ++ rest)) = resume opened rest :=
      run_fraction rfl rfl ⟨rfl, rfl⟩ pointed scaled stops
    exact ⟨(run_part rfl).trans tail, (run_more rfl).trans tail⟩
  | @positive c digits digit leading more =>
    have tail : (number .integer).run opened (digits ++ (fraction ++ (exponent ++ rest))) =
        resume opened rest := by
      rw [run_digits more fun d digit => by simp [NumberPart.next?, digit]]
      exact run_fraction rfl rfl ⟨rfl, rfl⟩ pointed scaled stops
    have begins (rest : List Char) :
        value.step c rest opened = .ok (.more (number .integer) opened) := by
      have known := mem_of_isDigit digit
      simp only [List.mem_cons, List.not_mem_nil, or_false] at known
      rcases known with rfl | rfl | rfl | rfl | rfl | rfl | rfl | rfl | rfl | rfl
      · exact absurd rfl leading
      all_goals rfl
    refine ⟨(run_part ?_).trans tail, (run_more (begins _)).trans tail⟩
    simp [NumberPart.next?, digit, leading]

theorem run_number {text : List Char} (grammar : IsNumber text) (stops : Stops rest) :
    value.run opened (text ++ rest) = resume opened rest := by
  obtain ⟨sign, integer, fraction, exponent, rfl, signed, whole, pointed, scaled⟩ := grammar
  obtain ⟨behind, bare⟩ := run_integer whole pointed scaled stops
  simp only [List.append_assoc]
  rcases signed with rfl | rfl
  · exact bare
  · exact (run_more rfl).trans behind

structure Skips (text : List Char) : Prop where
  starts : ∃ c rest, text = c :: rest ∧ isBlank c = false ∧ c ≠ ']'
  skips (opened : List Bracket) (rest : List Char) (stops : Stops rest) :
    value.run opened (text ++ rest) = resume opened rest

variable {bracket : Bracket} {outer : List Bracket}

theorem run_element {element : Element} (spaced : element.Spaced) (skips : Skips element.value)
    (stops : Stops rest) :
    value.run (bracket :: outer) (element.text ++ rest) =
      afterValue.run (bracket :: outer) rest := by
  unfold Element.text
  rw [List.append_assoc, List.append_assoc, run_value_blanks spaced.1,
    skips.skips _ _ (stops.append spaced.2), resume, run_afterValue_blanks spaced.2]

theorem run_comma : afterValue.run (bracket :: outer) (',' :: rest) =
    (match bracket with | .array => value | .object => key).run (bracket :: outer) rest := by
  cases bracket <;> exact run_more rfl

theorem run_elements {elements : List Element} (spaced : ∀ element ∈ elements, element.Spaced)
    (skips : ∀ element ∈ elements, Skips element.value) :
    afterValue.run (.array :: outer)
      ((elements.map Element.text).flatMap (',' :: ·) ++ ']' :: rest) = resume outer rest := by
  induction elements with
  | nil => exact run_closed rfl
  | cons element elements ih =>
    have stops := (Stops.cons (.inr (.inl rfl)) rest).flatMap (elements.map Element.text)
    simp only [List.map_cons, List.flatMap_cons, List.cons_append, List.append_assoc]
    rw [run_comma, run_element (spaced _ (.head _)) (skips _ (.head _)) stops]
    exact ih (fun other here => spaced other (.tail _ here)) fun other here =>
      skips other (.tail _ here)

theorem run_firstElement {text : List Char} (blank : Blank blanks) (skips : Skips text) :
    firstElement.run (.array :: outer) (blanks ++ (text ++ rest)) =
      value.run (.array :: outer) (blanks ++ (text ++ rest)) := by
  obtain ⟨c, others, rfl, visible, open_⟩ := skips.starts
  have stays (c : Char) (rest : List Char) (blank : isBlank c = true) :
      firstElement.step c rest (.array :: outer) = .ok (.more firstElement (.array :: outer)) := by
    simp [step, blank]
  rw [run_blanks blank stays, run_value_blanks blank, List.cons_append, run, run]
  have same : firstElement.step c (others ++ rest) (.array :: outer) =
      value.step c (others ++ rest) (.array :: outer) := by
    simp [step, visible, open_]
  rw [same]

theorem run_array {elements : List Element} (blank : Blank blanks)
    (spaced : ∀ element ∈ elements, element.Spaced)
    (skips : ∀ element ∈ elements, Skips element.value) :
    value.run opened (array blanks elements ++ rest) = resume opened rest := by
  have opens (text : List Char) :
      value.run opened ('[' :: text) = firstElement.run (.array :: opened) text := run_more rfl
  have stays (c : Char) (rest : List Char) (blank : isBlank c = true) :
      firstElement.step c rest (.array :: opened) =
        .ok (.more firstElement (.array :: opened)) := by
    simp [step, blank]
  simp only [array, List.cons_append, List.append_assoc, List.nil_append]
  rw [opens, run_blanks blank stays]
  cases elements with
  | nil => exact run_closed rfl
  | cons element elements =>
    have first := spaced element (.head _)
    have skipped := skips element (.head _)
    have stops := (Stops.cons (.inr (.inl rfl)) rest).flatMap (elements.map Element.text)
    have later : afterValue.run (.array :: opened)
        ((elements.map Element.text).flatMap (',' :: ·) ++ ']' :: rest) = resume opened rest :=
      run_elements (fun other here => spaced other (.tail _ here)) fun other here =>
        skips other (.tail _ here)
    rw [List.map_cons, joined_cons, List.append_assoc, Element.text, List.append_assoc,
      List.append_assoc, run_firstElement first.1 skipped, ← List.append_assoc element.value,
      ← List.append_assoc element.before, ← List.append_assoc element.before]
    exact (run_element first skipped stops).trans later

theorem run_member {member : Member} (start : state = firstKey ∨ state = key)
    (spaced : member.Spaced) (loose : Loose member.key) (skips : Skips member.value)
    (stops : Stops rest) :
    state.run (.object :: outer) (member.text ++ rest) =
      afterValue.run (.object :: outer) rest := by
  have blank (c : Char) (rest : List Char) (blank : isBlank c = true) :
      state.step c rest (.object :: outer) = .ok (.more state (.object :: outer)) := by
    rcases start with rfl | rfl <;> simp [step, blank]
  have quotes (inner : List Char) : state.run (.object :: outer) ('"' :: inner) =
      (text true .plain).run (.object :: outer) inner := by
    rcases start with rfl | rfl <;> exact run_more rfl
  have stays (c : Char) (rest : List Char) (blank : isBlank c = true) :
      colon.step c rest (.object :: outer) = .ok (.more colon (.object :: outer)) := by
    simp [step, blank]
  have passes (text : List Char) :
      colon.run (.object :: outer) (':' :: text) = value.run (.object :: outer) text := run_more rfl
  simp only [Member.text, List.append_assoc, List.cons_append]
  rw [run_blanks spaced.1 blank, quotes, run_loose true loose, if_pos rfl,
    run_blanks spaced.2.1 stays, passes, run_element spaced.2.2 skips stops]

theorem run_members {members : List Member} (spaced : ∀ member ∈ members, member.Spaced)
    (loose : ∀ member ∈ members, Loose member.key)
    (skips : ∀ member ∈ members, Skips member.value) :
    afterValue.run (.object :: outer)
      ((members.map Member.text).flatMap (',' :: ·) ++ '}' :: rest) = resume outer rest := by
  induction members with
  | nil => exact run_closed rfl
  | cons member members ih =>
    have stops := (Stops.cons (.inr (.inr rfl)) rest).flatMap (members.map Member.text)
    simp only [List.map_cons, List.flatMap_cons, List.cons_append, List.append_assoc]
    rw [run_comma, run_member (.inr rfl) (spaced _ (.head _)) (loose _ (.head _))
      (skips _ (.head _)) stops]
    exact ih (fun other here => spaced other (.tail _ here))
      (fun other here => loose other (.tail _ here)) fun other here => skips other (.tail _ here)

theorem run_object {members : List Member} (blank : Blank blanks)
    (spaced : ∀ member ∈ members, member.Spaced) (loose : ∀ member ∈ members, Loose member.key)
    (skips : ∀ member ∈ members, Skips member.value) :
    value.run opened (object blanks members ++ rest) = resume opened rest := by
  have opens (text : List Char) :
      value.run opened ('{' :: text) = firstKey.run (.object :: opened) text := run_more rfl
  have stays (c : Char) (rest : List Char) (blank : isBlank c = true) :
      firstKey.step c rest (.object :: opened) = .ok (.more firstKey (.object :: opened)) := by
    simp [step, blank]
  simp only [object, List.cons_append, List.append_assoc, List.nil_append]
  rw [opens, run_blanks blank stays]
  cases members with
  | nil => exact run_closed rfl
  | cons member members =>
    have stops := (Stops.cons (.inr (.inr rfl)) rest).flatMap (members.map Member.text)
    rw [List.map_cons, joined_cons, List.append_assoc, run_member (.inl rfl) (spaced _ (.head _))
      (loose _ (.head _)) (skips _ (.head _)) stops]
    exact run_members (fun other here => spaced other (.tail _ here))
      (fun other here => loose other (.tail _ here)) fun other here => skips other (.tail _ here)

theorem skips_word {left : List Char} (visible : isBlank c = false ∧ c ≠ ']') (nonempty : left ≠ [])
    (begins : ∀ opened, beginValue c opened = .ok (.more (literal left) opened)) :
    Skips (c :: left) where
  starts := ⟨c, left, rfl, visible⟩
  skips opened rest _ := by
    have moves : value.step c (left ++ rest) opened = .ok (.more (literal left) opened) :=
      begins opened
    rw [List.cons_append, run_more moves, run_literal nonempty]

theorem skips_number {text : List Char} (grammar : IsNumber text) : Skips text where
  starts := by
    obtain ⟨sign, integer, fraction, exponent, rfl, signed, whole, -⟩ := grammar
    rcases signed with rfl | rfl
    · obtain ⟨c, others, rfl, digit, -⟩ := whole.exists_cons
      obtain ⟨visible, -, bracket⟩ := not_mark_of_isDigit digit
      exact ⟨_, _, rfl, visible, bracket⟩
    · exact ⟨_, _, rfl, by decide⟩
  skips _ _ stops := run_number grammar stops

theorem skips_string {inner : List Char} (loose : Loose inner) :
    Skips ('"' :: (inner ++ ['"'])) where
  starts := ⟨_, _, rfl, by decide⟩
  skips opened rest _ := by
    have quotes (text : List Char) :
        value.run opened ('"' :: text) = (Skip.text false .plain).run opened text := run_more rfl
    rw [List.cons_append, quotes, List.append_assoc]
    exact run_loose false loose

theorem skips_of_value {text : List Char} (value : Value text) : Skips text := by
  induction value with
  | null => exact skips_word (by decide) nofun fun _ => rfl
  | true => exact skips_word (by decide) nofun fun _ => rfl
  | false => exact skips_word (by decide) nofun fun _ => rfl
  | number grammar => exact skips_number grammar
  | string loose => exact skips_string loose
  | array blank spaced _ skips =>
    exact ⟨⟨_, _, rfl, by decide⟩, fun _ _ _ => run_array blank spaced skips⟩
  | object blank spaced keys _ skips =>
    exact ⟨⟨_, _, rfl, by decide⟩, fun _ _ _ => run_object blank spaced keys skips⟩

end Skip

theorem skip_value {text blanks rest : List Char} (blank : Blank blanks) (value : Value text)
    (stops : Stops rest) : skip (blanks ++ (text ++ rest)) = .ok rest :=
  (Skip.run_value_blanks blank).trans ((Skip.skips_of_value value).skips [] rest stops)

end Testbench.Json
