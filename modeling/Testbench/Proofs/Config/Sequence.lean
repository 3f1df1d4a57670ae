import Testbench.Proofs.Config.Recovery
import Testbench.Proofs.Json.Sequence

/-! Options by position. An array gives the options in the order of their declarations, as far as it
goes, and the fields of a dump request may come in an array of their own. The two forms of a record
share their fields and nothing else, so each of them is read by itself and the results are
compared. -/
namespace Testbench

open Json

theorem Bundled.visible_of_spelled {kind : Bundled} {text : List Char}
    (spelled : kind.Spelled text) : Visible text := by
  cases spelled with
  | name known spells => exact visible_of_string spells
  | key known blank spaced named null => exact ⟨'{', _, rfl, by decide, by decide⟩

namespace Dump

theorem sequential : schema.Sequential where
  once := by decide
  visible setting text spelled := by
    cases setting with
    | path _ => exact visible_of_string spelled
    | start _ => exact visible_of_natural spelled
    | length _ => exact visible_of_natural spelled

/-- An array has to give all three fields, since its last element is the length. -/
def Request.Listed (request : Request) (text : List Char) : Prop :=
  ∃ blanks es, Blank blanks ∧
    schema.Lists [.path request.path, .start request.start, .length request.length] es ∧
    text = array blanks es

def Request.Accepted (request : Request) (text : List Char) : Prop :=
  request.Spelled text ∨ request.Listed text

theorem Request.reads_accepted : Reads Request.ofJson Request.Accepted := by
  intro request text accepted before rest blank stops
  rcases accepted with spelled | ⟨blanks, es, inside, lists, rfl⟩
  · exact Request.reads_spelled request text spelled before rest blank stops
  · exact record_array (sequential.fills lists {}) blank inside

theorem Request.Accepted.opens {request : Request} {text : List Char}
    (accepted : request.Accepted text) :
    ∃ c rest, text = c :: rest ∧ isBlank c = false ∧ c ≠ 'n' ∧ c ≠ ']' := by
  rcases accepted with spelled | ⟨blanks, es, inside, lists, rfl⟩
  · obtain ⟨rest, rfl⟩ := spelled.brace
    exact ⟨_, _, rfl, by decide⟩
  · exact ⟨_, _, rfl, by decide⟩

theorem length_foldl_set {given : List Setting} {draft : Draft} (missing : draft.length = none)
    (other : ∀ setting ∈ given, setting.name ≠ "length") :
    (given.foldl Setting.set draft).length = none := by
  induction given generalizing draft with
  | nil => exact missing
  | cons setting given ih =>
    refine ih ?_ fun setting here => other setting (.tail _ here)
    cases setting with
    | path _ => exact missing
    | start _ => exact missing
    | length _ => exact absurd rfl (other _ (.head _))

theorem finish?_of_short {given : List Setting} (inOrder : given.map schema.name <+: schema.names)
    (short : given.length < 3) : Draft.finish? (given.foldl schema.set {}) = none := by
  have before : given.map Setting.name <+: ["path", "start"] := by
    rcases List.prefix_concat_iff.mp (show _ <+: ["path", "start"] ++ ["length"] from inOrder) with
      all | before
    · have count := congrArg List.length all
      rw [List.length_map] at count
      exact absurd (count ▸ short) (by decide)
    · exact before
  have missing : (given.foldl Setting.set {}).length = none := by
    refine length_foldl_set rfl fun setting here same => ?_
    have among := before.subset (List.mem_map_of_mem here)
    rw [same] at among
    exact absurd among (by decide)
  show Draft.finish? (given.foldl Setting.set {}) = none
  simp [Draft.finish?, missing]

end Dump

namespace Config

def Setting.Accepted : Setting → List Char → Prop
  | dump value => SpellsOptional Dump.Request.Accepted value
  | setting => setting.Spelled

theorem reads_accepted_dump :
    Reads (optional Dump.Request.ofJson) (SpellsOptional Dump.Request.Accepted) :=
  reads_optional Dump.Request.reads_accepted fun _ _ accepted =>
    have ⟨c, rest, split, visible, letter, _⟩ := accepted.opens
    ⟨c, rest, split, visible, letter⟩

theorem Setting.taken_accepted (setting : Setting) : ∃ field,
    fields.find? (·.name = setting.name) = some field ∧
    ∀ text, setting.Accepted text → ∀ record blanks rest, Blank blanks → Stops rest →
      field.read record (blanks ++ (text ++ rest)) = .ok (setting.set record, rest) := by
  have taken := schema.taken setting
  cases setting with
  | dump _ =>
    exact ⟨_, rfl, fun _ accepted => RecordField.of_reads reads_accepted_dump _ _ accepted⟩
  | _ => exact taken

def accepting : Schema Config Setting where
  fields := fields
  names := schema.names
  name := Setting.name
  set := Setting.set
  Spelled := Setting.Accepted
  named := schema.named
  taken := Setting.taken_accepted
  commute := schema.commute

theorem sequential : accepting.Sequential where
  once := by decide
  visible setting text spelled := by
    cases setting with
    | waveform _ => exact visible_of_bool spelled
    | tracePath _ => exact visible_of_string spelled
    | dump _ =>
      refine visible_of_optional (fun request accepted => ?_) spelled
      obtain ⟨c, rest, split, visible, -, inside⟩ := accepted.opens
      exact ⟨c, rest, split, visible, inside⟩
    | maxCycles _ => exact visible_of_natural spelled
    | initialMemory _ => exact visible_of_optional (fun _ => visible_of_string) spelled
    | design _ => exact Bundled.visible_of_spelled spelled
    | memoryDepth _ => exact visible_of_natural spelled
    | echoState _ => exact visible_of_bool spelled

theorem Setting.accepted_json (setting : Setting) : accepting.Spelled setting setting.json := by
  have spelled := spelled_json setting
  cases setting with
  | dump value =>
    cases value with
    | none => exact spelled
    | some value => exact .inl spelled
  | _ => exact spelled

variable {given : List Setting} {request : List Dump.Setting} {es inner : List Element}
  {lead text trail blanks before after inside key tail : List Char}

theorem ofJson_array (lists : accepting.Lists given es) (led : Blank lead) (blank : Blank blanks)
    (trailed : Blank trail) :
    ofJson (String.ofList (lead ++ (array blanks es ++ trail))) =
      .ok (given.foldl Setting.set {}) :=
  ofJson_of_read trailed (record_array (sequential.fills lists {}) led blank)

theorem ofJson_object (written : accepting.Written given text) (led : Blank lead)
    (trailed : Blank trail) :
    ofJson (String.ofList (lead ++ (text ++ trail))) = .ok (given.foldl Setting.set {}) :=
  ofJson_of_read trailed (accepting.reads_written written rfl led)

theorem dump_refuses_short (lists : Dump.schema.Lists request inner) (short : request.length < 3)
    (blank : Blank before) (opened : Blank inside) :
    optional Dump.Request.ofJson (before ++ (array inside inner ++ tail)) = .error .mismatched := by
  have refused : Dump.Request.ofJson ([] ++ (array inside inner ++ tail)) = .error .mismatched := by
    have read : Dump.Request.ofJson ([] ++ (array inside inner ++ tail)) = _ :=
      record_array (Dump.sequential.fills lists {}) nofun opened
    rwa [Dump.finish?_of_short lists.inOrder short] at read
  rw [array, List.cons_append] at refused ⊢
  rw [optional_cons _ blank (by decide) (by decide)]
  exact congrArg (Except.map _) refused

/-- The options that an array gives are those that an object gives under their names. A ninth
element is one too many, whatever it is, and a dump request in an array needs all three of its own,
wherever the request stands. -/
theorem ofJson_array_eq_object :
    (∀ (given : List Setting) (es : List Element) (text lead trail blanks lead' trail' : List Char),
      accepting.Lists given es → accepting.Written given text →
      Blank lead → Blank trail → Blank blanks → Blank lead' → Blank trail' →
      ofJson (String.ofList (lead ++ (array blanks es ++ trail))) =
          ofJson (String.ofList (lead' ++ (text ++ trail'))) ∧
        ofJson (String.ofList (lead ++ (array blanks es ++ trail))) =
          .ok (given.foldl Setting.set {})) ∧
    (∀ (given : List Setting) (es : List Element) (lead blanks tail : List Char),
      accepting.Lists given es → given.length = 8 → Blank lead → Blank blanks →
      ofJson (String.ofList
        (lead ++ '[' :: (blanks ++ (joined (es.map Element.text) ++ ',' :: tail)))) =
          .error .malformed) ∧
    (∀ (given : List Setting) (request : List Dump.Setting) (es inner : List Element)
      (lead blanks before inside tail : List Char),
      accepting.Lists given es → given.length = 2 →
      Dump.schema.Lists request inner → request.length < 3 →
      Blank lead → Blank blanks → Blank before → Blank inside →
      ofJson (String.ofList (lead ++ '[' :: (blanks ++ (joined (es.map Element.text) ++
        ',' :: (before ++ (array inside inner ++ tail)))))) = .error .mismatched) ∧
    ∀ (given : List Setting) (request : List Dump.Setting) (inner : List Element)
      (lead text key after before inside tail : List Char),
      accepting.Begun given text → Spells "dump".toList key →
      Dump.schema.Lists request inner → request.length < 3 →
      Blank lead → Blank after → Blank before → Blank inside →
      ofJson (String.ofList (lead ++ (text ++ '"' :: (key ++ '"' :: (after ++ ':' ::
        (before ++ (array inside inner ++ tail))))))) = .error .mismatched := by
  refine ⟨?same, ?ninth, ?positional, ?named⟩
  case same =>
    intro given es text lead trail blanks lead' trail' lists written led trailed blank led' trailed'
    have first := ofJson_array lists led blank trailed
    exact ⟨first.trans (ofJson_object written led' trailed').symm, first⟩
  case ninth =>
    intro given es lead blanks tail lists all led blank
    have fills := sequential.fills lists ({} : Config)
    rw [all] at fills
    exact ofJson_of_refused (record_overfull fills rfl led blank tail)
  case positional =>
    intro given request es inner lead blanks before inside tail lists two shorter short led blank
      spaced opened
    have fills := sequential.fills lists ({} : Config)
    rw [two] at fills
    have nonempty : es ≠ [] := by
      have same := lists.spelled.length_eq
      rintro rfl
      rw [two] at same
      cases same
    refine ofJson_of_refused (record_refused_element fills nonempty led blank spaced
      ⟨'[', _, rfl, by decide, by decide⟩ ?_)
    have refused : optional Dump.Request.ofJson ([] ++ (array inside inner ++ tail)) =
        .error .mismatched := dump_refuses_short shorter short nofun opened
    rw [List.nil_append] at refused
    simp [RecordField.of, refused, Except.map]
  case named =>
    intro given request inner lead text key after before inside tail begun spells shorter short led
      behind spaced opened
    have refused : optional Dump.Request.ofJson (before ++ (array inside inner ++ tail)) =
        .error .mismatched := dump_refuses_short shorter short spaced opened
    refine ofJson_of_refused
      (accepting.refuses_mismatched begun spells rfl led behind fun config => ?_)
    simp [RecordField.of, refused, Except.map]

/-- A request by position among options by position, all options and one more, and requests without
a length. -/
theorem ofJson_array_of_options :
    ofJson "[true,\"t\", [\"a\",1,2]]\n" =
      ofJson ("\x7b\"waveform\":true,\"trace_path\":\"t\"," ++
        "\"dump\":\x7b\"path\":\"a\",\"start\":1,\"length\":2\x7d\x7d") ∧
    ofJson "[false,\"trace.vcd\",null,7,null,\"accumulator\",4,true,0]" =
      .error .malformed ∧
    ofJson "[true,\"t\",[\"a\",1]]" = .error .mismatched ∧
    ofJson "\x7b\"dump\":[]\x7d" = .error .mismatched := by
  let two : List Setting := [.waveform true, .tracePath "t"]
  let three : List Setting := two ++ [.dump (some ⟨"a", 1, 2⟩)]
  let all : List Setting := (Overrides.all { maxCycles := 7, memoryDepth := 4 }).settings
  let request : List Dump.Setting := [.path "a", .start 1, .length 2]
  let value (setting : Setting) : Element := ⟨[], setting.json, []⟩
  let inner (setting : Dump.Setting) : Element := ⟨[], setting.json, []⟩
  let es : List Element := two.map value ++ [⟨[' '], array [] (request.map inner), []⟩]
  let text : List Char := object [] (three.map fun setting => .compact setting.name setting.json)
  have empty : Blank [] := List.forall_mem_nil _
  have first : accepting.Lists two (two.map value) :=
    Schema.lists_compact Setting.accepted_json ⟨_, rfl⟩
  have listed (request : List Dump.Setting)
      (inOrder : request.map Dump.schema.name <+: Dump.schema.names) :
      Dump.schema.Lists request (request.map inner) :=
    Schema.lists_compact Dump.Setting.spelled_json inOrder
  have lists : accepting.Lists three es := by
    refine ⟨by simp [es, two, value, Element.Spaced, Blank], ?_, ⟨_, rfl⟩⟩
    have nested : Dump.Request.Listed ⟨"a", 1, 2⟩ (array [] (request.map inner)) :=
      ⟨[], _, empty, listed request ⟨_, rfl⟩, rfl⟩
    exact List.rel_append first.spelled (.cons (.inr nested) .nil)
  have written : accepting.Written three text :=
    Schema.written_compact Setting.accepted_json (by decide)
  have opened : accepting.Begun [] ['\x7b'] :=
    ⟨[], [], [], empty, ⟨List.forall_mem_nil _, List.forall_mem_nil _, .nil, .nil⟩, empty, rfl⟩
  refine ⟨?same, ?ninth, ?positional, ?named⟩
  case same =>
    simp only [String.reduceAppend]
    have agree := (ofJson_array_eq_object.1 three es text [] ['\n'] [] [] [] lists written empty
      (by simp [Blank]) empty empty empty).1
    exact agree
  case ninth =>
    have refused := ofJson_array_eq_object.2.1 all (all.map value) [] [] ['0', ']']
      (Schema.lists_compact Setting.accepted_json ⟨[], rfl⟩) rfl empty empty
    exact refused
  case positional =>
    have refused := ofJson_array_eq_object.2.2.1 two (request.take 2) (two.map value)
      ((request.take 2).map inner) [] [] [] [] [']'] first rfl (listed _ ⟨_, rfl⟩) (by decide) empty
      empty empty empty
    exact refused
  case named =>
    have refused := ofJson_array_eq_object.2.2.2 [] [] [] [] _ _ [] [] [] ['\x7d'] opened
      (spells_escape "dump".toList) (listed [] ⟨_, rfl⟩) (by decide) empty empty empty empty
    exact refused

end Config

end Testbench
