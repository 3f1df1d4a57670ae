import Testbench.Proofs.Config.Settings
import Testbench.Proofs.Json.Rendering

/-! Options are recovered from every text that gives them. -/
namespace Testbench

open Json

namespace Dump

def Setting.json : Setting → List Char
  | path value => quote value
  | start value | length value => Nat.toDigits 10 value.toNat

theorem Setting.spelled_json (setting : Setting) : schema.Spelled setting setting.json := by
  cases setting with
  | path value => exact spellsString_quote value
  | start value => exact rfl
  | length value => exact rfl

def Request.json (request : Request) : List Char :=
  object [] ([.path request.path, .start request.start, .length request.length].map
    fun setting : Setting => .compact setting.name setting.json)

theorem Request.spelled_json (request : Request) : request.Spelled request.json :=
  .inl (Schema.written_compact Setting.spelled_json (by simp [schema, Setting.name]))

end Dump

namespace Config

def Setting.json : Setting → List Char
  | waveform value | echoState value =>
    if value then ['t', 'r', 'u', 'e'] else ['f', 'a', 'l', 's', 'e']
  | tracePath value | initialMemory (some value) => quote value
  | dump none | initialMemory none => ['n', 'u', 'l', 'l']
  | dump (some value) => value.json
  | maxCycles value | memoryDepth value => Nat.toDigits 10 value.toNat
  | design value => quote value.name

def toJson (config : Config) : String :=
  String.ofList (object [] ((Overrides.all config).settings.map
    fun setting => .compact setting.name setting.json))

theorem Setting.spelled_json (setting : Setting) : schema.Spelled setting setting.json := by
  cases setting with
  | waveform value => exact rfl
  | echoState value => exact rfl
  | tracePath value => exact spellsString_quote value
  | maxCycles value => exact rfl
  | memoryDepth value => exact rfl
  | initialMemory value =>
    cases value with
    | none => exact rfl
    | some value => exact spellsString_quote value
  | dump value =>
    cases value with
    | none => exact rfl
    | some value => exact value.spelled_json
  | design value =>
    have known : value.name ∈ value.jsonNames := by cases value <;> decide
    exact .name known (spellsString_quote value.name)

theorem written_toJson (config : Config) :
    schema.Written (Overrides.all config).settings config.toJson.toList := by
  rw [toJson, String.toList_ofList]
  exact Schema.written_compact Setting.spelled_json (Overrides.all config).nodup_settings

theorem ofJson_of_read {config : Config} {text trail : List Char} (trailed : Blank trail)
    (read : record fields {} some text = .ok (config, trail)) :
    ofJson (String.ofList text) = .ok config := by
  have closed : dropBlanks (trail ++ []) = [] := dropBlanks_append trailed
  rw [List.append_nil] at closed
  unfold ofJson whole
  rw [String.toList_ofList, read]
  simp [closed]

theorem ofJson_written {given : Overrides} {lead text trail : List Char} (led : Blank lead)
    (trailed : Blank trail) (written : schema.Written given.settings text) :
    ofJson (String.ofList (lead ++ (text ++ trail))) = .ok (given.onto {}) := by
  have finished : some (given.settings.foldl schema.set {}) = some (given.onto {}) :=
    congrArg some (given.foldl_settings {})
  exact ofJson_of_read trailed (schema.reads_written written finished led)

theorem ofJson_of_refused {text : List Char} {failure : Failure}
    (refused : record fields {} some text = .error failure) :
    ofJson (String.ofList text) = .error failure := by
  unfold ofJson whole
  rw [String.toList_ofList, refused]

theorem dump_refuses_repeated {given : List Dump.Setting} {setting : Dump.Setting}
    {before text key tail : List Char} (blank : Blank before)
    (begun : Dump.schema.Begun given text) (again : setting ∈ given)
    (spells : Spells setting.name.toList key) :
    optional Dump.Request.ofJson (before ++ (text ++ '"' :: (key ++ '"' :: tail))) =
      .error .mismatched := by
  have refused : Dump.Request.ofJson ([] ++ (text ++ '"' :: (key ++ '"' :: tail))) =
      .error .mismatched :=
    Dump.schema.refuses_repeated begun again spells nofun
  obtain ⟨rest, rfl⟩ := begun.brace
  rw [List.nil_append, List.cons_append] at refused
  rw [List.cons_append, optional_cons _ blank (by decide) (by decide), refused]
  rfl

/-- An object that gives options, in whatever order and spelling and with whatever other members,
is read as the defaults with these options in their place. So each configuration is recovered from
its own text. A second member for a field, here or in a dump request, is refused by its name. -/
theorem ofJson_recovers_given_options :
    (∀ (given : Overrides) (lead text trail : List Char), Blank lead → Blank trail →
      schema.Written given.settings text →
      ofJson (String.ofList (lead ++ (text ++ trail))) = .ok (given.onto {})) ∧
    (∀ (given : Overrides) (blanks : List Char) (entries others : List (Entry Setting)),
      Blank blanks → schema.Describes entries given.settings → others.Perm entries →
      ofJson (String.ofList (object blanks (others.map Entry.member))) =
        ofJson (String.ofList (object blanks (entries.map Entry.member)))) ∧
    (∀ config : Config, schema.Written (Overrides.all config).settings config.toJson.toList ∧
      ofJson config.toJson = .ok config) ∧
    (∀ (given : Overrides) (lead text key tail : List Char) (setting : Setting), Blank lead →
      schema.Begun given.settings text → setting ∈ given.settings →
      Spells setting.name.toList key →
      ofJson (String.ofList (lead ++ (text ++ '"' :: (key ++ '"' :: tail)))) =
        .error .mismatched) ∧
    ∀ (given : Overrides) (lead text key after before inner again tail : List Char)
      (request : List Dump.Setting) (setting : Dump.Setting), Blank lead →
      schema.Begun given.settings text → Spells "dump".toList key → Blank after → Blank before →
      Dump.schema.Begun request inner → setting ∈ request → Spells setting.name.toList again →
      ofJson (String.ofList (lead ++ (text ++ '"' :: (key ++ '"' :: (after ++ ':' ::
        (before ++ (inner ++ '"' :: (again ++ '"' :: tail)))))))) = .error .mismatched := by
  refine ⟨?written, ?order, ?own, ?repeated, ?inside⟩
  case written =>
    intro given lead text trail led trailed written
    exact ofJson_written led trailed written
  case order =>
    intro given blanks entries others blank describes perm
    have reordered := describes.perm perm
    have first := ofJson_written (nofun : Blank []) (nofun : Blank [])
      ⟨blanks, entries, blank, describes, rfl⟩
    have second := ofJson_written (nofun : Blank []) (nofun : Blank [])
      ⟨blanks, others, blank, reordered, rfl⟩
    simp only [List.nil_append, List.append_nil] at first second
    rw [first, second]
  case own =>
    intro config
    have written := written_toJson config
    refine ⟨written, ?_⟩
    have read := ofJson_written (nofun : Blank []) (nofun : Blank []) written
    rwa [List.nil_append, List.append_nil, String.ofList_toList] at read
  case repeated =>
    intro given lead text key tail setting led begun again spells
    exact ofJson_of_refused (schema.refuses_repeated begun again spells led)
  case inside =>
    intro given lead text key after before inner again tail request setting led begun named behind
      blank opening known spells
    have value : optional Dump.Request.ofJson (before ++ (inner ++ '"' :: (again ++ '"' :: tail))) =
        .error .mismatched := dump_refuses_repeated blank opening known spells
    refine ofJson_of_refused (schema.refuses_mismatched begun named rfl led behind fun config => ?_)
    simp [RecordField.of, value, Except.map]

/-- An unknown member, an escape in a name, and a request without a start. -/
theorem ofJson_recovers_two_of_eight_options :
    ofJson (" \x7b\"max_cycles\":\t7,\"x\":[\x7b\x7d] ," ++
      "\"\\u0064ump\":\x7b\"path\":\"a\",\"length\":1\x7d\x7d\n") =
        .ok { maxCycles := 7, dump := some ⟨"a", 0, 1⟩ } := by
  simp only [String.reduceAppend]
  let given : Overrides := { maxCycles := some 7, dump := some (some ⟨"a", 0, 1⟩) }
  let nested : List Char := array [] [⟨[], object [] [], []⟩]
  let request : List Char := object [] ([Dump.Setting.path "a", .length 1].map
    fun setting => .compact setting.name setting.json)
  let entries : List (Entry Setting) :=
    [⟨⟨[], "max_cycles".toList, [], ⟨['\t'], ['7'], []⟩⟩, some (.maxCycles 7)⟩,
      ⟨⟨[], ['x'], [], ⟨[], nested, [' ']⟩⟩, none⟩,
      ⟨⟨[], ['\\', 'u', '0', '0', '6', '4', 'u', 'm', 'p'], [], ⟨[], request, []⟩⟩,
        some (.dump (some ⟨"a", 0, 1⟩))⟩]
  have unknown : Value nested := by
    refine .array nofun (by simp [Element.Spaced, Blank]) fun element here => ?_
    obtain rfl := List.mem_singleton.mp here
    exact .object (by simp [Blank]) (by simp) (by simp) (by simp)
  have requested : Dump.Request.Spelled ⟨"a", 0, 1⟩ request :=
    .inr ⟨rfl, Schema.written_compact Dump.Setting.spelled_json (by decide)⟩
  have escaped : Spells "dump".toList ['\\', 'u', '0', '0', '6', '4', 'u', 'm', 'p'] :=
    have unit : CodeUnit ['0', '0', '6', '4'] 'd'.toNat :=
      codeUnit_of_lt (show 0x64 < 0x100 by decide)
    show Spells ['d', 'u', 'm', 'p'] (['\\', 'u', '0', '0', '6', '4'] ++ ['u', 'm', 'p']) from
      .cons (.unit unit) (spells_escape ['u', 'm', 'p'])
  have describes : schema.Describes entries given.settings := by
    refine ⟨?_, ?_, .swap _ _ _, given.nodup_settings⟩
    · simp [entries, Member.Spaced, Element.Spaced, Blank]
    · simp only [entries, List.mem_cons, List.not_mem_nil, or_false, forall_eq_or_imp, forall_eq]
      exact ⟨⟨spells_escape "max_cycles".toList, rfl⟩,
        ⟨⟨"x", by decide, spells_escape ['x']⟩, unknown⟩, escaped, requested⟩
  have read := ofJson_recovers_given_options.1 given [' '] _ ['\n'] (by simp [Blank])
    (by simp [Blank]) ⟨[], entries, nofun, describes, rfl⟩
  exact read

end Config

end Testbench
