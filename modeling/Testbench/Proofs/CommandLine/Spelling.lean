import Testbench.CommandLine.Occurrence
import Mathlib.Tactic.SplitIfs

/-! The ways to write options down, told without the splitting. Switches of one letter may share an
argument, a setting may end such a group, and its value stands behind it, behind an equals sign or
in the next argument. Splitting finds in a command line what it spells, and nothing else. -/
namespace Testbench.CommandLine

def Switch.letter : Switch → Char
  | .waveform => 'w'
  | .quiet => 'q'

def Setting.letter? : Setting → Option Char
  | .dump => some 'd'
  | .cycles => some 'c'
  | _ => none

def Setting.word? : Setting → Option String
  | .trace => some "trace"
  | .design => some "design"
  | .depth => some "depth"
  | .config => some "config"
  | _ => none

def Occurrence.IsOption : Occurrence → Prop
  | .switch _ | .setting .. | .positional _ => True
  | .help | .version | .wrong _ => False

def letters (switches : List Switch) : List Char :=
  switches.map Switch.letter

/-- The end of a group of letters, with the value in it or with the setting that awaits one. -/
inductive Ends : List Char → List Occurrence → Option Setting → Prop
  | nothing : Ends [] [] none
  | setting {setting : Setting} {letter : Char} (named : setting.letter? = some letter) :
    Ends [letter] [] (some setting)
  | equals {setting : Setting} {letter : Char} (named : setting.letter? = some letter)
    (value : List Char) :
    Ends (letter :: '=' :: value) [.setting setting (String.ofList value)] none
  | value {setting : Setting} {letter c : Char} {rest : List Char}
    (named : setting.letter? = some letter) (joined : c ≠ '=') :
    Ends (letter :: c :: rest) [.setting setting (String.ofList (c :: rest))] none

/-- What is written in one argument, and the setting whose value is to be the next one. -/
inductive Writes : List Char → List Occurrence → Option Setting → Prop
  | positional {argument : String} (plain : isValue argument = true) :
    Writes argument.toList [.positional argument] none
  | quiet : Writes "--quiet".toList [.switch .quiet] none
  | setting {setting : Setting} {word : String} (named : setting.word? = some word) :
    Writes ('-' :: '-' :: word.toList) [] (some setting)
  | equals {setting : Setting} {word : String} (named : setting.word? = some word)
    (value : List Char) :
    Writes ('-' :: '-' :: word.toList ++ '=' :: value) [.setting setting (String.ofList value)] none
  | short {switches : List Switch} {last : List Char} {found : List Occurrence}
    {awaiting : Option Setting} (some : letters switches ++ last ≠ [])
    (ends : Ends last found awaiting) :
    Writes ('-' :: letters switches ++ last) (switches.map .switch ++ found) awaiting

inductive Spells : List String → List Occurrence → Prop
  | nil : Spells [] []
  | positionals (values : List String) : Spells ("--" :: values) (values.map .positional)
  | argument {argument : String} {arguments : List String} {found others : List Occurrence}
    (writes : Writes argument.toList found none) (rest : Spells arguments others) :
    Spells (argument :: arguments) (found ++ others)
  | value {argument value : String} {arguments : List String} {found others : List Occurrence}
    {setting : Setting} (writes : Writes argument.toList found (some setting))
    (plain : isValue value = true) (rest : Spells arguments others) :
    Spells (argument :: value :: arguments) (found ++ .setting setting value :: others)

theorem shortKey?_letter (switch : Switch) :
    shortKey? switch.letter = some (.plain (.switch switch)) := by
  cases switch <;> rfl

theorem shortKey?_of_letter? {setting : Setting} {letter : Char}
    (named : setting.letter? = some letter) : shortKey? letter = some (.valued setting) := by
  cases setting <;> cases named <;> rfl

theorem shortKey?_cases (c : Char) :
    (∃ switch : Switch, c = switch.letter) ∨ (∃ setting : Setting, setting.letter? = some c) ∨
      (∃ occurrence, shortKey? c = some (.plain occurrence) ∧ ¬occurrence.IsOption) ∨
        shortKey? c = none := by
  unfold shortKey?
  split
  · exact .inl ⟨.waveform, rfl⟩
  · exact .inl ⟨.quiet, rfl⟩
  · exact .inr (.inr (.inl ⟨_, rfl, id⟩))
  · exact .inr (.inr (.inl ⟨_, rfl, id⟩))
  · exact .inr (.inl ⟨.dump, rfl⟩)
  · exact .inr (.inl ⟨.cycles, rfl⟩)
  · exact .inr (.inr (.inr rfl))

theorem shortGroup_letter (switch : Switch) (rest : List Char) :
    shortGroup (switch.letter :: rest) =
      ⟨.switch switch :: (shortGroup rest).found, (shortGroup rest).awaiting⟩ := by
  rw [shortGroup, shortKey?_letter]

theorem shortGroup_letters (switches : List Switch) (last : List Char) :
    shortGroup (letters switches ++ last) =
      ⟨switches.map .switch ++ (shortGroup last).found, (shortGroup last).awaiting⟩ := by
  induction switches with
  | nil => rfl
  | cons switch rest ih =>
    rw [show letters (switch :: rest) ++ last = switch.letter :: (letters rest ++ last) from rfl,
      shortGroup_letter, ih]
    rfl

theorem shortGroup_of_ends {last : List Char} {found : List Occurrence} {awaiting : Option Setting}
    (ends : Ends last found awaiting) : shortGroup last = ⟨found, awaiting⟩ := by
  cases ends with
  | nothing => rfl
  | setting named => simp only [shortGroup, shortKey?_of_letter? named]
  | equals named => simp only [shortGroup, shortKey?_of_letter? named]
  | value named joined =>
    unfold shortGroup
    rw [shortKey?_of_letter? named]
    dsimp only
    split
    · rename_i none
      cases none
    · rename_i equals
      cases equals
      exact absurd rfl joined
    · rfl

theorem exists_ends_of_letter? {setting : Setting} {letter : Char}
    (named : setting.letter? = some letter) (rest : List Char) :
    ∃ found awaiting, Ends (letter :: rest) found awaiting := by
  cases rest with
  | nil => exact ⟨_, _, .setting named⟩
  | cons c rest =>
    by_cases equals : c = '='
    · subst equals
      exact ⟨_, _, .equals named rest⟩
    · exact ⟨_, _, .value named equals⟩

theorem exists_ends_of_shortGroup (text : List Char)
    (options : ∀ occurrence ∈ (shortGroup text).found, occurrence.IsOption) :
    ∃ switches last found, text = letters switches ++ last ∧
      (shortGroup text).found = switches.map .switch ++ found ∧
      Ends last found (shortGroup text).awaiting := by
  induction text with
  | nil => exact ⟨[], [], [], rfl, rfl, .nothing⟩
  | cons c rest ih =>
    rcases shortKey?_cases c with ⟨switch, rfl⟩ | ⟨setting, named⟩ | ⟨occurrence, key, other⟩ | key
    · rw [shortGroup_letter] at options ⊢
      obtain ⟨switches, last, found, rfl, same, ends⟩ :=
        ih fun occurrence later => options occurrence (.tail _ later)
      exact ⟨switch :: switches, last, found, rfl, congrArg _ same, ends⟩
    · obtain ⟨found, awaiting, ends⟩ := exists_ends_of_letter? named rest
      rw [shortGroup_of_ends ends]
      exact ⟨[], c :: rest, found, rfl, rfl, ends⟩
    · rw [shortGroup, key] at options
      exact absurd (options _ (.head _)) other
    · rw [shortGroup, key] at options
      exact (options _ (.head _)).elim

theorem longKey?_of_word? {setting : Setting} {word : String} (named : setting.word? = some word) :
    longKey? word = some (.valued setting) := by
  cases setting <;> cases named <;> rfl

theorem toList_ne_nil_of_word? {setting : Setting} {word : String}
    (named : setting.word? = some word) : word.toList ≠ [] := by
  cases setting <;> cases named <;> decide

theorem longKey?_cases (name : String) :
    name = "quiet" ∨ (∃ setting : Setting, setting.word? = some name) ∨
      (∃ occurrence, longKey? name = some (.plain occurrence) ∧ ¬occurrence.IsOption) ∨
        longKey? name = none := by
  unfold longKey?
  split_ifs with quiet help version trace design depth config
  · exact .inl quiet
  · exact .inr (.inr (.inl ⟨_, rfl, id⟩))
  · exact .inr (.inr (.inl ⟨_, rfl, id⟩))
  · exact .inr (.inl ⟨.trace, congrArg some trace.symm⟩)
  · exact .inr (.inl ⟨.design, congrArg some design.symm⟩)
  · exact .inr (.inl ⟨.depth, congrArg some depth.symm⟩)
  · exact .inr (.inl ⟨.config, congrArg some config.symm⟩)
  · exact .inr (.inr (.inr rfl))

theorem span_word {setting : Setting} {word : String} (named : setting.word? = some word)
    (rest : List Char) :
    (word.toList ++ '=' :: rest).takeWhile (· ≠ '=') = word.toList ∧
      (word.toList ++ '=' :: rest).dropWhile (· ≠ '=') = '=' :: rest := by
  cases setting <;> cases named <;> exact ⟨rfl, rfl⟩

theorem span_word_end {setting : Setting} {word : String} (named : setting.word? = some word) :
    word.toList.takeWhile (· ≠ '=') = word.toList ∧ word.toList.dropWhile (· ≠ '=') = [] := by
  cases setting <;> cases named <;> exact ⟨rfl, rfl⟩

theorem longGroup_word {setting : Setting} {word : String} (named : setting.word? = some word) :
    longGroup word.toList = ⟨[], some setting⟩ := by
  obtain ⟨name, rest⟩ := span_word_end named
  unfold longGroup
  rw [name, rest, String.ofList_toList]
  dsimp only
  rw [longKey?_of_word? named]

theorem longGroup_equals {setting : Setting} {word : String} (named : setting.word? = some word)
    (value : List Char) :
    longGroup (word.toList ++ '=' :: value) =
      ⟨[.setting setting (String.ofList value)], none⟩ := by
  obtain ⟨name, rest⟩ := span_word named value
  unfold longGroup
  rw [name, rest, String.ofList_toList]
  dsimp only
  rw [longKey?_of_word? named]

theorem writes_of_longGroup (text : List Char)
    (options : ∀ occurrence ∈ (longGroup text).found, occurrence.IsOption) :
    Writes ('-' :: '-' :: text) (longGroup text).found (longGroup text).awaiting := by
  have parts : text.takeWhile (· ≠ '=') ++ text.dropWhile (· ≠ '=') = text :=
    List.takeWhile_append_dropWhile
  have stop := List.head?_dropWhile_not (· ≠ '=') text
  unfold longGroup at options ⊢
  generalize text.takeWhile (· ≠ '=') = name at *
  generalize text.dropWhile (· ≠ '=') = rest at *
  subst parts
  dsimp only at options ⊢
  obtain quiet | ⟨setting, named⟩ | ⟨occurrence, key, other⟩ | key :=
    longKey?_cases (String.ofList name)
  · have key : longKey? (String.ofList name) = some (.plain (.switch .quiet)) := by rw [quiet]; rfl
    rw [key] at options ⊢
    cases rest with
    | nil =>
      have same : name = "quiet".toList := by rw [← quiet, String.toList_ofList]
      rw [same]
      exact .quiet
    | cons _ _ => exact (options _ (.head _)).elim
  · rw [longKey?_of_word? named]
    have same : name = (String.ofList name).toList := String.toList_ofList.symm
    cases rest with
    | nil =>
      rw [List.append_nil, same]
      exact .setting named
    | cons c value =>
      have equals : c = '=' := by simpa using stop
      rw [equals, same]
      exact .equals named value
  · rw [key] at options
    cases rest with
    | nil => exact absurd (options _ (.head _)) other
    | cons _ _ => exact (options _ (.head _)).elim
  · rw [key] at options
    exact (options _ (.head _)).elim

theorem group_of_isValue {argument : String} (plain : isValue argument = true) :
    group argument = ⟨[.positional argument], none⟩ := by
  unfold group
  split <;> rename_i text
  · simp [isValue, text] at plain
  · simp [isValue, text] at plain
  · rfl

theorem writes_of_group {argument : String} {found : List Occurrence} {awaiting : Option Setting}
    (grouped : group argument = ⟨found, awaiting⟩)
    (options : ∀ occurrence ∈ found, occurrence.IsOption) :
    Writes argument.toList found awaiting := by
  unfold group at grouped
  split at grouped
  · rename_i name text
    have long := writes_of_longGroup name
    rw [grouped] at long
    exact text ▸ long options
  · rename_i c rest _ text
    have short := exists_ends_of_shortGroup (c :: rest)
    rw [grouped] at short
    obtain ⟨switches, last, ending, written, rfl, ends⟩ := short options
    rw [text, written]
    exact .short (written ▸ List.cons_ne_nil _ _) ends
  · rename_i plain
    cases grouped
    refine .positional ?_
    unfold isValue
    split
    · rename_i dashed
      exact (plain _ _ dashed).elim
    · rfl

theorem letter?_ne_dash (setting : Setting) : setting.letter? ≠ some '-' := by
  cases setting <;> decide

theorem head?_ne_dash (switches : List Switch) {last : List Char} {found : List Occurrence}
    {awaiting : Option Setting} (ends : Ends last found awaiting) :
    (letters switches ++ last).head? ≠ some '-' := by
  cases switches with
  | cons switch rest => cases switch <;> simp [letters, Switch.letter]
  | nil =>
    cases ends with
    | nothing => simp [letters]
    | setting named | equals named | value named =>
      rintro ⟨⟩
      exact letter?_ne_dash _ named

theorem group_of_short {argument : String} {switches : List Switch} {last : List Char}
    {found : List Occurrence} {awaiting : Option Setting} (ends : Ends last found awaiting)
    (some : letters switches ++ last ≠ [])
    (text : argument.toList = '-' :: letters switches ++ last) :
    argument ≠ "--" ∧ group argument = ⟨switches.map .switch ++ found, awaiting⟩ := by
  have grouped := shortGroup_letters switches last
  rw [shortGroup_of_ends ends] at grouped
  have head := head?_ne_dash switches ends
  rw [List.cons_append] at text
  generalize letters switches ++ last = written at *
  refine ⟨?_, ?_⟩
  · rintro rfl
    cases text
    exact head rfl
  · unfold group
    split <;> rename_i same <;> rw [text] at same
    · cases same
      exact absurd rfl head
    · cases same
      exact grouped
    · cases written with
      | nil => exact absurd rfl some
      | cons c rest => exact (same _ _ rfl).elim

theorem group_of_long {argument : String} {name : List Char} (some : name ≠ [])
    (text : argument.toList = '-' :: '-' :: name) :
    argument ≠ "--" ∧ group argument = longGroup name := by
  refine ⟨?_, ?_⟩
  · rintro rfl
    cases text
    exact some rfl
  · simp only [group, text]

theorem group_of_writes {argument : String} {found : List Occurrence} {awaiting : Option Setting}
    (writes : Writes argument.toList found awaiting) :
    argument ≠ "--" ∧ group argument = ⟨found, awaiting⟩ := by
  generalize text : argument.toList = characters at writes
  cases writes with
  | positional plain =>
    obtain rfl := String.toList_inj.mp text
    refine ⟨?_, group_of_isValue plain⟩
    rintro rfl
    cases plain
  | quiet => exact group_of_long (by decide) text
  | setting named => exact longGroup_word named ▸ group_of_long (toList_ne_nil_of_word? named) text
  | equals named value =>
    exact longGroup_equals named value ▸ group_of_long
      (List.append_ne_nil_of_left_ne_nil (toList_ne_nil_of_word? named) _) text
  | short some ends => exact group_of_short ends some text

theorem occurrences_of_spells {arguments : List String} {found : List Occurrence}
    (spelled : Spells arguments found) : occurrences arguments = found := by
  induction spelled with
  | nil => rfl
  | positionals values => rfl
  | argument writes rest ih =>
    obtain ⟨separate, grouped⟩ := group_of_writes writes
    unfold occurrences
    rw [if_neg separate, grouped]
    dsimp only
    rw [ih]
  | value writes plain rest ih =>
    obtain ⟨separate, grouped⟩ := group_of_writes writes
    unfold occurrences
    rw [if_neg separate, grouped]
    dsimp only
    rw [if_pos plain, ih]

theorem isOption_of_ends {last : List Char} {found : List Occurrence} {awaiting : Option Setting}
    (ends : Ends last found awaiting) : ∀ occurrence ∈ found, occurrence.IsOption := by
  cases ends <;> simp [Occurrence.IsOption]

theorem isOption_of_writes {text : List Char} {found : List Occurrence} {awaiting : Option Setting}
    (writes : Writes text found awaiting) : ∀ occurrence ∈ found, occurrence.IsOption := by
  cases writes with
  | positional | quiet | setting | equals => simp [Occurrence.IsOption]
  | short some ends =>
    intro occurrence known
    rcases List.mem_append.mp known with switch | last
    · obtain ⟨_, -, rfl⟩ := List.mem_map.mp switch
      trivial
    · exact isOption_of_ends ends occurrence last

theorem isOption_of_spells {arguments : List String} {found : List Occurrence}
    (spelled : Spells arguments found) : ∀ occurrence ∈ found, occurrence.IsOption := by
  induction spelled with
  | nil => simp
  | positionals values => simp [Occurrence.IsOption]
  | argument writes rest ih =>
    exact fun occurrence known => (List.mem_append.mp known).elim
      (isOption_of_writes writes occurrence) (ih occurrence)
  | value writes plain rest ih =>
    intro occurrence known
    rcases List.mem_append.mp known with first | later
    · exact isOption_of_writes writes occurrence first
    · rcases List.mem_cons.mp later with rfl | later
      · trivial
      · exact ih occurrence later

theorem spells_occurrences (arguments : List String)
    (options : ∀ occurrence ∈ occurrences arguments, occurrence.IsOption) :
    Spells arguments (occurrences arguments) := by
  fun_induction occurrences arguments with
  | case1 => exact .nil
  | case2 rest => exact .positionals rest
  | case3 argument separate found rest grouped ih =>
    have writes := writes_of_group grouped fun occurrence here =>
      options occurrence (List.mem_append_left _ here)
    exact .argument writes (ih fun occurrence later =>
      options occurrence (List.mem_append_right _ later))
  | case4 | case6 =>
    exact (options _ (List.mem_append_right _ (.head _))).elim
  | case5 argument separate found setting value rest grouped plain ih =>
    have writes := writes_of_group grouped fun occurrence here =>
      options occurrence (List.mem_append_left _ here)
    exact .value writes plain (ih fun occurrence later =>
      options occurrence (List.mem_append_right _ (.tail _ later)))

/-- Splitting finds what is spelled, unless something else than options is asked for. -/
theorem spells_iff (arguments : List String) (found : List Occurrence) :
    Spells arguments found ↔
      occurrences arguments = found ∧ ∀ occurrence ∈ found, occurrence.IsOption := by
  constructor
  · exact fun spelled => ⟨occurrences_of_spells spelled, isOption_of_spells spelled⟩
  · rintro ⟨rfl, options⟩
    exact spells_occurrences arguments options

end Testbench.CommandLine
