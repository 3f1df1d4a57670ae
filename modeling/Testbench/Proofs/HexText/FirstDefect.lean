import Testbench.Proofs.HexText.Placement
import Testbench.Proofs.HexText.Position
import Testbench.Proofs.Memory.Load

/-! The defect that rejects a hex text. Storing stops at the first token, in reading order, that
has no number of its kind or no room in memory. It reports that token with its line, and the
words before it are in memory as if the text had ended there. -/
namespace Testbench.HexText

/-- What is wrong with a token behind the tokens `before`, which start at the address `start`:
a directive has no number; a word has none that fits; or the word has no room. -/
inductive Offends (start depth line : Nat) (before : List (List Char)) :
    List Char → Defect → Prop
  | directive {digits : List Char} (unread : ∀ base, ¬Denotes digits base) :
      Offends start depth line before ('@' :: digits)
        (.invalidAddress line (String.ofList ('@' :: digits)))
  | word {token : List Char} (word : isWord token = true)
      (unread : ¬∃ value, Denotes token value ∧ value < 2 ^ 32) :
      Offends start depth line before token (.invalidWord line (String.ofList token))
  | target {token : List Char} {value address : Nat} (word : isWord token = true)
      (denotes : Denotes token value) (fits : value < 2 ^ 32)
      (target : Target start before address) (outside : depth ≤ address) :
      Offends start depth line before token (.overflow line address depth)

structure FirstOffence (depth : Nat) (text before token : List Char) (defect : Defect) :
    Prop where
  stands : ∃ after, text = before ++ token ++ after ∧ Stands before token after
  offends : Offends 0 depth (1 + before.count '\n') (tokenTexts before) token defect
  first : ∀ earlier other later, tokenTexts before = earlier ++ other :: later →
    ∀ line defect, ¬Offends 0 depth line earlier other defect

theorem accepts_iff_not_offends {start depth : Nat} {tokens : List (List Char)} :
    Accepts start depth tokens ↔
      ∀ earlier other later, tokens = earlier ++ other :: later →
        ∀ line defect, ¬Offends start depth line earlier other defect := by
  constructor
  · rintro accepts earlier other later rfl line defect offends
    have here : other ∈ earlier ++ other :: later := by simp
    cases offends with
    | directive unread =>
      obtain ⟨base, denotes⟩ := accepts.directives _ here
      exact unread base denotes
    | word word unread => exact unread (accepts.words other here word)
    | target word denotes fits target outside =>
      have placed : Places start (earlier ++ other :: later) earlier.length _ :=
        ⟨other, by simp, word, by rwa [List.take_left]⟩
      exact Nat.not_lt.mpr outside (accepts.targets _ _ placed)
  · intro clean
    have words : ∀ token ∈ tokens, isWord token = true →
        ∃ value, Denotes token value ∧ value < 2 ^ 32 := by
      intro token here word
      obtain ⟨earlier, later, split⟩ := List.append_of_mem here
      by_contra unread
      exact clean earlier token later split 0 _ (.word word unread)
    refine ⟨?_, words, ?_⟩
    · intro digits here
      obtain ⟨earlier, later, split⟩ := List.append_of_mem here
      by_contra unread
      exact clean earlier _ later split 0 _ (.directive (not_exists.mp unread))
    · rintro position address ⟨token, here, word, target⟩
      obtain ⟨bound, rfl⟩ := List.getElem?_eq_some_iff.mp here
      obtain ⟨value, denotes, fits⟩ := words _ (List.getElem_mem bound) word
      by_contra outside
      refine clean (tokens.take position) _ (tokens.drop (position + 1)) ?_ 0 _
        (.target word denotes fits target (Nat.not_lt.mp outside))
      rw [← List.drop_eq_getElem_cons bound, List.take_append_drop]

theorem exists_target {start depth : Nat} {tokens : List (List Char)}
    (accepts : Accepts start depth tokens) : ∃ address, Target start tokens address := by
  induction tokens generalizing start with
  | nil => exact ⟨start, (target_nil start start).mpr rfl⟩
  | cons token rest ih =>
    by_cases word : isWord token = true
    · obtain ⟨address, target⟩ := ih ((accepts_cons_word word).mp accepts).2.2
      exact ⟨address, (target_cons_word word).mpr target⟩
    · obtain ⟨digits, rfl⟩ : ∃ digits, token = '@' :: digits := by
        by_contra plain
        exact word (isWord_of_not_directive fun digits same => plain ⟨digits, same⟩)
      obtain ⟨base, denotes⟩ := accepts.directives digits (.head _)
      obtain ⟨address, target⟩ := ih ((accepts_cons_directive denotes).mp accepts)
      exact ⟨address, (target_cons_directive denotes).mpr target⟩

theorem value?_eq_none {digits : List Char} (unread : ∀ base, ¬Denotes digits base) :
    value? digits = none := by
  rw [Option.eq_none_iff_forall_ne_some]
  intro value read
  exact unread _ (denotes_of_value? read)

theorem word?_eq_none {token : List Char}
    (unread : ¬∃ value, Denotes token value ∧ value < 2 ^ 32) : word? token = none := by
  rw [Option.eq_none_iff_forall_ne_some]
  intro word read
  exact unread ⟨_, denotes_of_word? read⟩

theorem store_word {token : List Char} (word : isWord token = true) (line : Nat)
    (rest : List Token) (address stored : Nat) (image : Image) :
    store (⟨line, token⟩ :: rest) address stored image =
      match word? token with
      | none => (.error (.invalidWord line (String.ofList token)), image)
      | some word =>
        if address < image.depth then
          store rest (address + 1) (stored + 1) (image.write address word)
        else (.error (.overflow line address image.depth), image) := by
  rw [store.eq_def (⟨line, token⟩ :: rest)]
  split
  · rename_i empty
    cases empty
  · rename_i directive
    cases directive
    simp [isWord] at word
  · rename_i whole
    cases whole
    rfl

theorem store_append {front : List Token} {start address stored : Nat} {image : Image}
    (accepts : Accepts start image.depth (front.map Token.text))
    (target : Target start (front.map Token.text) address) (rest : List Token) :
    store (front ++ rest) start stored image =
      store rest address (stored + (front.map Token.text).countP isWord)
        (store front start stored image).2 := by
  -- Accepted tokens never end the store, so only three of its cases are left.
  fun_induction store front start stored image with
  | case1 start stored image =>
    rw [(target_nil start address).mp target]
    rfl
  | case2 start line digits front stored image base number ih =>
    have denotes := denotes_of_value? number
    have directive : isWord ('@' :: digits) = false := by simp [isWord]
    have after := ih ((accepts_cons_directive denotes).mp accepts)
      ((target_cons_directive denotes).mp target)
    rw [List.cons_append, store, number, List.map_cons,
      List.countP_cons_of_neg (by simp [directive])]
    exact after
  | case3 start line digits rest stored image number =>
    obtain ⟨base, denotes⟩ := accepts.directives digits (.head _)
    exact absurd denotes (not_denotes_of_value? number base)
  | case4 line text rest start stored image plain number =>
    exact absurd (accepts.words text (.head _) (isWord_of_not_directive plain))
      (not_denotes_of_word? number)
  | case5 line text front start stored image plain word number fits ih =>
    have isWord := isWord_of_not_directive plain
    have tail := ((accepts_cons_word isWord).mp accepts).2.2
    have after := ih (by rwa [Image.depth_write]) ((target_cons_word isWord).mp target)
    rw [List.cons_append, store_word isWord, number]
    dsimp only
    rw [if_pos fits, after, List.map_cons, List.countP_cons_of_pos isWord, Nat.add_assoc,
      Nat.add_comm 1]
  | case6 line text rest start stored image plain word number full =>
    exact absurd ((accepts_cons_word (isWord_of_not_directive plain)).mp accepts).2.1 full

theorem store_of_offends {front : List Token} {start line stored : Nat} {image : Image}
    {token : List Char} {defect : Defect}
    (accepts : Accepts start image.depth (front.map Token.text))
    (offends : Offends start image.depth line (front.map Token.text) token defect)
    (rest : List Token) :
    store (front ++ ⟨line, token⟩ :: rest) start stored image =
      (.error defect, (store front start stored image).2) := by
  have depth := depth_store front start stored image
  cases offends with
  | directive unread =>
    obtain ⟨address, target⟩ := exists_target accepts
    rw [store_append accepts target, store, value?_eq_none unread]
  | word word unread =>
    obtain ⟨address, target⟩ := exists_target accepts
    rw [store_append accepts target, store_word word, word?_eq_none unread]
  | @target _ value address word denotes fits target outside =>
    obtain ⟨number, read, -⟩ := Option.map_eq_some_iff.mp
      ((word?_eq_some_iff token value).mpr ⟨denotes, fits⟩)
    rw [store_append accepts target, store_word word, read]
    dsimp only
    rw [depth, if_neg (Nat.not_lt.mpr outside)]

theorem Offends.cons {start base depth line : Nat} {earlier token : List Char}
    {before : List (List Char)} {defect : Defect}
    (leads : ∀ address, Target base before address → Target start (earlier :: before) address)
    (offends : Offends base depth line before token defect) :
    Offends start depth line (earlier :: before) token defect := by
  cases offends with
  | directive unread => exact .directive unread
  | word word unread => exact .word word unread
  | target word denotes fits target outside =>
    exact .target word denotes fits (leads _ target) outside

theorem exists_offence_of_store {tokens : List Token} {start stored : Nat} {image : Image}
    {defect : Defect} (rejected : (store tokens start stored image).1 = .error defect) :
    ∃ front line token rest, tokens = front ++ ⟨line, token⟩ :: rest ∧
      Accepts start image.depth (front.map Token.text) ∧
      Offends start image.depth line (front.map Token.text) token defect := by
  fun_induction store tokens start stored image with
  | case1 start stored image => cases rejected
  | case2 start line digits rest stored image base number ih =>
    have denotes := denotes_of_value? number
    obtain ⟨front, at_, token, later, rfl, accepts, offends⟩ := ih rejected
    exact ⟨⟨line, '@' :: digits⟩ :: front, at_, token, later, rfl,
      (accepts_cons_directive denotes).mpr accepts,
      offends.cons fun _ => (target_cons_directive denotes).mpr⟩
  | case3 start line digits rest stored image number =>
    cases rejected
    exact ⟨[], line, _, rest, rfl, accepts_nil _ _, .directive (not_denotes_of_value? number)⟩
  | case4 line text rest start stored image plain number =>
    cases rejected
    exact ⟨[], line, _, rest, rfl, accepts_nil _ _,
      .word (isWord_of_not_directive plain) (not_denotes_of_word? number)⟩
  | case5 line text rest start stored image plain word number fits ih =>
    have isWord := isWord_of_not_directive plain
    obtain ⟨front, at_, token, later, rfl, accepts, offends⟩ := ih rejected
    rw [Image.depth_write] at accepts offends
    exact ⟨⟨line, text⟩ :: front, at_, token, later, rfl,
      (accepts_cons_word isWord).mpr ⟨⟨_, denotes_of_word? number⟩, fits, accepts⟩,
      offends.cons fun _ => (target_cons_word isWord).mpr⟩
  | case6 line text rest start stored image plain word number full =>
    cases rejected
    have denotes := denotes_of_word? number
    exact ⟨[], line, _, rest, rfl, accepts_nil _ _,
      .target (isWord_of_not_directive plain) denotes.1 denotes.2
        ((target_nil start start).mpr rfl) (Nat.not_lt.mp full)⟩

theorem parseHex_of_firstOffence {image : Image} {text : String} {before token : List Char}
    {defect : Defect} (offence : FirstOffence image.depth text.toList before token defect) :
    image.parseHex text = (.error defect, (store (tokens before) 0 0 image).2) := by
  obtain ⟨⟨after, whole, stands⟩, offends, first⟩ := offence
  have accepts : Accepts 0 image.depth ((tokens before).map Token.text) := by
    rw [map_text_tokens]
    exact accepts_iff_not_offends.mpr first
  rw [← map_text_tokens] at offends
  rw [Image.parseHex, whole, tokens_of_stands stands]
  exact store_of_offends accepts offends _

theorem exists_firstOffence {image : Image} {text : String} {defect : Defect}
    (rejected : (image.parseHex text).1 = .error defect) :
    ∃ before token, FirstOffence image.depth text.toList before token defect := by
  obtain ⟨front, line, token, rest, read, accepts, offends⟩ := exists_offence_of_store rejected
  obtain ⟨before, after, whole, stands, rfl⟩ := stands_of_tokens read
  -- The same token, read where it stands, shows its line.
  have located := tokens_of_stands stands
  rw [← whole, read, List.append_cancel_left_eq, List.cons.injEq, Token.mk.injEq] at located
  obtain ⟨⟨rfl, -⟩, -⟩ := located
  rw [map_text_tokens] at accepts offends
  exact ⟨before, token, ⟨after, whole, stands⟩, offends, accepts_iff_not_offends.mp accepts⟩

end Testbench.HexText

namespace Testbench

open HexText in
/-- A hex text is rejected for its first offending token, with the line of that token; the
tokens before it are stored as if they were the whole text. A file is loaded as its text is
parsed, and a file that holds no text changes nothing. -/
theorem Image.parseHex_reports_first_defect (image : Image) (text : String) :
    let parsed := image.parseHex text
    (∀ defect, parsed.1 = .error defect ↔
        ∃ before token, FirstOffence image.depth text.toList before token defect) ∧
      (∀ before token defect, FirstOffence image.depth text.toList before token defect →
        (∃ later, tokenTexts text.toList = tokenTexts before ++ token :: later) ∧
          parsed.2.depth = image.depth ∧ LastWins 0 (tokenTexts before) image parsed.2) ∧
      (∀ files path, files.read path = .ok text.toUTF8 →
        (image.load path files).1 = parsed.1.mapError (.malformedImage path) ∧
          (image.load path files).2.1 = parsed.2) ∧
      ∀ files path, ((∃ error, files.read path = .error error) ∨
          ∃ bytes, files.read path = .ok bytes ∧ ¬bytes.IsValidUTF8) →
        (∃ error, (image.load path files).1 = .error (.initialLoad path error)) ∧
          (image.load path files).2.1 = image := by
  intro parsed
  refine ⟨fun defect => ⟨exists_firstOffence, ?_⟩, ?_, fun _ _ => load_of_text, ?_⟩
  · rintro ⟨before, token, offence⟩
    exact congrArg Prod.fst (parseHex_of_firstOffence offence)
  · intro before token defect offence
    have read : parsed = _ := parseHex_of_firstOffence offence
    obtain ⟨after, whole, stands⟩ := offence.stands
    have wins := lastWins_store (tokens before) 0 0 image
    rw [map_text_tokens] at wins
    rw [read, whole, tokenTexts_of_stands stands]
    exact ⟨⟨_, rfl⟩, depth_store _ _ _ _, wins (accepts_iff_not_offends.mpr offence.first)⟩
  · rintro files path (⟨error, refused⟩ | ⟨bytes, read, invalid⟩)
    · rw [load_of_fails (.unreadable refused)]
      exact ⟨⟨error, rfl⟩, rfl⟩
    · rw [load_of_fails (.notText read invalid)]
      exact ⟨⟨.notText, rfl⟩, rfl⟩

open HexText in
/-- Behind the directive there is room for one word only; the second one is on the third line. -/
theorem Image.parseHex_reports_overflow_on_third_line :
    let image : Image := ⟨#[8, 8, 8, 8], by decide⟩
    let text := "1 2 // @9\r\n@3 7\n9"
    let before := "1 2 // @9\r\n@3 7\n".toList
    let files := FileSystem.initial.addFile ["image"] text.toUTF8
    let defect := Defect.overflow 3 4 4
    FirstOffence 4 text.toList before ['9'] defect ∧
      (image.parseHex text).1 = .error defect ∧
      Denotes ['7'] ((image.parseHex text).2.read 3).toNat ∧
      (files.read "image" = .ok text.toUTF8 ∧
        (image.load "image" files).1 = .error (.malformedImage "image" defect)) ∧
      files.read "other" = .error .notFound ∧ (image.load "other" files).2.1 = image := by
  intro image text before files defect
  have law := Image.parseHex_reports_first_defect image text
  have texts : tokenTexts before = [['1'], ['2'], ['@', '3'], ['7']] := by rfl
  have accepts : Accepts 0 4 (tokenTexts before) := by
    rw [← map_text_tokens]
    exact ((store_ok_iff (tokens before) 0 0 image 3).mp (by rfl)).1
  have three : Denotes ['3'] 3 := (value?_eq_some_iff _ _).mp (by rfl)
  have nine : Denotes ['9'] 9 := (value?_eq_some_iff _ _).mp (by rfl)
  have offence : FirstOffence 4 text.toList before ['9'] defect := by
    have digit : ∀ c ∈ ['9'], Text.isBlank c = false := List.forall_mem_singleton.mpr rfl
    refine ⟨⟨[], by decide, [], by decide, List.cons_ne_nil _ _, digit, nofun, nofun⟩, ?_,
      accepts_iff_not_offends.mp accepts⟩
    refine .target rfl nine (by decide) ?_ (Nat.le_refl 4)
    rw [texts]
    exact .inr ⟨[['1'], ['2']], ['3'], [['7']], 3, rfl, rfl, three, rfl⟩
  have rejected := (law.1 defect).mpr ⟨before, ['9'], offence⟩
  obtain ⟨-, -, wins⟩ := law.2.1 before ['9'] defect offence
  rw [texts] at wins
  have read : files.read "image" = .ok text.toUTF8 := by rfl
  have missing : files.read "other" = .error .notFound := by rfl
  have loaded := (law.2.2.1 files "image" read).1
  rw [rejected] at loaded
  refine ⟨offence, rejected, ?_, ⟨read, loaded⟩, missing,
    (law.2.2.2 files "other" (.inl ⟨_, missing⟩)).2⟩
  refine (wins 3 (by decide)).1 3 ['7'] rfl ?_ ?_
  · exact ⟨['7'], rfl, rfl, .inr ⟨[['1'], ['2']], ['3'], [], 3, rfl, rfl, three, rfl⟩⟩
  · rintro later after ⟨token, here, -⟩
    rw [List.getElem?_eq_none (by simp; omega)] at here
    exact nomatch here

end Testbench
