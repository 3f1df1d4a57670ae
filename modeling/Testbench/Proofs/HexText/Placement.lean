import Testbench.Proofs.HexText.Grammar

/-! Where the words of a hex text go. The target of a word is told by the tokens before
it alone: the latest directive and the number of words behind that one. Storing accepts
exactly the texts whose tokens have numbers and whose words have targets inside memory,
and leaves at each address what the last word for that address says. -/
namespace Testbench.HexText

def isWord (token : List Char) : Bool :=
  token.head? != some '@'

/-- Where the next word goes behind these tokens, if the first one goes to `start`. -/
def Target (start : Nat) (before : List (List Char)) (address : Nat) : Prop :=
  (before.all isWord = true ∧ address = start + before.length) ∨
    ∃ earlier digits words base, before = earlier ++ ('@' :: digits) :: words ∧
      words.all isWord = true ∧ Denotes digits base ∧ address = base + words.length

def Places (start : Nat) (tokens : List (List Char)) (position address : Nat) : Prop :=
  ∃ token, tokens[position]? = some token ∧ isWord token = true ∧
    Target start (tokens.take position) address

structure Accepts (start depth : Nat) (tokens : List (List Char)) : Prop where
  directives : ∀ digits, '@' :: digits ∈ tokens → ∃ base, Denotes digits base
  words : ∀ token ∈ tokens, isWord token = true → ∃ value, Denotes token value ∧ value < 2 ^ 32
  targets : ∀ position address, Places start tokens position address → address < depth

/-- At each address stands what the last word for it says, or what stood there before. -/
def LastWins (start : Nat) (tokens : List (List Char)) (before after : Image) : Prop :=
  ∀ address < before.depth,
    (∀ position token, tokens[position]? = some token → Places start tokens position address →
      (∀ later > position, ¬Places start tokens later address) →
        Denotes token (after.read address).toNat) ∧
    ((∀ position, ¬Places start tokens position address) →
      after.read address = before.read address)

theorem Denotes.unique {token : List Char} {value other : Nat} (left : Denotes token value)
    (right : Denotes token other) : value = other := by
  rw [← value?_eq_some_iff] at left right
  exact Option.some.inj (left.symm.trans right)

theorem word?_eq_some_iff (token : List Char) (value : Nat) :
    (word? token).map UInt32.toNat = some value ↔ Denotes token value ∧ value < 2 ^ 32 := by
  rw [← value?_eq_some_iff]
  unfold word?
  cases value? token with
  | none => simp
  | some number =>
    rw [Option.bind_some, Option.map_some, Option.some.injEq]
    by_cases fits : number.toNat < UInt32.size
    · have bound : number.toNat < 2 ^ 32 := fits
      rw [if_pos fits, Option.map_some, Option.some.injEq, UInt64.toNat_toUInt32,
        Nat.mod_eq_of_lt bound]
      constructor
      · rintro rfl
        exact ⟨rfl, bound⟩
      · exact And.left
    · rw [if_neg fits, Option.map_none]
      constructor
      · exact fun h => nomatch h
      · rintro ⟨rfl, bound⟩
        exact absurd bound fits

theorem target_nil (start address : Nat) : Target start [] address ↔ address = start := by
  simp [Target]

theorem target_cons_word {start address : Nat} {token : List Char} {before : List (List Char)}
    (word : isWord token = true) :
    Target start (token :: before) address ↔ Target (start + 1) before address := by
  unfold Target
  apply or_congr
  · rw [List.all_cons, word, Bool.true_and, List.length_cons, Nat.add_right_comm, Nat.add_assoc]
  · constructor
    · rintro ⟨earlier, digits, words, base, split, rest⟩
      cases earlier with
      | nil =>
        cases split
        exact absurd word (by simp [isWord])
      | cons _ earlier =>
        cases split
        exact ⟨earlier, digits, words, base, rfl, rest⟩
    · rintro ⟨earlier, digits, words, base, rfl, rest⟩
      exact ⟨token :: earlier, digits, words, base, rfl, rest⟩

theorem target_cons_directive {start base address : Nat} {digits : List Char}
    {before : List (List Char)} (denotes : Denotes digits base) :
    Target start (('@' :: digits) :: before) address ↔ Target base before address := by
  constructor
  · rintro (⟨all, -⟩ | ⟨earlier, other, words, value, split, all, named, rfl⟩)
    · exact absurd all (by simp [isWord])
    · cases earlier with
      | nil =>
        cases split
        exact .inl ⟨all, by rw [named.unique denotes]⟩
      | cons _ earlier =>
        cases split
        exact .inr ⟨earlier, other, words, value, rfl, all, named, rfl⟩
  · rintro (⟨all, rfl⟩ | ⟨earlier, other, words, value, rfl, rest⟩)
    · exact .inr ⟨[], digits, before, base, rfl, all, denotes, rfl⟩
    · exact .inr ⟨('@' :: digits) :: earlier, other, words, value, rfl, rest⟩

theorem places_zero {start address : Nat} {token : List Char} {rest : List (List Char)} :
    Places start (token :: rest) 0 address ↔ isWord token = true ∧ address = start := by
  unfold Places
  rw [List.take_zero, target_nil]
  constructor
  · rintro ⟨_, ⟨⟩, placed⟩
    exact placed
  · exact fun placed => ⟨token, rfl, placed⟩

theorem places_cons_word {start position address : Nat} {token : List Char}
    {rest : List (List Char)} (word : isWord token = true) :
    Places start (token :: rest) (position + 1) address ↔
      Places (start + 1) rest position address := by
  unfold Places
  simp only [List.getElem?_cons_succ, List.take_succ_cons, target_cons_word word]

theorem places_cons_directive {start base position address : Nat} {digits : List Char}
    {rest : List (List Char)} (denotes : Denotes digits base) :
    Places start (('@' :: digits) :: rest) (position + 1) address ↔
      Places base rest position address := by
  unfold Places
  simp only [List.getElem?_cons_succ, List.take_succ_cons, target_cons_directive denotes]

theorem not_places_directive {start address : Nat} {digits : List Char}
    {rest : List (List Char)} : ¬Places start (('@' :: digits) :: rest) 0 address := by
  rw [places_zero]
  exact fun placed => absurd placed.1 (by simp [isWord])

theorem accepts_nil (start depth : Nat) : Accepts start depth [] where
  directives := by simp
  words := by simp
  targets := by simp [Places]

theorem accepts_cons_directive {start base depth : Nat} {digits : List Char}
    {rest : List (List Char)} (denotes : Denotes digits base) :
    Accepts start depth (('@' :: digits) :: rest) ↔ Accepts base depth rest := by
  constructor
  · intro accepts
    refine ⟨fun _ h => accepts.directives _ (.tail _ h), fun _ h => accepts.words _ (.tail _ h), ?_⟩
    intro position address placed
    exact accepts.targets (position + 1) address ((places_cons_directive denotes).mpr placed)
  · intro accepts
    refine ⟨?_, ?_, ?_⟩
    · intro other h
      rcases List.mem_cons.mp h with same | h
      · cases same
        exact ⟨base, denotes⟩
      · exact accepts.directives other h
    · intro token h word
      rcases List.mem_cons.mp h with rfl | h
      · exact absurd word (by simp [isWord])
      · exact accepts.words token h word
    · intro position address placed
      cases position with
      | zero => exact absurd placed not_places_directive
      | succ position =>
        exact accepts.targets position address ((places_cons_directive denotes).mp placed)

theorem accepts_cons_word {start depth : Nat} {token : List Char} {rest : List (List Char)}
    (word : isWord token = true) :
    Accepts start depth (token :: rest) ↔
      (∃ value, Denotes token value ∧ value < 2 ^ 32) ∧ start < depth ∧
        Accepts (start + 1) depth rest := by
  constructor
  · intro accepts
    refine ⟨accepts.words token (.head _) word, accepts.targets 0 start ?_, ?_⟩
    · exact places_zero.mpr ⟨word, rfl⟩
    · refine ⟨fun _ h => accepts.directives _ (.tail _ h),
        fun _ h => accepts.words _ (.tail _ h), ?_⟩
      intro position address placed
      exact accepts.targets (position + 1) address ((places_cons_word word).mpr placed)
  · intro ⟨denotes, inside, accepts⟩
    refine ⟨?_, ?_, ?_⟩
    · intro digits h
      rcases List.mem_cons.mp h with rfl | h
      · exact absurd word (by simp [isWord])
      · exact accepts.directives digits h
    · intro other h isWord
      rcases List.mem_cons.mp h with rfl | h
      · exact denotes
      · exact accepts.words other h isWord
    · intro position address placed
      cases position with
      | zero => exact (places_zero.mp placed).2 ▸ inside
      | succ position => exact accepts.targets position address ((places_cons_word word).mp placed)

theorem lastWins_cons_directive {start base : Nat} {digits : List Char}
    {rest : List (List Char)} {before after : Image} (denotes : Denotes digits base)
    (wins : LastWins base rest before after) :
    LastWins start (('@' :: digits) :: rest) before after := by
  intro address inside
  obtain ⟨last, unchanged⟩ := wins address inside
  constructor
  · intro position token here placed latest
    cases position with
    | zero => exact absurd placed not_places_directive
    | succ position =>
      refine last position token here ((places_cons_directive denotes).mp placed) ?_
      intro later after placed
      exact latest (later + 1) (Nat.succ_lt_succ after) ((places_cons_directive denotes).mpr placed)
  · intro nowhere
    exact unchanged fun position placed =>
      nowhere (position + 1) ((places_cons_directive denotes).mpr placed)

theorem lastWins_cons_word {start : Nat} {token : List Char} {rest : List (List Char)}
    {before after : Image} {value : UInt32} (word : isWord token = true)
    (denotes : Denotes token value.toNat) (fits : start < before.depth)
    (wins : LastWins (start + 1) rest (before.write start value) after) :
    LastWins start (token :: rest) before after := by
  intro address inside
  obtain ⟨last, unchanged⟩ := wins address (by rwa [Image.depth_write])
  constructor
  · intro position other here placed latest
    cases position with
    | zero =>
      cases here
      obtain rfl := (places_zero.mp placed).2
      have overwritten : after.read address = (before.write address value).read address := by
        apply unchanged
        intro later placed
        exact latest (later + 1) (Nat.succ_pos later) ((places_cons_word word).mpr placed)
      rw [overwritten, Image.read_write, if_pos rfl]
      exact denotes
    | succ position =>
      refine last position other here ((places_cons_word word).mp placed) ?_
      intro later after placed
      exact latest (later + 1) (Nat.succ_lt_succ after) ((places_cons_word word).mpr placed)
  · intro nowhere
    have elsewhere : address ≠ start := fun same =>
      nowhere 0 (places_zero.mpr ⟨word, same⟩)
    rw [unchanged fun position placed =>
      nowhere (position + 1) ((places_cons_word word).mpr placed), Image.read_write,
      Nat.mod_eq_of_lt inside, Nat.mod_eq_of_lt fits, if_neg elsewhere]

theorem isWord_of_not_directive {token : List Char}
    (plain : ∀ digits, token = '@' :: digits → False) : isWord token = true := by
  unfold isWord
  cases token with
  | nil => rfl
  | cons c rest =>
    rw [List.head?_cons, bne_iff_ne]
    intro at_
    cases at_
    exact plain rest rfl

theorem denotes_of_value? {digits : List Char} {value : UInt64} (h : value? digits = some value) :
    Denotes digits value.toNat := by
  rw [← value?_eq_some_iff, h]
  rfl

theorem not_denotes_of_value? {digits : List Char} (h : value? digits = none) (value : Nat) :
    ¬Denotes digits value := by
  rw [← value?_eq_some_iff, h]
  exact fun h => nomatch h

theorem denotes_of_word? {token : List Char} {word : UInt32} (h : word? token = some word) :
    Denotes token word.toNat ∧ word.toNat < 2 ^ 32 := by
  rw [← word?_eq_some_iff, h]
  rfl

theorem not_denotes_of_word? {token : List Char} (h : word? token = none) :
    ¬∃ value, Denotes token value ∧ value < 2 ^ 32 := by
  rintro ⟨value, denotes⟩
  rw [← word?_eq_some_iff, h] at denotes
  exact nomatch denotes

theorem store_ok_iff (tokens : List Token) (start stored : Nat) (image : Image) (count : Nat) :
    (store tokens start stored image).1 = .ok count ↔
      Accepts start image.depth (tokens.map Token.text) ∧
        count = stored + (tokens.map Token.text).countP isWord := by
  -- A defect ends the store, and then some condition of acceptance fails.
  have rejected {defect : Defect} {accepted counted : Prop} (refused : ¬accepted) :
      (.error defect : Except Defect Nat) = .ok count ↔ accepted ∧ counted :=
    ⟨fun h => (nomatch h), fun h => absurd h.1 refused⟩
  fun_induction store tokens start stored image with
  | case1 start stored image => simp [accepts_nil, eq_comm]
  | case2 start line digits rest stored image base number ih =>
    have directive : isWord ('@' :: digits) = false := by simp [isWord]
    refine ih.trans ?_
    rw [List.map_cons, accepts_cons_directive (denotes_of_value? number),
      List.countP_cons_of_neg (by simp [directive])]
  | case3 start line digits rest stored image number =>
    refine rejected fun accepts => ?_
    obtain ⟨base, denotes⟩ := accepts.directives digits (.head _)
    exact not_denotes_of_value? number base denotes
  | case4 line text rest start stored image plain number =>
    refine rejected fun accepts => not_denotes_of_word? number ?_
    exact accepts.words text (.head _) (isWord_of_not_directive plain)
  | case5 line text rest start stored image plain word number fits ih =>
    have isWord := isWord_of_not_directive plain
    have denotes := denotes_of_word? number
    refine ih.trans ?_
    rw [List.map_cons, accepts_cons_word isWord, Image.depth_write,
      List.countP_cons_of_pos isWord]
    constructor
    · rintro ⟨accepts, total⟩
      exact ⟨⟨⟨_, denotes⟩, fits, accepts⟩, by omega⟩
    · rintro ⟨⟨_, _, accepts⟩, total⟩
      exact ⟨accepts, by omega⟩
  | case6 line text rest start stored image plain word number full =>
    refine rejected fun accepts => full ?_
    exact ((accepts_cons_word (isWord_of_not_directive plain)).mp accepts).2.1

theorem lastWins_store (tokens : List Token) (start stored : Nat) (image : Image)
    (accepts : Accepts start image.depth (tokens.map Token.text)) :
    LastWins start (tokens.map Token.text) image (store tokens start stored image).2 := by
  fun_induction store tokens start stored image with
  | case1 start stored image =>
    refine fun address _ => ⟨fun position _ _ placed _ => ?_, fun _ => rfl⟩
    obtain ⟨_, ⟨⟩, _⟩ := placed
  | case2 start line digits rest stored image base number ih =>
    have denotes := denotes_of_value? number
    exact lastWins_cons_directive denotes (ih ((accepts_cons_directive denotes).mp accepts))
  | case3 start line digits rest stored image number =>
    obtain ⟨base, denotes⟩ := accepts.directives digits (.head _)
    exact absurd denotes (not_denotes_of_value? number base)
  | case4 line text rest start stored image plain number =>
    exact absurd (accepts.words text (.head _) (isWord_of_not_directive plain))
      (not_denotes_of_word? number)
  | case5 line text rest start stored image plain word number fits ih =>
    have isWord := isWord_of_not_directive plain
    have tail := ((accepts_cons_word isWord).mp accepts).2.2
    exact lastWins_cons_word isWord (denotes_of_word? number).1 fits
      (ih (by rwa [Image.depth_write]))
  | case6 line text rest start stored image plain word number full =>
    exact absurd ((accepts_cons_word (isWord_of_not_directive plain)).mp accepts).2.1 full

end Testbench.HexText

namespace Testbench

open HexText in
/-- A hex text is read exactly if each of its tokens has a number and each word a target
inside memory; then the last word for an address decides what stands there. -/
theorem Image.parseHex_ok_iff_accepts (image : Image) (text : String) :
    let texts := tokenTexts text.toList
    let parsed := image.parseHex text
    (∀ count, parsed.1 = .ok count ↔
        Accepts 0 image.depth texts ∧ count = texts.countP isWord) ∧
      (Accepts 0 image.depth texts →
        parsed.2.depth = image.depth ∧ LastWins 0 texts image parsed.2) := by
  intro texts parsed
  have tokenised : (tokens text.toList).map Token.text = texts := map_text_tokens text.toList
  constructor
  · intro count
    have law := store_ok_iff (tokens text.toList) 0 0 image count
    rwa [tokenised, Nat.zero_add] at law
  · intro accepts
    refine ⟨depth_store _ _ _ _, ?_⟩
    have law := lastWins_store (tokens text.toList) 0 0 image
    rw [tokenised] at law
    exact law accepts

open HexText in
theorem Image.parseHex_overlapping_words :
    let image : Image := ⟨#[9, 9, 9, 9], by decide⟩
    let parsed := image.parseHex "@2 1 2 // 3\n@2 0x_3 # 4"
    parsed.1 = .ok 3 ∧ Accepts 0 4 (tokenTexts "@2 1 2 // 3\n@2 0x_3 # 4".toList) ∧
      Denotes "0x_3".toList (parsed.2.read 2).toNat := by
  intro image parsed
  have texts : tokenTexts "@2 1 2 // 3\n@2 0x_3 # 4".toList =
      [['@', '2'], ['1'], ['2'], ['@', '2'], ['0', 'x', '_', '3']] := by rfl
  have read : parsed.1 = .ok 3 := by rfl
  have law := image.parseHex_ok_iff_accepts "@2 1 2 // 3\n@2 0x_3 # 4"
  have accepts := ((law.1 3).mp read).1
  refine ⟨read, accepts, ?_⟩
  obtain ⟨-, wins⟩ := law.2 accepts
  rw [texts] at wins
  refine (wins 2 (by decide)).1 4 _ rfl ?_ ?_
  · refine ⟨_, rfl, rfl, .inr ⟨[['@', '2'], ['1'], ['2']], ['2'], [], 2, rfl, rfl, ?_, rfl⟩⟩
    exact (value?_eq_some_iff _ _).mp (by rfl)
  · rintro later after ⟨token, here, -⟩
    rw [List.getElem?_eq_none (by simp; omega)] at here
    exact nomatch here

end Testbench
