import Testbench.Proofs.HexText.Position
import Testbench.Proofs.Memory.Trapping

/-! Hex texts in the arithmetic of a machine. The cursor moves on from a word inside of the memory
only, and neither more words nor more lines are counted than there are characters in a text, so a
text that is held in memory has none too many. A line is cut in bytes, as it is held. -/
namespace Testbench

theorem Text.length_le_utf8ByteSize (text : String) : text.toList.length ≤ text.utf8ByteSize := by
  have encoded (characters : List Char) : characters.length ≤ characters.utf8Encode.size := by
    induction characters with
    | nil => exact Nat.zero_le _
    | cons c rest ih =>
      have size : [c].utf8Encode.size = c.utf8Size := by simp [List.utf8Encode]
      have positive := c.utf8Size_pos
      rw [List.utf8Encode_cons, ByteArray.size_append, List.length_cons, size]
      omega
  have bytes := encoded text.toList
  rwa [String.utf8Encode_toList] at bytes

namespace Trapping

/-- The beginning of a line, up to an offset in bytes that is not inside of a character. -/
def cut : List Char → Nat → Option (List Char)
  | _, 0 => some []
  | [], _ + 1 => none
  | c :: rest, offset =>
    if c.utf8Size ≤ offset then (cut rest (offset - c.utf8Size)).map (c :: ·) else none

def find? (text : List Char) : List Char → Option Nat
  | [] => none
  | c :: rest =>
    if text.isPrefixOf (c :: rest) then some 0 else (find? text rest).map (c.utf8Size + ·)

def codeBytes (line : List Char) : Nat :=
  (([find? "//".toList line, find? "#".toList line].filterMap id).min?).getD
    (line.map Char.utf8Size).sum

def code (line : List Char) : Option (List Char) :=
  cut line (codeBytes line)

structure Loading where
  cursor : UInt64
  stored : UInt64
  words : Array UInt32

def storeToken (depth line : UInt64) (text : List Char) (state : Loading) :
    Option (Option HexText.Defect × Loading) :=
  match text with
  | '@' :: digits =>
    match HexText.value? digits with
    | some address => some (none, { state with cursor := address })
    | none => some (some (.invalidAddress line.toNat (String.ofList text)), state)
  | _ =>
    match HexText.word? text with
    | none => some (some (.invalidWord line.toNat (String.ofList text)), state)
    | some word =>
      if state.cursor < depth then do
        let words ← set state.words state.cursor word
        let cursor ← add state.cursor 1
        let stored ← add state.stored 1
        some (none, ⟨cursor, stored, words⟩)
      else some (some (.overflow line.toNat state.cursor.toNat depth.toNat), state)

def storeWords (depth line : UInt64) :
    List (List Char) → Loading → Option (Option HexText.Defect × Loading)
  | [], state => some (none, state)
  | text :: rest, state => do
    match ← storeToken depth line text state with
    | (none, state) => storeWords depth line rest state
    | (some defect, state) => some (some defect, state)

def storeLines (depth : UInt64) :
    List (List Char) → (index : UInt64) → Loading → Option (Option HexText.Defect × Loading)
  | [], _, state => some (none, state)
  | line :: rest, index, state => do
    let number ← add index 1
    match ← storeWords depth number (Text.words (← code line)) state with
    | (none, state) => storeLines depth rest number state
    | (some defect, state) => some (some defect, state)

def parseHex (text : String) (words : Array UInt32) :
    Option (Except HexText.Defect Nat × Array UInt32) := do
  match ← storeLines (← size words) (Text.lines text.toList) 0 ⟨0, 0, words⟩ with
  | (none, state) => some (.ok state.stored.toNat, state.words)
  | (some defect, state) => some (.error defect, state.words)

variable {image : Image}

theorem find?_cons_of_not (text : List Char) {c : Char} {rest : List Char}
    (other : text.isPrefixOf (c :: rest) = false) :
    find? text (c :: rest) = (find? text rest).map (c.utf8Size + ·) := by
  rw [find?, other, if_neg Bool.false_ne_true]

theorem codeBytes_cons {c : Char} {rest : List Char}
    (plain : HexText.opensComment (c :: rest) = false) :
    codeBytes (c :: rest) = c.utf8Size + codeBytes rest := by
  obtain ⟨slashes, hash⟩ := Bool.or_eq_false_iff.mp plain
  have slashes' := find?_cons_of_not "//".toList slashes
  have hash' := find?_cons_of_not "#".toList hash
  unfold codeBytes
  rw [slashes', hash', List.map_cons, List.sum_cons]
  cases find? "//".toList rest <;> cases find? "#".toList rest <;>
    simp [List.min?, Nat.add_min_add_left]

theorem codeBytes_of_opensComment {c : Char} {rest : List Char}
    (opens : HexText.opensComment (c :: rest) = true) : codeBytes (c :: rest) = 0 := by
  have found (text : List Char) (here : text.isPrefixOf (c :: rest) = true) :
      find? text (c :: rest) = some 0 := by
    rw [find?, here, if_pos rfl]
  unfold codeBytes
  rcases Bool.or_eq_true_iff.mp opens with slashes | hash
  · rw [found "//".toList slashes]
    cases find? "#".toList (c :: rest) <;> simp [List.min?]
  · rw [found "#".toList hash]
    cases find? "//".toList (c :: rest) <;> simp [List.min?]

theorem cut_cons (c : Char) (rest : List Char) (offset : Nat) :
    cut (c :: rest) (c.utf8Size + offset) = (cut rest offset).map (c :: ·) := by
  have positive := c.utf8Size_pos
  obtain ⟨before, size⟩ : ∃ before, c.utf8Size + offset = before + 1 :=
    ⟨c.utf8Size + offset - 1, by omega⟩
  rw [size, cut, ← size, if_pos (Nat.le_add_right _ _), Nat.add_sub_cancel_left]
  exact nofun

/-- A comment is cut off where it starts, which is between two characters. -/
theorem gives_code (line : List Char) : Gives (code line) (· = HexText.code line) := by
  rw [HexText.code_eq_uncommented]
  induction line with
  | nil => exact .some rfl
  | cons c rest ih =>
    rw [HexText.uncommented_cons]
    split
    · rename_i opens
      rw [code, codeBytes_of_opensComment opens, cut]
      exact .some rfl
    · rename_i plain
      have behind : cut rest (codeBytes rest) = some (HexText.uncommented rest) := ih.eq
      rw [code, codeBytes_cons (Bool.eq_false_iff.mpr plain), cut_cons, behind]
      exact .some rfl

/-- What has become of a load behind some tokens: those that follow go on from where it is now,
unless there has been a defect. -/
structure Stored (image : Image) (state : Loading) (tokens : List HexText.Token)
    (ended : Option HexText.Defect × Loading) (left : Image) : Prop where
  words : ended.2.words = left.words
  depth : left.depth = image.depth
  bound : ended.2.stored.toNat ≤ state.stored.toNat + tokens.length
  goesOn : ∀ rest,
    HexText.store (tokens ++ rest) state.cursor.toNat state.stored.toNat image =
      match ended.1 with
      | none => HexText.store rest ended.2.cursor.toNat ended.2.stored.toNat left
      | some defect => (.error defect, left)

variable {state middle : Loading} {first second : List HexText.Token}
  {ended : Option HexText.Defect × Loading} {left final : Image}

theorem Stored.nil (same : state.words = image.words) :
    Stored image state [] (none, state) image :=
  ⟨same, rfl, Nat.le_refl _, fun _ => rfl⟩

theorem Stored.append (front : Stored image state first (none, middle) left)
    (back : Stored left middle second ended final) :
    Stored image state (first ++ second) ended final := by
  refine ⟨back.words, back.depth.trans front.depth, ?_, fun rest => ?_⟩
  · have one : middle.stored.toNat ≤ state.stored.toNat + first.length := front.bound
    have two := back.bound
    rw [List.length_append]
    omega
  · rw [List.append_assoc, front.goesOn]
    exact back.goesOn rest

theorem Stored.append_of_defect {defect : HexText.Defect}
    (front : Stored image state first (some defect, middle) left) (second : List HexText.Token) :
    Stored image state (first ++ second) (some defect, middle) left := by
  refine ⟨front.words, front.depth, ?_, fun rest => ?_⟩
  · have bound : middle.stored.toNat ≤ state.stored.toNat + first.length := front.bound
    rw [List.length_append]
    show middle.stored.toNat ≤ _
    omega
  · rw [List.append_assoc]
    exact front.goesOn _

theorem Stored.defect {token : HexText.Token} {defect : HexText.Defect}
    (same : state.words = image.words)
    (ends : ∀ rest, HexText.store (token :: rest) state.cursor.toNat state.stored.toNat image =
      (.error defect, image)) :
    Stored image state [token] (some defect, state) image :=
  ⟨same, rfl, Nat.le_add_right _ _, ends⟩

theorem gives_storeToken {depth : UInt64} (line : UInt64) (text : List Char)
    (same : state.words = image.words) (known : depth.toNat = image.depth)
    (room : state.stored.toNat + 1 < UInt64.size) :
    Gives (storeToken depth line text state) fun ended =>
      ∃ left, Stored image state [⟨line.toNat, text⟩] ended left := by
  unfold storeToken
  split
  · rename_i digits
    cases named : HexText.value? digits with
    | none => exact .some ⟨image, .defect same fun rest => by rw [HexText.store, named]⟩
    | some address =>
      refine .some ⟨image, same, rfl, Nat.le_add_right _ _, fun rest => ?_⟩
      rw [List.singleton_append, HexText.store, named]
  · rename_i word
    cases value : HexText.word? text with
    | none =>
      refine .some ⟨image, .defect same fun rest => ?_⟩
      rw [HexText.store, value]
      exact word
    | some value' =>
      dsimp only
      split
      · rename_i below
        have inside : state.cursor.toNat < image.depth := by
          rwa [UInt64.lt_iff_toNat_lt, known] at below
        -- The depth is a word itself, so the cursor can be moved up to it.
        have more : state.cursor.toNat + 1 < UInt64.size := by
          have := depth.toNat_lt_size
          omega
        rw [same]
        refine (gives_set inside value').bind fun words words_eq => ?_
        refine (gives_add (b := 1) more).bind fun cursor cursor_eq => ?_
        refine (gives_add (b := 1) room).bind fun stored stored_eq => .some ?_
        refine ⟨_, words_eq, Image.depth_write .., stored_eq.le, fun rest => ?_⟩
        rw [List.singleton_append, HexText.store, value]
        · simp only [inside, if_true, cursor_eq, stored_eq]
          rfl
        · exact word
      · rename_i above
        have outside : ¬state.cursor.toNat < image.depth := by
          rwa [UInt64.lt_iff_toNat_lt, known] at above
        refine .some ⟨image, .defect same fun rest => ?_⟩
        rw [HexText.store, value]
        · simp only [outside, if_false, known]
        · exact word

theorem gives_storeWords {depth : UInt64} (line : UInt64) (texts : List (List Char))
    (same : state.words = image.words) (known : depth.toNat = image.depth)
    (room : state.stored.toNat + texts.length < UInt64.size) :
    Gives (storeWords depth line texts state) fun ended =>
      ∃ left, Stored image state (texts.map (⟨line.toNat, ·⟩)) ended left := by
  induction texts generalizing state image with
  | nil => exact .some ⟨image, .nil same⟩
  | cons text rest ih =>
    rw [List.length_cons] at room
    refine (gives_storeToken line text same known (by omega)).bind
      fun (defect, middle) ⟨left, first⟩ => ?_
    cases defect with
    | some defect => exact .some ⟨left, first.append_of_defect _⟩
    | none =>
      have same : middle.words = left.words := first.words
      have bound : middle.stored.toNat ≤ state.stored.toNat + 1 := first.bound
      obtain ⟨ended, run, final, others⟩ := ih same (known.trans first.depth.symm) (by omega)
      exact ⟨ended, run, final, first.append others⟩

theorem gives_storeLines {depth : UInt64} (lines : List (List Char)) (index : UInt64)
    (same : state.words = image.words) (known : depth.toNat = image.depth)
    (counts : index.toNat + lines.length < UInt64.size)
    (room : state.stored.toNat + (HexText.numbered (index.toNat + 1) lines).length < UInt64.size) :
    Gives (storeLines depth lines index state) fun ended =>
      ∃ left, Stored image state (HexText.numbered (index.toNat + 1) lines) ended left := by
  induction lines generalizing index state image with
  | nil => exact .some ⟨image, .nil same⟩
  | cons line rest ih =>
    rw [List.length_cons] at counts
    rw [HexText.numbered_cons, ← HexText.code_eq_uncommented, List.length_append,
      List.length_map] at room
    rw [HexText.numbered_cons, ← HexText.code_eq_uncommented]
    have next : index.toNat + 1 < UInt64.size := by omega
    refine (gives_add (b := 1) next).bind
      fun number (number_eq : number.toNat = index.toNat + 1) => ?_
    refine (gives_code line).bind fun code code_eq => ?_
    rw [← number_eq] at room ⊢
    rw [code_eq]
    refine (gives_storeWords number _ same known (by omega)).bind
      fun (defect, middle) ⟨left, first⟩ => ?_
    cases defect with
    | some defect => exact .some ⟨left, first.append_of_defect _⟩
    | none =>
      have same : middle.words = left.words := first.words
      have bound : middle.stored.toNat ≤ _ := first.bound
      rw [List.length_map] at bound
      obtain ⟨ended, run, final, others⟩ :=
        ih number same (known.trans first.depth.symm) (by omega) (by omega)
      exact ⟨ended, run, final, first.append others⟩

theorem gives_parseHex (held : image.byteLength < UInt64.size) {text : String}
    (fits : text.utf8ByteSize + 1 < UInt64.size) :
    Gives (parseHex text image.words) (· =
      ((image.parseHex text).1, (image.parseHex text).2.words)) := by
  have characters := Text.length_le_utf8ByteSize text
  have counts : (Text.lines text.toList).length < UInt64.size := by
    have := List.count_le_length (a := '\n') (l := text.toList)
    rw [Text.length_lines]
    omega
  have room : (HexText.numbered 1 (Text.lines text.toList)).length < UInt64.size := by
    have : (HexText.numbered 1 (Text.lines text.toList)).length ≤ text.toList.length :=
      HexText.length_tokens_le text.toList
    omega
  refine (gives_size held).bind fun depth known => ?_
  have fresh : (Loading.mk 0 0 image.words).words = image.words := rfl
  refine (gives_storeLines (Text.lines text.toList) 0 fresh known (by simpa using counts)
    (by simpa using room)).bind fun (defect, ended) ⟨left, stored⟩ => ?_
  have whole := stored.goesOn []
  rw [List.append_nil] at whole
  have parsed : image.parseHex text = _ := whole
  cases defect with
  | none =>
    refine .some ?_
    rw [parsed, stored.words]
    rfl
  | some defect =>
    refine .some ?_
    rw [parsed, stored.words]

end Trapping

end Testbench
