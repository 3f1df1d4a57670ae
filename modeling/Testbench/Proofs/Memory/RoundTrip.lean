import Testbench.Proofs.Dump.Range
import Testbench.Proofs.HexText.Rendering

/-! From a hex text to the bytes of a dump and back. A text without directives fills memory from
the first word on, whatever was there before, and a dump of the whole memory holds these words. -/
namespace Testbench

namespace HexText

variable {start depth : Nat} {tokens : List (List Char)}

theorem places_iff_of_words (words : ∀ token ∈ tokens, isWord token = true)
    (position address : Nat) :
    Places start tokens position address ↔
      position < tokens.length ∧ address = start + position := by
  have counted : tokens.length ≥ position → (tokens.take position).length = position :=
    List.length_take_of_le
  constructor
  · rintro ⟨token, here, -, ⟨-, rfl⟩ | ⟨earlier, digits, later, base, split, -⟩⟩
    · have inside := (List.getElem?_eq_some_iff.mp here).1
      exact ⟨inside, by rw [counted (Nat.le_of_lt inside)]⟩
    · have directive : '@' :: digits ∈ tokens.take position := by rw [split]; simp
      exact absurd (words _ (List.mem_of_mem_take directive)) (by simp [isWord])
  · rintro ⟨inside, rfl⟩
    refine ⟨tokens[position], List.getElem?_eq_getElem inside, words _ (List.getElem_mem inside),
      .inl ⟨?_, by rw [counted (Nat.le_of_lt inside)]⟩⟩
    exact List.all_eq_true.mpr fun token here => words token (List.mem_of_mem_take here)

theorem accepts_of_words (words : ∀ token ∈ tokens, isWord token = true)
    (named : ∀ token ∈ tokens, ∃ value, Denotes token value ∧ value < 2 ^ 32)
    (room : start + tokens.length ≤ depth) : Accepts start depth tokens where
  directives digits here := absurd (words _ here) (by simp [isWord])
  words token here _ := named token here
  targets position address placed := by
    obtain ⟨inside, rfl⟩ := (places_iff_of_words words position address).mp placed
    omega

theorem Renders.exists_spells {words : List UInt32} {text : List Char}
    (renders : Renders words text) : ∀ token ∈ tokenTexts text, ∃ word, Spells token word := by
  intro token here
  obtain ⟨i, inside, rfl⟩ := List.getElem_of_mem here
  exact ⟨_, renders.spelled.get inside (renders.spelled.length_eq ▸ inside)⟩

theorem Renders.parseHex {words : List UInt32} {text : String}
    (renders : Renders words text.toList) {image : Image} (fits : image.depth = words.length) :
    (image.parseHex text).1 = .ok words.length ∧ (image.parseHex text).2.depth = words.length ∧
      ∀ i (inside : i < words.length), (image.parseHex text).2.read i = words[i] := by
  have spelled := renders.spelled
  have size : (tokenTexts text.toList).length = words.length := spelled.length_eq
  have word : ∀ token ∈ tokenTexts text.toList, isWord token = true := by
    intro token here
    obtain ⟨_, spells⟩ := renders.exists_spells token here
    exact spells.isWord
  have named : ∀ token ∈ tokenTexts text.toList, ∃ value, Denotes token value ∧ value < 2 ^ 32 := by
    intro token here
    obtain ⟨_, spells⟩ := renders.exists_spells token here
    exact ⟨_, spells.denotes, UInt32.toNat_lt _⟩
  have accepts : Accepts 0 image.depth (tokenTexts text.toList) :=
    accepts_of_words word named (by omega)
  have stored := store_ok_iff (tokens text.toList) 0 0 image words.length
  have wins := lastWins_store (tokens text.toList) 0 0 image
  rw [map_text_tokens] at stored wins
  refine ⟨stored.mpr ⟨accepts, ?_⟩, ?_, ?_⟩
  · rw [Nat.zero_add, List.countP_eq_length.mpr word, size]
  · rw [← fits]
    exact depth_store _ _ _ _
  · intro i inside
    have here : i < (tokenTexts text.toList).length := size ▸ inside
    have place (position address : Nat) :
        Places 0 (tokenTexts text.toList) position address ↔
          position < (tokenTexts text.toList).length ∧ address = 0 + position :=
      places_iff_of_words word position address
    obtain ⟨last, -⟩ := wins accepts i (fits ▸ inside)
    have read := last i _ (List.getElem?_eq_getElem here)
      ((place i i).mpr ⟨here, (Nat.zero_add i).symm⟩)
      (fun later after placed => by
        have := ((place later i).mp placed).2
        omega)
    exact UInt32.toNat_inj.mp (read.unique (spelled.get here inside).denotes)

end HexText

variable {σ : Type} [Sink σ] {accepts : σ → Prop} {contents : σ → ByteArray}

open HexText in
/-- Words come back from memory whichever way they were written down. -/
theorem Image.dumpTo_parseHex_of_renders (reliable : Sink.Reliable accepts contents)
    (words : List UInt32) (text : String) (renders : Renders words text.toList) (image : Image)
    (fits : image.depth = words.length) (length : UInt64)
    (whole : length.toNat = 4 * words.length) (sink : σ) (ready : accepts sink) :
    let parsed := image.parseHex text
    parsed.1 = .ok words.length ∧
      ∃ report after events bytes, parsed.2.dumpTo 0 length sink = (report, after, events) ∧
        contents after = contents sink ++ bytes.toByteArray ∧
        bytes.length = 4 * words.length ∧ Dump.decode? bytes = some words ∧
        report.status = .complete ∧ report.truncated = false ∧
        report.bytesWritten = 4 * words.length := by
  intro parsed
  obtain ⟨stored, depth, read⟩ := renders.parseHex fits
  obtain ⟨after, dumped, -, grown⟩ := parsed.2.dumpTo_reliable reliable 0 length ready
  have bound := length.toNat_lt
  have all : Dump.addresses parsed.2.depth 0 length.toNat = List.range' 0 words.length := by
    have stop : min (min (0 + length.toNat) (2 ^ 64 - 1) / 4) words.length = words.length := by
      omega
    rw [Dump.addresses, depth, stop]
    rfl
  have selected : (List.range' 0 words.length).map parsed.2.read = words := by
    apply List.ext_getElem (by simp)
    intro i _ inside
    rw [List.getElem_map, List.getElem_range', Nat.zero_add, Nat.one_mul]
    exact read i inside
  rw [show (0 : UInt64).toNat = 0 from rfl, all] at dumped grown
  rw [selected] at grown
  refine ⟨stored, _, after, _, _, dumped, grown, Dump.length_flatMap_littleEndian words,
    Dump.decode?_littleEndian words, rfl, ?_, ?_⟩
  · show decide (parsed.2.byteLength < min (0 + length.toNat) (2 ^ 64 - 1)) = false
    rw [decide_eq_false_iff_not, Image.byteLength, depth, Image.wordBytes]
    omega
  · show (List.range' 0 words.length).length * 4 = 4 * words.length
    rw [List.length_range', Nat.mul_comm]

open HexText in
theorem Image.dumpTo_parseHex_of_commented_words :
    let text := "#a\n0X_1_aB//b\r\n\t07"
    let image : Image := ⟨#[5, 6], by decide⟩
    let sink := Device.accepting
    Renders [0x1AB, 7] text.toList ∧ image.depth = 2 ∧ (8 : UInt64).toNat = 4 * 2 ∧
      (sink.room = none ∧ sink.refusesFlush = false) ∧ (image.parseHex text).1 = .ok 2 ∧
      ∃ report after events bytes,
        (image.parseHex text).2.dumpTo 0 8 sink = (report, after, events) ∧
        after.contents = sink.contents ++ bytes.toByteArray ∧
        Dump.decode? bytes = some [0x1AB, 7] ∧ report.bytesWritten = 8 := by
  intro text image sink
  have marked : Spells ['0', 'X', '_', '1', '_', 'a', 'B'] 0x1AB :=
    ⟨['0', 'X'], ['_', '1', '_', 'a', 'B'], rfl, .inr (.inr rfl), by decide,
      (Text.ofDigits?_eq_some_iff (by decide) _ _).mp (by rfl)⟩
  have bare : Spells ['0', '7'] 7 :=
    ⟨[], ['0', '7'], rfl, .inl rfl, by decide,
      (Text.ofDigits?_eq_some_iff (by decide) _ _).mp (by rfl)⟩
  have lead : Gap (['#'] ++ ['a'] ++ '\n' :: []) := .comment (.inl rfl) (by decide) .nil
  have between : Gap (['/', '/'] ++ ['b', '\r'] ++ '\n' :: ['\t']) :=
    .comment (.inr rfl) (by decide) (.blank (by decide) .nil)
  have renders : Renders [0x1AB, 7] text.toList := by
    have joined : text.toList = ['#'] ++ ['a'] ++ '\n' :: [] ++
        (['0', 'X', '_', '1', '_', 'a', 'B'] ++ (['/', '/'] ++ ['b', '\r'] ++ '\n' :: ['\t']) ++
          (['0', '7'] ++ [])) := by decide
    rw [joined]
    exact .lead lead (.word marked between (by decide) (.last bare .nil))
  obtain ⟨stored, report, after, events, bytes, dumped, grown, -, decoded, -, -, written⟩ :=
    Image.dumpTo_parseHex_of_renders Device.reliable_of_unlimited [0x1AB, 7] text renders image rfl
      8 rfl sink ⟨rfl, rfl⟩
  exact ⟨renders, rfl, rfl, ⟨rfl, rfl⟩, stored, report, after, events, bytes, dumped, grown,
    decoded, written⟩

end Testbench
