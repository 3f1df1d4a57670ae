import Testbench.Proofs.HexText.Placement
import Testbench.Proofs.Memory.Load
import Mathlib.Data.Nat.Find

/-! Hex texts that leave nothing of a memory as it was. -/
namespace Testbench

theorem Image.ext_read {one two : Image} (depth : one.depth = two.depth)
    (read : ∀ address < one.depth, one.read address = two.read address) : one = two := by
  obtain ⟨words, size_pos⟩ := one
  obtain ⟨others, _⟩ := two
  have same : words = others := by
    apply Array.ext depth
    intro address inside inside'
    have word := read address inside
    simp only [Image.read, Nat.mod_eq_of_lt inside, Nat.mod_eq_of_lt inside'] at word
    exact word
  subst same
  rfl

namespace HexText

/-- The text is accepted, and at least one of its words goes to each address. -/
structure Covers (depth : Nat) (text : String) : Prop where
  accepts : Accepts 0 depth (tokenTexts text.toList)
  everywhere : ∀ address < depth, ∃ position, Places 0 (tokenTexts text.toList) position address

theorem exists_last {tokens : List (List Char)} {position address : Nat}
    (placed : Places 0 tokens position address) :
    ∃ last token, tokens[last]? = some token ∧ Places 0 tokens last address ∧
      ∀ later > last, ¬Places 0 tokens later address := by
  classical
  have bounded {position : Nat} (placed : Places 0 tokens position address) :
      position ≤ tokens.length := by
    obtain ⟨token, here, -⟩ := placed
    exact Nat.le_of_lt (List.getElem?_eq_some_iff.mp here).1
  let goesThere (position : Nat) : Prop := Places 0 tokens position address
  let last := Nat.findGreatest goesThere tokens.length
  have stands : goesThere last := Nat.findGreatest_spec (bounded placed) placed
  obtain ⟨token, here, _⟩ := id stands
  refine ⟨last, token, here, stands, fun later behind placed => ?_⟩
  exact Nat.findGreatest_is_greatest behind (bounded placed) placed

/-- What a covering text leaves in memory does not depend on what was there. -/
theorem Covers.parseHex {text : String} {image other : Image} (covers : Covers image.depth text)
    (depth : other.depth = image.depth) :
    ∃ count filled, image.parseHex text = (.ok count, filled) ∧
      other.parseHex text = (.ok count, filled) := by
  let count := (tokenTexts text.toList).countP isWord
  have stored (memory : Image) (same : memory.depth = image.depth) :
      (memory.parseHex text).1 = .ok count := by
    apply (store_ok_iff (tokens text.toList) 0 0 memory count).mpr
    rw [map_text_tokens, same, Nat.zero_add]
    exact ⟨covers.accepts, rfl⟩
  have wins (memory : Image) (same : memory.depth = image.depth) :
      LastWins 0 (tokenTexts text.toList) memory (memory.parseHex text).2 := by
    have law := lastWins_store (tokens text.toList) 0 0 memory
    rw [map_text_tokens, same] at law
    exact law covers.accepts
  have filled : (other.parseHex text).2 = (image.parseHex text).2 := by
    apply Image.ext_read
    · rw [Image.depth_parseHex, Image.depth_parseHex, depth]
    · intro address inside
      rw [Image.depth_parseHex, depth] at inside
      obtain ⟨_, placed⟩ := covers.everywhere address inside
      obtain ⟨last, token, here, stands, latest⟩ := exists_last placed
      have word := (wins image rfl address inside).1 last token here stands latest
      have word' := (wins other depth address (depth ▸ inside)).1 last token here stands latest
      exact UInt32.toNat_inj.mp (word'.unique word)
  exact ⟨count, (image.parseHex text).2, Prod.ext (stored image rfl) rfl,
    Prod.ext (stored other depth) filled⟩

end HexText

end Testbench
