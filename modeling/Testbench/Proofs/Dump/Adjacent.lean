import Testbench.Proofs.Dump.Range
import Testbench.Sink.Device

/-! Dumps of adjacent byte ranges. Both round the offset where they meet down to the same word: the
first one stops before it and the second one starts with it, so the two put together are the dump
of the whole range. Past the end of the image, and where sums of offsets saturate, both sides lose
the same words. -/
namespace Testbench

open Dump

theorem Dump.addresses_append (depth : Nat) {start first : Nat} (second : Nat)
    (fits : start + first < 2 ^ 64) :
    addresses depth start (first + second) =
      addresses depth start first ++ addresses depth (start + first) second := by
  have seam : min (start + first) (2 ^ 64 - 1) = start + first := by omega
  simp only [addresses, seam, ← Nat.add_assoc]
  have begins : start / 4 ≤ (start + first) / 4 := by omega
  have ends : (start + first) / 4 ≤ min (start + first + second) (2 ^ 64 - 1) / 4 := by omega
  generalize start / 4 = low, (start + first) / 4 = middle,
    min (start + first + second) (2 ^ 64 - 1) / 4 = high at begins ends ⊢
  rcases Nat.le_total middle depth with inside | outside
  · -- The second part starts where the first one stops.
    have joined : low + (middle - low) = middle := by omega
    have length : min high depth - low = middle - low + (min high depth - middle) := by omega
    rw [Nat.min_eq_left inside, length, ← List.range'_append_1, joined]
  · -- The second part is empty, and the first one stops at the end of the image like the whole.
    rw [Nat.min_eq_right outside, Nat.min_eq_right (Nat.le_trans outside ends),
      Nat.sub_eq_zero_of_le outside, List.range'_zero, List.append_nil]

/-- What a dump comes to on sinks that take everything: its report and the bytes it adds. -/
def Image.Dumps (image : Image) (start length : UInt64) (report : Report) (bytes : List UInt8) :
    Prop :=
  ∀ (σ : Type) [Sink σ] (accepts : σ → Prop) (contents : σ → ByteArray),
    Sink.Reliable accepts contents → ∀ sink, accepts sink →
      (image.dumpTo start length sink).1 = report ∧
        accepts (image.dumpTo start length sink).2.1 ∧
        contents (image.dumpTo start length sink).2.1 = contents sink ++ bytes.toByteArray

theorem Image.dumps_selected (image : Image) (start length : UInt64)
    {selected : List Nat} (selects : addresses image.depth start.toNat length.toNat = selected) :
    image.Dumps start length ((Range.of image start length).report selected.length .complete)
      ((selected.map image.read).flatMap littleEndian) := by
  intro σ _ accepts contents reliable sink ready
  obtain ⟨after, dumped, done, grown⟩ := image.dumpTo_reliable reliable start length ready
  rw [dumped, ← selects]
  exact ⟨rfl, done, grown⟩

/-- A range of bytes dumped in two parts, wherever it is parted, gives what the dump of the whole
range gives: the same bytes, so many words requested and written, and cut if the second part is. -/
theorem Image.dumps_append (image : Image) (start first second : UInt64)
    (fits : start.toNat + first.toNat < 2 ^ 64) (sums : first.toNat + second.toNat < 2 ^ 64) :
    ∃ one two whole bytes more,
      image.Dumps start first one bytes ∧ image.Dumps (start + first) second two more ∧
      image.Dumps start (first + second) whole (bytes ++ more) ∧
      bytes.length = 4 * one.writtenWords ∧ more.length = 4 * two.writtenWords ∧
      whole.requestedWords = one.requestedWords + two.requestedWords ∧
      whole.writtenWords = one.writtenWords + two.writtenWords ∧
      whole.truncated = two.truncated := by
  have seam : (start + first).toNat = start.toNat + first.toNat := by
    rw [UInt64.toNat_add, Nat.mod_eq_of_lt fits]
  have length : (first + second).toNat = first.toNat + second.toNat := by
    rw [UInt64.toNat_add, Nat.mod_eq_of_lt sums]
  have words := addresses_append image.depth second.toNat fits
  rw [← length, ← seam] at words
  have whole := image.dumps_selected start (first + second) words
  rw [List.map_append, List.flatMap_append] at whole
  refine ⟨_, _, _, _, _, image.dumps_selected start first rfl,
    image.dumps_selected (start + first) second rfl, whole, ?_, ?_, ?_, ?_, ?_⟩
  · rw [length_flatMap_littleEndian, List.length_map]
    rfl
  · rw [length_flatMap_littleEndian, List.length_map]
    rfl
  · simp only [Range.report, Range.of, seam, length, lastOffset, Image.wordBytes, UInt64.size]
    omega
  · exact List.length_append
  · simp only [Range.report, Range.of, seam, length, Nat.add_assoc]

/-- A word and the rest of three words, parted inside the second one, where the length of the whole
runs into the last offset. -/
theorem Image.dumps_append_of_saturated_tail :
    let image : Image := ⟨#[1, 2, 3], by decide⟩
    let rest : UInt64 := 0xFFFFFFFFFFFFFFFA
    let one := image.dumpTo 2 5 Device.accepting
    let two := image.dumpTo (2 + 5) rest Device.accepting
    let whole := image.dumpTo 2 (5 + rest) Device.accepting
    (2 : UInt64).toNat + (5 : UInt64).toNat < 2 ^ 64 ∧ (5 : UInt64).toNat + rest.toNat < 2 ^ 64 ∧
      whole.2.1.contents = one.2.1.contents ++ two.2.1.contents ∧
      (one.1.writtenWords = 1 ∧ two.1.writtenWords = 2 ∧ whole.1.writtenWords = 3) ∧
      whole.1.requestedWords = one.1.requestedWords + two.1.requestedWords ∧
      whole.1.truncated = true := by
  intro image rest one two whole
  have fits : (2 : UInt64).toNat + (5 : UInt64).toNat < 2 ^ 64 := by decide
  have sums : (5 : UInt64).toNat + rest.toNat < 2 ^ 64 := by decide
  have first : one.1.writtenWords = 1 := by decide
  have second : two.1.writtenWords = 2 ∧ two.1.truncated = true := by decide
  obtain ⟨_, _, _, bytes, more, front, back, both, -, -, requested, written, truncated⟩ :=
    Image.dumps_append image 2 5 rest fits sums
  have reliable := Device.reliable_of_unlimited
  obtain ⟨rfl, -, grown⟩ := front _ _ _ reliable Device.accepting ⟨rfl, rfl⟩
  obtain ⟨rfl, -, grown'⟩ := back _ _ _ reliable Device.accepting ⟨rfl, rfl⟩
  obtain ⟨rfl, -, grown''⟩ := both _ _ _ reliable Device.accepting ⟨rfl, rfl⟩
  have start : Device.accepting.contents = ByteArray.empty := rfl
  rw [start, ByteArray.empty_append] at grown grown' grown''
  refine ⟨fits, sums, ?_, ⟨first, second.1, ?_⟩, requested, truncated.trans second.2⟩
  · rw [show one.2.1.contents = _ from grown, show two.2.1.contents = _ from grown',
      ← List.toByteArray_append]
    exact grown''
  · exact written.trans (congrArg₂ (· + ·) first second.1)

end Testbench
