import Testbench.Memory.Dump
import Testbench.Proofs.Sink.Faithful
import Mathlib.Algebra.Group.Nat.Defs
import Mathlib.Data.List.Nodup
import Mathlib.Data.Nat.Digits.Defs

/-! The words a dump selects. A range of bytes is served in whole words of the image: it
starts early with the word of its first byte, ends with the last word that ends in it, and
never goes past the image. Sums of offsets saturate, which no image is large enough to show. -/
namespace Testbench

namespace Dump

def littleEndian (word : UInt32) : List UInt8 :=
  (List.range 4).map fun i => UInt8.ofNat (word.toNat / 256 ^ i)

/-- The addresses, in order, of the words from the one with the first byte of a range up to
the last one that ends in it, as far as there are any. -/
def addresses (depth start length : Nat) : List Nat :=
  let stop := min (min (start + length) (2 ^ 64 - 1) / 4) depth
  List.range' (start / 4) (stop - start / 4)

def decode? : List UInt8 → Option (List UInt32)
  | [] => some []
  | a :: b :: c :: d :: rest =>
    (decode? rest).map (UInt32.ofNat (Nat.ofDigits 256 [a.toNat, b.toNat, c.toNat, d.toNat]) :: ·)
  | _ => none

theorem wordBytes_eq (word : UInt32) : wordBytes word = (littleEndian word).toByteArray := by
  have low (w : UInt32) (n : Nat) (h : w.toNat = n) : w.toUInt8 = UInt8.ofNat n := by
    rw [← UInt8.toNat_inj, UInt32.toNat_toUInt8, h]
    rfl
  apply ByteArray.ext
  rw [List.data_toByteArray, wordBytes]
  simp only [littleEndian, List.range_succ, List.range_zero, List.nil_append, List.cons_append,
    List.map_cons, List.map_nil]
  rw [low word (word.toNat / 256 ^ 0) (Nat.div_one _).symm,
    low (word >>> 8) (word.toNat / 256 ^ 1), low (word >>> 16) (word.toNat / 256 ^ 2),
    low (word >>> 24) (word.toNat / 256 ^ 3)]
  all_goals
    rw [UInt32.toNat_shiftRight, Nat.shiftRight_eq_div_pow]
    rfl

theorem ofDigits_littleEndian (word : UInt32) :
    Nat.ofDigits 256 ((littleEndian word).map UInt8.toNat) = word.toNat := by
  have bound := word.toNat_lt
  simp only [littleEndian, List.range_succ, List.range_zero, List.nil_append, List.cons_append,
    List.map_cons, List.map_nil, UInt8.toNat_ofNat', Nat.ofDigits_cons, Nat.ofDigits_nil]
  omega

theorem decode?_littleEndian (words : List UInt32) :
    decode? (words.flatMap littleEndian) = some words := by
  induction words with
  | nil => rfl
  | cons word rest ih =>
    have first : UInt32.ofNat (Nat.ofDigits 256 ((littleEndian word).map UInt8.toNat)) = word := by
      rw [ofDigits_littleEndian, UInt32.ofNat_toNat]
    have step : decode? (littleEndian word ++ rest.flatMap littleEndian) =
        (decode? (rest.flatMap littleEndian)).map
          (UInt32.ofNat (Nat.ofDigits 256 ((littleEndian word).map UInt8.toNat)) :: ·) := rfl
    rw [List.flatMap_cons, step, ih, first]
    rfl

theorem length_flatMap_littleEndian (words : List UInt32) :
    (words.flatMap littleEndian).length = 4 * words.length := by
  rw [List.length_flatMap]
  simp [littleEndian, Nat.mul_comm]

theorem mem_addresses_iff (depth start length address : Nat) :
    address ∈ addresses depth start length ↔
      start / 4 ≤ address ∧ address < min (start + length) (2 ^ 64 - 1) / 4 ∧ address < depth := by
  unfold addresses
  rw [List.mem_range'_1]
  omega

theorem nodup_addresses (depth start length : Nat) : (addresses depth start length).Nodup :=
  List.nodup_range'

theorem length_addresses (depth start length : Nat) :
    (addresses depth start length).length =
      min (min (start + length) (2 ^ 64 - 1) / 4) depth - start / 4 :=
  List.length_range'

theorem slice_eq_map_read (image : Image) (first stop : Nat) (inside : stop ≤ image.depth) :
    image.slice first stop = (List.range' first (stop - first)).map image.read := by
  unfold Image.depth at inside
  apply List.ext_getElem
  · simp [Image.slice]
    omega
  · intro i taken _
    simp only [Image.slice, Array.length_toList, Array.size_extract] at taken
    have bound : first + i < image.words.size := by omega
    simp [Image.slice, Image.read, Nat.mod_eq_of_lt bound]

/-- Behind the end of the image the clamped range is empty, wherever it is put. -/
theorem slice_range_eq (image : Image) (start length : UInt64) :
    image.slice (Range.of image start length).first (Range.of image start length).stop =
      (addresses image.depth start.toNat length.toNat).map image.read := by
  rw [slice_eq_map_read image _ _ (Range.stop_le_depth image start length)]
  simp only [Range.of, addresses, lastOffset, Image.wordBytes]
  generalize min (min (start.toNat + length.toNat) (2 ^ 64 - 1) / 4) image.depth = stop
  rcases Nat.le_total (start.toNat / 4) stop with before | behind
  · rw [Nat.min_eq_left before]
  · -- Only here does the clamp move the start, and both sides are empty.
    rw [Nat.min_eq_right behind, Nat.sub_self, Nat.sub_eq_zero_of_le behind]
    rfl

variable {σ : Type} [Sink σ] {accepts : σ → Prop} {contents : σ → ByteArray}

theorem putWord_reliable (reliable : Sink.Reliable accepts contents) (word : UInt32) {sink : σ}
    (ready : accepts sink) :
    ∃ after, putWord word sink = (.ok (), after) ∧ accepts after ∧
      contents after = contents sink ++ (littleEndian word).toByteArray := by
  obtain ⟨middle, written, still, grown⟩ := reliable.write (wordBytes word) sink ready
  obtain ⟨after, flushed, done, same⟩ := reliable.flush middle still
  refine ⟨after, ?_, done, ?_⟩
  · rw [putWord, Sink.put, written]
    exact flushed
  · rw [same, grown, wordBytes_eq]

theorem putWords_reliable (reliable : Sink.Reliable accepts contents) (words : List UInt32)
    (written : Nat) {sink : σ} (ready : accepts sink) :
    ∃ after, putWords words written sink = (written + words.length, none, after) ∧
      accepts after ∧
      contents after = contents sink ++ (words.flatMap littleEndian).toByteArray := by
  induction words generalizing written sink with
  | nil => exact ⟨sink, rfl, ready, by simp⟩
  | cons word rest ih =>
    obtain ⟨middle, first, still, grown⟩ := putWord_reliable reliable word ready
    obtain ⟨after, others, done, all⟩ := ih (written + 1) still
    refine ⟨after, ?_, done, ?_⟩
    · rw [putWords, first]
      dsimp only
      rw [others, List.length_cons, Nat.add_assoc, Nat.add_comm 1]
    · rw [all, grown, List.flatMap_cons, List.toByteArray_append, ByteArray.append_assoc]

variable {invariant : σ → Prop}

end Dump

open Dump

variable {σ : Type} [Sink σ] {accepts : σ → Prop} {contents : σ → ByteArray}

theorem Image.dumpTo_reliable (reliable : Sink.Reliable accepts contents) (image : Image)
    (start length : UInt64) {sink : σ} (ready : accepts sink) :
    let range := Range.of image start length
    let selected := addresses image.depth start.toNat length.toNat
    ∃ after,
      image.dumpTo start length sink =
        (range.report selected.length .complete, after, [range.event image length]) ∧
      accepts after ∧
      contents after =
        contents sink ++ ((selected.map image.read).flatMap littleEndian).toByteArray := by
  intro range selected
  obtain ⟨after, written, done, grown⟩ :=
    putWords_reliable reliable (selected.map image.read) 0 ready
  refine ⟨after, ?_, done, grown⟩
  rw [Image.dumpTo, slice_range_eq, written, Nat.zero_add, List.length_map]

/-- A dump writes every word that lies in the range and the image, once and in order, and no
part of a word; the one word it may begin with early is that of an unaligned start. -/
theorem Image.dumpTo_writes_whole_words (reliable : Sink.Reliable accepts contents)
    (image : Image) (fits : 4 * image.depth < 2 ^ 63) (start length : UInt64) (sink : σ)
    (ready : accepts sink) :
    let first := start.toNat / 4
    let stopByte := min (start.toNat + length.toNat) (2 ^ 64 - 1)
    let selected := List.range' first (min (stopByte / 4) image.depth - first)
    ∃ report after events, image.dumpTo start length sink = (report, after, events) ∧
      contents after =
        contents sink ++ ((selected.map image.read).flatMap littleEndian).toByteArray ∧
      report.status = .complete ∧
      report.writtenWords = selected.length ∧
      report.requestedWords = stopByte / 4 - first ∧
      (report.truncated = true ↔ 4 * image.depth < start.toNat + length.toNat) ∧
      (∀ address < image.depth, start.toNat ≤ 4 * address →
        4 * address + 4 ≤ start.toNat + length.toNat → selected.count address = 1) ∧
      (∀ address ∈ selected, address < image.depth ∧
        4 * address + 4 ≤ start.toNat + length.toNat ∧
        (start.toNat ≤ 4 * address ∨ address = first ∧ start.toNat % 4 ≠ 0)) ∧
      report.writtenWords ≤ report.requestedWords ∧
      (report.writtenWords < report.requestedWords → report.truncated = true) := by
  intro first stopByte selected
  obtain ⟨after, dumped, -, grown⟩ := Image.dumpTo_reliable reliable image start length ready
  have mem := mem_addresses_iff image.depth start.toNat length.toNat
  have written := length_addresses image.depth start.toNat length.toNat
  have truncated : decide (image.byteLength < stopByte) = true ↔
      4 * image.depth < start.toNat + length.toNat := by
    rw [decide_eq_true_iff, Image.byteLength, Image.wordBytes]
    omega
  refine ⟨_, after, _, dumped, grown, rfl, rfl, rfl, truncated, ?_, ?_, ?_, ?_⟩
  · intro address inside starts ends
    apply List.count_eq_one_of_mem (nodup_addresses _ _ _)
    rw [mem]
    omega
  · intro address chosen
    rw [show address ∈ selected ↔ _ from mem address] at chosen
    omega
  · show (addresses image.depth start.toNat length.toNat).length ≤ stopByte / 4 - first
    rw [written]
    omega
  · show (addresses image.depth start.toNat length.toNat).length < stopByte / 4 - first →
      decide (image.byteLength < stopByte) = true
    rw [written, truncated]
    omega

theorem Image.dumpTo_writes_unaligned_tail :
    let image : Image := ⟨#[1, 0x04030201, 0xFF], by decide⟩
    let sink := Device.accepting
    4 * image.depth < 2 ^ 63 ∧ (sink.room = none ∧ sink.refusesFlush = false) ∧
      ∃ report after events,
        image.dumpTo 6 0xFFFFFFFFFFFFFFFF sink = (report, after, events) ∧
        after.contents = ⟨#[1, 2, 3, 4, 0xFF, 0, 0, 0]⟩ ∧ report.status = .complete ∧
        report.writtenWords = 2 ∧ report.requestedWords = 2 ^ 62 - 2 ∧
        report.truncated = true := by
  intro image sink
  have fits : 4 * image.depth < 2 ^ 63 := by decide
  obtain ⟨report, after, events, dumped, bytes, status, written, requested, truncated, -⟩ :=
    Image.dumpTo_writes_whole_words Device.reliable_of_unlimited image fits 6 0xFFFFFFFFFFFFFFFF
      sink ⟨rfl, rfl⟩
  refine ⟨fits, ⟨rfl, rfl⟩, report, after, events, dumped, ?_, status, written, requested,
    truncated.mpr (by decide)⟩
  rw [bytes]
  decide

end Testbench
