import Testbench.Proofs.Dump.Range
import Testbench.Proofs.Sink.Alike
import Testbench.Proofs.Sink.Limited

/-! Dumps into sinks that refuse. A word counts once its write and its flush have succeeded, and the
first of these that fails is the last thing the sink hears of the dump. How many bytes a sink has
taken and how many words count are then two different numbers: a sink with little room keeps the
beginning of a word that does not count, and one that never flushes keeps a whole one. -/
namespace Testbench

namespace Sink

variable {σ : Type} [Sink σ]

def Succeeds : Act → σ → Prop
  | .write bytes, sink => (Sink.write bytes sink).1 = .ok ()
  | .flush, sink => (Sink.flush sink).1 = .ok ()

theorem succeeds_write (bytes : ByteArray) (sink : σ) :
    Succeeds (.write bytes) sink ↔ (Sink.put bytes sink).1 = .ok () := by
  unfold Sink.put
  show (Sink.write bytes sink).1 = .ok () ↔ _
  split <;> rename_i h <;> simp [h]

theorem act_write (bytes : ByteArray) (sink : σ) :
    act (.write bytes) sink = (Sink.put bytes sink).2 := by
  unfold Sink.put
  show (Sink.write bytes sink).2 = _
  split <;> rename_i h <;> rw [h]

/-- A sink that may take what is written but refuses every flush. -/
structure RefusesFlush (holds : σ → Prop) (contents : σ → ByteArray) : Prop where
  write (bytes : ByteArray) {sink : σ} (ready : holds sink) :
    holds (Sink.write bytes sink).2 ∧
      ∃ count ≤ bytes.size,
        contents (Sink.write bytes sink).2 = contents sink ++ bytes.extract 0 count
  flush {sink : σ} (ready : holds sink) :
    (∃ error, (Sink.flush sink).1 = .error error) ∧ contents (Sink.flush sink).2 = contents sink

end Sink

namespace Dump

open Sink

variable {σ : Type} [Sink σ] {word : UInt32} {words : List UInt32} {sink after : σ}

def writing (word : UInt32) : Act :=
  .write (littleEndian word).toByteArray

def asking (words : List UInt32) : List Act :=
  words.flatMap fun word => [writing word, .flush]

/-- The word at a position is written and flushed by a sink that has been asked for those before. -/
def Counts (words : List UInt32) (sink : σ) (position : Nat) : Prop :=
  ∃ word, words[position]? = some word ∧
    let reached := perform (asking (words.take position)) sink
    Succeeds (writing word) reached ∧ Succeeds .flush (act (writing word) reached)

inductive Refuses (word : UInt32) (reached : σ) : σ → Prop
  | write (refused : ¬Succeeds (writing word) reached) :
      Refuses word reached (act (writing word) reached)
  | flush (written : Succeeds (writing word) reached)
      (refused : ¬Succeeds .flush (act (writing word) reached)) :
      Refuses word reached (act .flush (act (writing word) reached))

/-- The sink has been asked for all the words, or for those up to the first that was refused. -/
inductive Ends (words : List UInt32) (sink : σ) : Nat → σ → Prop
  | complete : Ends words sink words.length (perform (asking words) sink)
  | refused {position : Nat} {word : UInt32} {after : σ} (here : words[position]? = some word)
      (refuses : Refuses word (perform (asking (words.take position)) sink) after) :
      Ends words sink position after

theorem asking_cons (word : UInt32) (rest : List UInt32) (sink : σ) :
    perform (asking (word :: rest)) sink =
      perform (asking rest) (act .flush (act (writing word) sink)) := by
  rw [asking, List.flatMap_cons, perform_append]
  rfl

theorem counts_zero (word : UInt32) (rest : List UInt32) (sink : σ) :
    Counts (word :: rest) sink 0 ↔
      Succeeds (writing word) sink ∧ Succeeds .flush (act (writing word) sink) := by
  constructor
  · rintro ⟨_, ⟨⟩, succeeds⟩
    exact succeeds
  · exact fun succeeds => ⟨word, rfl, succeeds⟩

theorem counts_succ (word : UInt32) (rest : List UInt32) (sink : σ) (position : Nat) :
    Counts (word :: rest) sink (position + 1) ↔
      Counts rest (act .flush (act (writing word) sink)) position := by
  simp only [Counts, List.getElem?_cons_succ, List.take_succ_cons, asking_cons]

theorem Ends.cons {rest : List UInt32} {count : Nat}
    (ends : Ends rest (act .flush (act (writing word) sink)) count after) :
    Ends (word :: rest) sink (count + 1) after := by
  cases ends with
  | complete =>
    rw [← asking_cons]
    exact .complete
  | refused here refuses =>
    refine .refused here ?_
    rwa [List.take_succ_cons, asking_cons]

theorem Ends.not_counts {count : Nat} (ends : Ends words sink count after) :
    ¬Counts words sink count := by
  rintro ⟨word, here, written, flushed⟩
  cases ends with
  | complete =>
    rw [List.getElem?_eq_none (Nat.le_refl _)] at here
    cases here
  | refused here' refuses =>
    obtain rfl := Option.some.inj (here'.symm.trans here)
    cases refuses with
    | write refused => exact refused written
    | flush _ refused => exact refused flushed

theorem putWord_spec (word : UInt32) (sink : σ) :
    (putWord word sink = (.ok (), act .flush (act (writing word) sink)) ∧
        Succeeds (writing word) sink ∧ Succeeds .flush (act (writing word) sink)) ∨
      ∃ error after, putWord word sink = (.error error, after) ∧ Refuses word sink after := by
  have written : Succeeds (writing word) sink ↔ _ := succeeds_write _ sink
  have reached : act (writing word) sink = _ := act_write _ sink
  rw [← wordBytes_eq] at written reached
  unfold putWord
  split <;> rename_i put <;> rw [put] at written reached
  · rename_i middle
    obtain rfl : act (writing word) sink = middle := reached
    have wrote : Succeeds (writing word) sink := written.mpr rfl
    cases settled : Sink.flush (act (writing word) sink) with
    | mk answer after =>
      obtain rfl : act .flush (act (writing word) sink) = after := congrArg Prod.snd settled
      cases answer with
      | ok _ => exact .inl ⟨rfl, wrote, congrArg Prod.fst settled⟩
      | error error =>
        refine .inr ⟨error, _, rfl, .flush wrote fun succeeds => ?_⟩
        cases (congrArg Prod.fst settled).symm.trans succeeds
  · rename_i error after
    obtain rfl : act (writing word) sink = after := reached
    exact .inr ⟨error, _, rfl, .write fun succeeds => nomatch written.mp succeeds⟩

theorem putWords_spec (words : List UInt32) (written : Nat) (sink : σ) :
    ∃ count trouble after, putWords words written sink = (written + count, trouble, after) ∧
      (∀ i < count, Counts words sink i) ∧ Ends words sink count after ∧ count ≤ words.length ∧
      (trouble = none ↔ count = words.length) := by
  induction words generalizing written sink with
  | nil => exact ⟨0, none, sink, rfl, nofun, .complete, Nat.le_refl 0, by simp⟩
  | cons word rest ih =>
    rcases putWord_spec word sink with ⟨put, counts⟩ | ⟨error, after, put, refuses⟩
    · obtain ⟨count, trouble, after, others, leading, ends, bound, complete⟩ :=
        ih (written + 1) (act .flush (act (writing word) sink))
      refine ⟨count + 1, trouble, after, ?_, ?_, ends.cons, Nat.succ_le_succ bound, ?_⟩
      · rw [putWords, put]
        dsimp only
        rw [others, Nat.add_assoc, Nat.add_comm 1]
      · intro i before
        cases i with
        | zero => exact (counts_zero word rest sink).mpr counts
        | succ i =>
          exact (counts_succ word rest sink i).mpr (leading i (Nat.lt_of_succ_lt_succ before))
      · rw [complete, List.length_cons, Nat.succ_inj]
    · refine ⟨0, some error, after, ?_, nofun, .refused rfl refuses, Nat.zero_le _, by simp⟩
      rw [putWords, put]
      rfl

variable {room : Nat → σ → Prop} {spent : σ → Prop} {contents : σ → ByteArray} {left : Nat}

theorem size_littleEndian (word : UInt32) : (littleEndian word).toByteArray.size = 4 := by
  rw [List.size_toByteArray]
  rfl

theorem putWord_limited (limited : ReliablyLimited room spent contents) (word : UInt32)
    (ready : room left sink) :
    ∃ answer after, putWord word sink = (answer, after) ∧
      Poured room spent contents left (littleEndian word).toByteArray sink after answer.isOk := by
  obtain ⟨answer, middle, put, poured⟩ := limited.put (wordBytes word) ready
  rw [wordBytes_eq] at poured
  unfold putWord
  rw [put]
  cases answer with
  | ok _ =>
    cases poured with
    | whole enough ready grown =>
      obtain ⟨after, flushed, still, same⟩ := limited.flush ready
      exact ⟨.ok (), after, flushed, .whole enough still (same.trans grown)⟩
  | error error => exact ⟨.error error, middle, rfl, poured⟩

theorem putWords_limited (limited : ReliablyLimited room spent contents) (words : List UInt32)
    (written : Nat) (ready : room left sink) :
    ∃ trouble after, putWords words written sink =
        (written + min words.length (left / 4), trouble, after) ∧
      Poured room spent contents left (words.flatMap littleEndian).toByteArray sink after
        trouble.isNone := by
  induction words generalizing written sink left with
  | nil => exact ⟨none, sink, by rw [List.length_nil, Nat.zero_min]; rfl, .nothing ready⟩
  | cons word rest ih =>
    obtain ⟨answer, middle, put, poured⟩ := putWord_limited limited word ready
    have size := size_littleEndian word
    rw [putWords, put, List.flatMap_cons, List.toByteArray_append, List.length_cons]
    cases answer with
    | ok _ =>
      have enough := poured.all_iff.mp rfl
      obtain ⟨trouble, after, others, rest⟩ := ih (written + 1) poured.ready
      refine ⟨trouble, after, others.trans ?_, poured.append rest⟩
      congr 1
      omega
    | error error =>
      have short : ¬(littleEndian word).toByteArray.size ≤ left :=
        fun enough => Bool.false_ne_true (poured.all_iff.mpr enough)
      have none : min (rest.length + 1) (left / 4) = 0 := by omega
      exact ⟨some error, middle, by rw [none]; rfl, poured.stop _⟩

variable {holds : σ → Prop}

theorem not_counts_of_refusesFlush (refuses : RefusesFlush holds contents) (words : List UInt32)
    (ready : holds sink) : ¬Counts words sink 0 := by
  rintro ⟨word, -, -, flushed⟩
  obtain ⟨error, refused⟩ := (refuses.flush (refuses.write _ ready).1).1
  exact nomatch refused.symm.trans flushed

theorem Ends.of_refusesFlush (refuses : RefusesFlush holds contents) (ready : holds sink)
    (ends : Ends words sink 0 after) :
    ∃ count ≤ 4, contents after =
      contents sink ++ ((words.flatMap littleEndian).take count).toByteArray := by
  cases words with
  | nil =>
    cases ends with
    | complete => exact ⟨0, by omega, by simp [asking, perform]⟩
    | refused here => cases here
  | cons word rest =>
    obtain ⟨still, count, bound, grown⟩ := refuses.write (littleEndian word).toByteArray ready
    rw [size_littleEndian] at bound
    have first : ((word :: rest).flatMap littleEndian).take count =
        (littleEndian word).take count := by
      rw [List.flatMap_cons, List.take_append_of_le_length bound]
    rw [extract_toByteArray, ← first] at grown
    refine ⟨count, bound, ?_⟩
    cases ends with
    | refused here refused =>
      cases here
      cases refused with
      | write => exact grown
      | flush => exact (refuses.flush still).2.trans grown

end Dump

open Dump

theorem Image.dumpTo_of_putWords {σ : Type} [Sink σ] {image : Image} {start length : UInt64}
    {sink after : σ} {count : Nat} {trouble : Option IoError}
    (put : putWords ((addresses image.depth start.toNat length.toNat).map image.read) 0 sink =
      (count, trouble, after)) :
    let dumped := image.dumpTo start length sink
    dumped.2.1 = after ∧ dumped.1.writtenWords = count ∧
      (dumped.1.status = .complete ↔ trouble = none) ∧
      (dumped.1.status = .writeFailed ↔ trouble ≠ none) := by
  unfold Image.dumpTo
  dsimp only
  rw [slice_range_eq, put]
  cases trouble <;> simp [Range.report]

theorem Image.dumpTo_ends {σ : Type} [Sink σ] (image : Image) (start length : UInt64) (sink : σ) :
    let words := (addresses image.depth start.toNat length.toNat).map image.read
    let dumped := image.dumpTo start length sink
    (∀ i < dumped.1.writtenWords, Counts words sink i) ∧
      Ends words sink dumped.1.writtenWords dumped.2.1 ∧
      (dumped.1.status = .complete ↔ dumped.1.writtenWords = words.length) ∧
      (dumped.1.status = .writeFailed ↔ dumped.1.writtenWords < words.length) := by
  intro words dumped
  obtain ⟨count, trouble, after, put, leading, ends, bound, whole⟩ := putWords_spec words 0 sink
  rw [Nat.zero_add] at put
  obtain ⟨reached, written, complete, failed⟩ := dumpTo_of_putWords put
  have short : trouble ≠ none ↔ count < words.length := by
    rw [Ne, whole]
    omega
  rw [show dumped.1.writtenWords = count from written, show dumped.2.1 = after from reached]
  exact ⟨leading, ends, complete.trans whole, failed.trans short⟩

theorem Image.dumpTo_request {σ : Type} [Sink σ] (image : Image) (start length : UInt64)
    (sink : σ) :
    (image.dumpTo start length sink).1.requestedWords =
        (Range.of image start length).requestedStop - (Range.of image start length).requestedFirst ∧
      (image.dumpTo start length sink).1.truncated = (Range.of image start length).truncated := by
  unfold Image.dumpTo
  dsimp only
  split <;> exact ⟨rfl, rfl⟩

/-- A dump counts the words that are written and flushed, up to the first that is not, and asks the
sink for nothing behind that one. A sink with room for so many bytes ends with that many of the
bytes of the selected words, and the words that are whole among them count, whatever it would do
later. A sink that refuses every flush is asked for one word, which does not count. -/
theorem Image.dumpTo_stops_at_first_refusal (image : Image) (start length : UInt64) :
    let words := (addresses image.depth start.toNat length.toNat).map image.read
    let stream := words.flatMap littleEndian
    (∀ {σ : Type} [Sink σ] (sink : σ),
      let dumped := image.dumpTo start length sink
      (∀ i, i < dumped.1.writtenWords ↔ ∀ j ≤ i, Counts words sink j) ∧
        Ends words sink dumped.1.writtenWords dumped.2.1 ∧
        (dumped.1.status = .complete ↔ dumped.1.writtenWords = words.length) ∧
        (dumped.1.status = .writeFailed ↔ dumped.1.writtenWords < words.length) ∧
        ∀ {τ : Type} [Sink τ] (other : τ),
          dumped.1.requestedWords = (image.dumpTo start length other).1.requestedWords ∧
            dumped.1.truncated = (image.dumpTo start length other).1.truncated) ∧
    (∀ {σ : Type} [Sink σ] {room : Nat → σ → Prop} {spent : σ → Prop} {contents : σ → ByteArray},
      Sink.ReliablyLimited room spent contents → ∀ limit sink, room limit sink →
        let dumped := image.dumpTo start length sink
        contents dumped.2.1 =
            contents sink ++ (stream.take (min limit (4 * words.length))).toByteArray ∧
          dumped.1.writtenWords = min words.length (limit / 4) ∧
          (dumped.1.status = .writeFailed ↔ limit < 4 * words.length)) ∧
    ∀ {σ : Type} [Sink σ] {holds : σ → Prop} {contents : σ → ByteArray},
      Sink.RefusesFlush holds contents → ∀ sink, holds sink →
        let dumped := image.dumpTo start length sink
        dumped.1.writtenWords = 0 ∧
          (∃ count ≤ 4, contents dumped.2.1 = contents sink ++ (stream.take count).toByteArray) ∧
          (dumped.1.status = .writeFailed ↔ 0 < words.length) := by
  intro words stream
  refine ⟨?_, ?_, ?_⟩
  · intro σ _ sink dumped
    obtain ⟨leading, ends, complete, failed⟩ := image.dumpTo_ends start length sink
    obtain ⟨requested, truncated⟩ := image.dumpTo_request start length sink
    refine ⟨fun i =>
        ⟨fun before j le => leading j (Nat.lt_of_le_of_lt le before), fun counts => ?_⟩,
      ends, complete, failed, fun other => ?_⟩
    · by_contra behind
      exact ends.not_counts (counts _ (Nat.le_of_not_lt behind))
    · obtain ⟨requested', truncated'⟩ := image.dumpTo_request start length other
      exact ⟨requested.trans requested'.symm, truncated.trans truncated'.symm⟩
  · intro σ _ room spent contents limited limit sink ready dumped
    obtain ⟨trouble, after, put, poured⟩ := putWords_limited limited words 0 ready
    obtain ⟨reached, written, -, failed⟩ := dumpTo_of_putWords put
    have size : stream.length = 4 * words.length := length_flatMap_littleEndian words
    have whole : trouble = none ↔ 4 * words.length ≤ limit := by
      rw [← Option.isNone_iff_eq_none, poured.all_iff, List.size_toByteArray, size]
    refine ⟨?_, written.trans (Nat.zero_add _), failed.trans ?_⟩
    · rw [show dumped.2.1 = after from reached, poured.contents_eq, extract_toByteArray, ← size,
        ← List.take_eq_take_min]
    · rw [Ne, whole, Nat.not_le]
  · intro σ _ holds contents refuses sink ready dumped
    obtain ⟨leading, ends, -, failed⟩ := image.dumpTo_ends start length sink
    have none : dumped.1.writtenWords = 0 := by
      by_contra some
      exact not_counts_of_refusesFlush refuses words ready (leading 0 (Nat.pos_of_ne_zero some))
    rw [show (image.dumpTo start length sink).1.writtenWords = 0 from none] at ends failed
    exact ⟨none, ends.of_refusesFlush refuses ready, failed⟩

theorem Device.refusesFlush_of_stuck :
    Sink.RefusesFlush (fun device : Device => device.refusesFlush = true) Device.contents where
  write bytes device stuck := by
    show (device.write bytes).2.refusesFlush = true ∧
      ∃ count ≤ bytes.size, (device.write bytes).2.contents =
        device.contents ++ bytes.extract 0 count
    unfold Device.write
    split
    · exact ⟨stuck, bytes.size, Nat.le_refl _, by rw [ByteArray.extract_zero_size]⟩
    · split
      · exact ⟨stuck, bytes.size, Nat.le_refl _, by rw [ByteArray.extract_zero_size]⟩
      · rename_i room _ short
        exact ⟨stuck, room, Nat.le_of_not_le short, rfl⟩
  flush {device} stuck := by
    refine ⟨⟨.rejected "flush rejected", ?_⟩, rfl⟩
    show device.flush.1 = _
    rw [Device.flush, if_pos stuck]

/-- Room for a word and a half of three words, once and for good, and no flush at all. -/
theorem Image.dumpTo_stops_inside_second_word :
    let image : Image := ⟨#[1, 0x0A0B0C0D, 3], by decide⟩
    let recovering := Device.ofLimit (some 6) true false
    let failing := Device.ofLimit (some 6) false false
    let stuck := Device.ofLimit none false true
    let one := image.dumpTo 1 12 recovering
    let two := image.dumpTo 1 12 failing
    let three := image.dumpTo 1 12 stuck
    (Device.HasRoom true false 6 recovering ∧ Device.HasRoom false false 6 failing ∧
        stuck.refusesFlush = true) ∧
      (one.2.1.contents = ⟨#[1, 0, 0, 0, 0x0D, 0x0C]⟩ ∧ one.1.writtenWords = 1 ∧
        one.1.status = .writeFailed) ∧
      (two.2.1.contents = ⟨#[1, 0, 0, 0, 0x0D, 0x0C]⟩ ∧ two.1.writtenWords = 1 ∧
        two.1.status = .writeFailed) ∧
      three.1.writtenWords = 0 ∧ three.1.status = .writeFailed ∧
      ∃ count ≤ 4, three.2.1.contents = (List.take count [1, 0, 0, 0]).toByteArray := by
  intro image recovering failing stuck one two three
  obtain ⟨-, limited, refuses⟩ := Image.dumpTo_stops_at_first_refusal image 1 12
  have words : (addresses image.depth (1 : UInt64).toNat (12 : UInt64).toNat).map image.read =
      [1, 0x0A0B0C0D, 3] := by decide
  rw [words] at limited refuses
  obtain ⟨grown, written, failed⟩ :=
    limited Device.reliablyLimited_of_recovering 6 recovering ⟨rfl, rfl, rfl⟩
  obtain ⟨grown', written', failed'⟩ :=
    limited Device.reliablyLimited_of_failing 6 failing ⟨rfl, rfl, rfl⟩
  obtain ⟨none, ⟨count, bound, taken⟩, failed''⟩ :=
    refuses Device.refusesFlush_of_stuck stuck rfl
  refine ⟨⟨⟨rfl, rfl, rfl⟩, ⟨rfl, rfl, rfl⟩, rfl⟩,
    ⟨grown.trans (by decide), written, failed.mpr (by decide)⟩,
    ⟨grown'.trans (by decide), written', failed'.mpr (by decide)⟩, none,
    failed''.mpr (by decide), count, bound, ?_⟩
  have first : ([1, 0x0A0B0C0D, 3].flatMap littleEndian).take count =
      List.take count [1, 0, 0, 0] := by
    rw [show [1, 0x0A0B0C0D, 3].flatMap littleEndian =
      [1, 0, 0, 0] ++ [0x0A0B0C0D, 3].flatMap littleEndian from rfl]
    exact List.take_append_of_le_length bound
  rw [show three.2.1.contents = _ from taken, first]
  exact ByteArray.empty_append

end Testbench
