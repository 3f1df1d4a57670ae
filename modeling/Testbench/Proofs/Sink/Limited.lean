import Testbench.Proofs.Sink.Accepting

/-! Sinks with room for so many bytes and no more. What fits is taken whole; a write that does not
fit leaves as many of its bytes as did, and then the sink is spent. What a spent sink does is left
open: one that has no room is full for good, and one that accepts has failed a single time. -/
namespace Testbench

theorem extract_of_size_le {bytes : ByteArray} {count : Nat} (le : bytes.size ≤ count) :
    bytes.extract 0 count = bytes := by
  rw [← Nat.max_eq_left le, ByteArray.extract_zero_max_size]

theorem extract_min_size (bytes : ByteArray) (count : Nat) :
    bytes.extract 0 (min count bytes.size) = bytes.extract 0 count := by
  rcases Nat.le_total count bytes.size with inside | outside
  · rw [Nat.min_eq_left inside]
  · rw [Nat.min_eq_right outside, ByteArray.extract_zero_size, extract_of_size_le outside]

theorem extract_append_of_size_le {first : ByteArray} (second : ByteArray) {count : Nat}
    (le : first.size ≤ count) :
    (first ++ second).extract 0 count = first ++ second.extract 0 (count - first.size) := by
  rw [ByteArray.extract_append, extract_of_size_le le, Nat.zero_sub]

theorem extract_append_of_le_size {first : ByteArray} (second : ByteArray) {count : Nat}
    (le : count ≤ first.size) : (first ++ second).extract 0 count = first.extract 0 count := by
  rw [ByteArray.extract_append, Nat.sub_eq_zero_of_le le, Nat.zero_sub, ByteArray.extract_same,
    ByteArray.append_empty]

theorem extract_toByteArray (bytes : List UInt8) (count : Nat) :
    bytes.toByteArray.extract 0 count = (bytes.take count).toByteArray := by
  apply ByteArray.ext
  rw [ByteArray.data_extract, List.data_toByteArray, List.data_toByteArray, List.extract_toArray,
    List.extract_eq_take_drop, List.drop_zero, Nat.sub_zero]

namespace Sink

variable {σ : Type}

structure Limited [Sink σ] (room : Nat → σ → Prop) (spent : σ → Prop)
    (contents : σ → ByteArray) : Prop where
  fits {bytes : ByteArray} {sink : σ} {left : Nat} (ready : room left sink)
    (enough : bytes.size ≤ left) :
    ∃ after, Sink.write bytes sink = (.ok (), after) ∧ room (left - bytes.size) after ∧
      contents after = contents sink ++ bytes
  exceeds {bytes : ByteArray} {sink : σ} {left : Nat} (ready : room left sink)
    (short : left < bytes.size) :
    ∃ error after, Sink.write bytes sink = (.error ⟨left, error⟩, after) ∧ spent after ∧
      contents after = contents sink ++ bytes.extract 0 left

structure ReliablyLimited [Sink σ] (room : Nat → σ → Prop) (spent : σ → Prop)
    (contents : σ → ByteArray) : Prop extends Limited room spent contents where
  flush {sink : σ} {left : Nat} (ready : room left sink) :
    ∃ after, Sink.flush sink = (.ok (), after) ∧ room left after ∧ contents after = contents sink

/-- What became of bytes that went to a sink with so much room: all of them were taken and the rest
of the room is left, or those that fitted and the sink is spent. -/
inductive Poured (room : Nat → σ → Prop) (spent : σ → Prop) (contents : σ → ByteArray) (left : Nat)
    (bytes : ByteArray) (sink after : σ) : Bool → Prop
  | whole (enough : bytes.size ≤ left) (ready : room (left - bytes.size) after)
      (grown : contents after = contents sink ++ bytes) :
      Poured room spent contents left bytes sink after true
  | part (short : left < bytes.size) (ended : spent after)
      (grown : contents after = contents sink ++ bytes.extract 0 left) :
      Poured room spent contents left bytes sink after false

variable {room : Nat → σ → Prop} {spent : σ → Prop} {contents : σ → ByteArray} {left : Nat}
  {first second bytes : ByteArray} {sink middle after : σ} {all : Bool}

theorem Poured.nothing (ready : room left sink) :
    Poured room spent contents left ByteArray.empty sink sink true :=
  .whole (Nat.zero_le _) ready ByteArray.append_empty.symm

theorem Poured.append (one : Poured room spent contents left first sink middle true)
    (two : Poured room spent contents (left - first.size) second middle after all) :
    Poured room spent contents left (first ++ second) sink after all := by
  cases one with
  | whole enough _ grown =>
    cases two with
    | whole enough' ready grown' =>
      refine .whole ?_ ?_ ?_
      · rw [ByteArray.size_append]
        omega
      · rwa [ByteArray.size_append, ← Nat.sub_sub]
      · rw [grown', grown, ByteArray.append_assoc]
    | part short ended grown' =>
      refine .part ?_ ended ?_
      · rw [ByteArray.size_append]
        omega
      · rw [grown', grown, extract_append_of_size_le second enough, ByteArray.append_assoc]

theorem Poured.stop (one : Poured room spent contents left first sink after false)
    (second : ByteArray) : Poured room spent contents left (first ++ second) sink after false := by
  cases one with
  | part short ended grown =>
    refine .part ?_ ended ?_
    · rw [ByteArray.size_append]
      omega
    · rw [grown, extract_append_of_le_size second (Nat.le_of_lt short)]

theorem Poured.ready (poured : Poured room spent contents left bytes sink after true) :
    room (left - bytes.size) after := by
  cases poured with
  | whole _ ready _ => exact ready

theorem Poured.ended (poured : Poured room spent contents left bytes sink after false) :
    spent after := by
  cases poured with
  | part _ ended _ => exact ended

theorem Poured.all_iff (poured : Poured room spent contents left bytes sink after all) :
    all = true ↔ bytes.size ≤ left := by
  cases poured with
  | whole enough => simp [enough]
  | part short => simp [short]

theorem Poured.contents_eq (poured : Poured room spent contents left bytes sink after all) :
    contents after = contents sink ++ bytes.extract 0 left := by
  cases poured with
  | whole enough _ grown => rw [grown, extract_of_size_le enough]
  | part _ _ grown => exact grown

theorem Limited.put [Sink σ] (limited : Limited room spent contents) (bytes : ByteArray)
    (ready : room left sink) :
    ∃ answer after, Sink.put bytes sink = (answer, after) ∧
      Poured room spent contents left bytes sink after answer.isOk := by
  rcases Nat.lt_or_ge left bytes.size with short | enough
  · obtain ⟨error, after, written, ended, grown⟩ := limited.exceeds ready short
    exact ⟨.error error, after, by rw [Sink.put, written], .part short ended grown⟩
  · obtain ⟨after, written, ready, grown⟩ := limited.fits ready enough
    exact ⟨.ok (), after, by rw [Sink.put, written], .whole enough ready grown⟩

theorem Limited.putAll [Sink σ] (limited : Limited room spent contents) (pieces : List String)
    (ready : room left sink) :
    ∃ answer after, Sink.putAll pieces sink = (answer, after) ∧
      Poured room spent contents left (characters pieces).utf8Encode sink after answer.isOk := by
  induction pieces generalizing sink left with
  | nil => exact ⟨.ok (), sink, rfl, .nothing ready⟩
  | cons piece rest ih =>
    obtain ⟨answer, middle, first, one⟩ := limited.put piece.toUTF8 ready
    rw [Sink.putAll, first, characters_cons, List.utf8Encode_append, String.utf8Encode_toList,
      ← String.toUTF8_eq_toByteArray]
    cases answer with
    | ok _ =>
      obtain ⟨answer, after, others, two⟩ := ih one.ready
      exact ⟨answer, after, others, one.append two⟩
    | error error => exact ⟨.error error, middle, rfl, one.stop _⟩

theorem Poured.full (poured : Poured room (room 0) contents 0 bytes sink after all) :
    room 0 after ∧ contents after = contents sink := by
  refine ⟨?_, ?_⟩
  · cases poured with
    | whole _ ready _ => rwa [Nat.zero_sub] at ready
    | part _ ended _ => exact ended
  · rw [poured.contents_eq, ByteArray.extract_same, ByteArray.append_empty]

end Sink

namespace Device

def HasRoom (recovers refusesFlush : Bool) (left : Nat) (device : Device) : Prop :=
  device.room = some left ∧ device.recovers = recovers ∧ device.refusesFlush = refusesFlush

theorem write_fits {recovers refusesFlush : Bool} {left : Nat} {bytes : ByteArray} {device : Device}
    (ready : HasRoom recovers refusesFlush left device) (enough : bytes.size ≤ left) :
    ∃ after, Sink.write bytes device = (.ok (), after) ∧
      HasRoom recovers refusesFlush (left - bytes.size) after ∧
      after.contents = device.contents ++ bytes := by
  refine ⟨{ device with contents := device.contents ++ bytes, room := some (left - bytes.size) },
    ?_, ⟨rfl, ready.2⟩, rfl⟩
  show device.write bytes = _
  rw [Device.write, ready.1]
  exact if_pos enough

theorem write_exceeds {recovers refusesFlush : Bool} {left : Nat} {bytes : ByteArray}
    {device : Device} (ready : HasRoom recovers refusesFlush left device)
    (short : left < bytes.size) :
    Sink.write bytes device = (.error ⟨left, full⟩,
      { device with contents := device.contents ++ bytes.extract 0 left,
                    room := if recovers then none else some 0 }) := by
  show device.write bytes = _
  rw [Device.write, ready.1, ← ready.2.1]
  exact if_neg (Nat.not_le.mpr short)

theorem limited_of_failing (refusesFlush : Bool) :
    Sink.Limited (HasRoom false refusesFlush) (HasRoom false refusesFlush 0) contents where
  fits := write_fits
  exceeds ready short := ⟨_, _, write_exceeds ready short, ⟨rfl, ready.2⟩, rfl⟩

theorem limited_of_recovering (refusesFlush : Bool) :
    Sink.Limited (HasRoom true refusesFlush) (fun device => device.room = none) contents where
  fits := write_fits
  exceeds ready short := ⟨_, _, write_exceeds ready short, rfl, rfl⟩

theorem flush_hasRoom {recovers : Bool} {left : Nat} {device : Device}
    (ready : HasRoom recovers false left device) :
    ∃ after, Sink.flush device = (.ok (), after) ∧ HasRoom recovers false left after ∧
      after.contents = device.contents := by
  refine ⟨device, ?_, ready, rfl⟩
  show device.flush = _
  rw [Device.flush, ready.2.2, if_neg Bool.false_ne_true]

theorem reliablyLimited_of_failing :
    Sink.ReliablyLimited (HasRoom false false) (HasRoom false false 0) contents where
  toLimited := limited_of_failing false
  flush := flush_hasRoom

theorem reliablyLimited_of_recovering :
    Sink.ReliablyLimited (HasRoom true false) (fun device => device.room = none) contents where
  toLimited := limited_of_recovering false
  flush := flush_hasRoom

end Device

end Testbench
