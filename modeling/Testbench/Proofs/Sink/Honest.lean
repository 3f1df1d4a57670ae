import Testbench.Proofs.Sink.Limited

/-! Sinks that may refuse any write, and take others later, but never hide what became of one. Of a
write that fails they have taken less than all of its bytes, so it shows in the contents. -/
namespace Testbench

namespace Sink

variable {σ : Type}

/-- What became of bytes that went to a sink: all of them were taken, or a beginning that leaves at
least one of them out. -/
inductive Reported (contents : σ → ByteArray) (bytes : ByteArray) (sink after : σ) : Bool → Prop
  | whole (grown : contents after = contents sink ++ bytes) :
      Reported contents bytes sink after true
  | part {taken : Nat} (short : taken < bytes.size)
      (grown : contents after = contents sink ++ bytes.extract 0 taken) :
      Reported contents bytes sink after false

structure Honest [Sink σ] (contents : σ → ByteArray) : Prop where
  write (bytes : ByteArray) (sink : σ) : ∃ answer after,
    Sink.write bytes sink = (answer, after) ∧ Reported contents bytes sink after answer.isOk

variable {contents : σ → ByteArray} {first second : ByteArray} {sink middle after : σ} {all : Bool}

theorem Reported.append (one : Reported contents first sink middle true)
    (two : Reported contents second middle after all) :
    Reported contents (first ++ second) sink after all := by
  cases one with
  | whole grown =>
    cases two with
    | whole grown' =>
      refine .whole ?_
      rw [grown', grown, ByteArray.append_assoc]
    | @part taken short grown' =>
      have left : first.size + taken < (first ++ second).size := by
        rw [ByteArray.size_append]
        omega
      refine .part left ?_
      rw [grown', grown, extract_append_of_size_le second (Nat.le_add_right _ _),
        Nat.add_sub_cancel_left, ByteArray.append_assoc]

theorem Reported.stop (one : Reported contents first sink after false) (second : ByteArray) :
    Reported contents (first ++ second) sink after false := by
  cases one with
  | part short grown =>
    refine .part (Nat.lt_of_lt_of_le short ?_) ?_
    · rw [ByteArray.size_append]
      exact Nat.le_add_right _ _
    · rw [grown, extract_append_of_le_size second (Nat.le_of_lt short)]

theorem Honest.putAll [Sink σ] (honest : Honest contents) (pieces : List String) (sink : σ) :
    ∃ answer after, Sink.putAll pieces sink = (answer, after) ∧
      Reported contents (characters pieces).utf8Encode sink after answer.isOk := by
  induction pieces generalizing sink with
  | nil => exact ⟨.ok (), sink, rfl, .whole ByteArray.append_empty.symm⟩
  | cons piece rest ih =>
    obtain ⟨answer, middle, written, one⟩ := honest.write piece.toUTF8 sink
    rw [Sink.putAll, Sink.put, written, characters_cons, List.utf8Encode_append,
      String.utf8Encode_toList, ← String.toUTF8_eq_toByteArray]
    cases answer with
    | ok _ =>
      obtain ⟨answer, after, others, two⟩ := ih middle
      exact ⟨answer, after, others, one.append two⟩
    | error shortfall => exact ⟨.error shortfall.error, middle, rfl, one.stop _⟩

end Sink

theorem Device.honest : Sink.Honest Device.contents where
  write bytes device := by
    obtain ⟨contents, room, recovers, refusesFlush⟩ := device
    show ∃ answer after, Device.write bytes _ = (answer, after) ∧ _
    cases room with
    | none => exact ⟨.ok (), _, rfl, .whole rfl⟩
    | some room =>
      by_cases enough : bytes.size ≤ room
      · exact ⟨.ok (), _, by rw [Device.write]; exact if_pos enough, .whole rfl⟩
      · exact ⟨.error ⟨room, full⟩, _, by rw [Device.write]; exact if_neg enough,
          .part (Nat.lt_of_not_le enough) rfl⟩

end Testbench
