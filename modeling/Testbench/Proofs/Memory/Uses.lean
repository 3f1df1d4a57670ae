import Testbench.Proofs.HexText.Trapping
import Testbench.Proofs.Memory.Load
import Testbench.Sink.Device

/-! A memory in use. Whatever is asked of a memory, one thing after the other, is answered by a
machine as it is by the image, and the depth stays the same throughout; so there is no state of a
memory and no argument for which the machine would trap. -/
namespace Testbench

namespace Trapping

/-- What can be asked of a memory. Each dump may go into a sink of its own. -/
inductive Use : Type 1 where
  | measure
  | read (address : UInt64)
  | write (address : UInt64) (word : UInt32)
  | parse (text : String)
  | dump {σ : Type} [Sink σ] (start length : UInt64) (sink : σ)

inductive Answer : Type 1 where
  | bytes (count : Nat)
  | word (word : UInt32)
  | written
  | parsed (result : Except HexText.Defect Nat)
  | dumped {σ : Type} (report : Dump.Report) (bytes : Nat) (sink : σ) (events : List Event)

def Use.perform : Use → Image → Answer × Image
  | .measure, image => (.bytes image.byteLength, image)
  | .read address, image => (.word (image.read address.toNat), image)
  | .write address word, image => (.written, image.write address.toNat word)
  | .parse text, image =>
    let (result, image) := image.parseHex text
    (.parsed result, image)
  | @dump _ _ start length sink, image =>
    let (report, sink, events) := image.dumpTo start length sink
    (.dumped report report.bytesWritten sink events, image)

def Use.attempt : Use → Array UInt32 → Option (Answer × Array UInt32)
  | .measure, words => (byteLength words).map fun bytes => (.bytes bytes.toNat, words)
  | .read address, words => (Trapping.read address words).map fun word => (.word word, words)
  | .write address word, words =>
    (Trapping.write address word words).map fun words => (.written, words)
  | .parse text, words =>
    (parseHex text words).map fun (result, words) => (.parsed result, words)
  | @dump _ _ start length sink, words =>
    (dumpTo words start length sink).map fun (report, bytes, sink, events) =>
      (.dumped report bytes.toNat sink events, words)

def performAll : List Use → Image → List Answer × Image
  | [], image => ([], image)
  | use :: rest, image =>
    let (answer, image) := use.perform image
    let (answers, image) := performAll rest image
    (answer :: answers, image)

def attemptAll : List Use → Array UInt32 → Option (List Answer × Array UInt32)
  | [], words => some ([], words)
  | use :: rest, words => do
    let (answer, words) ← use.attempt words
    let (answers, words) ← attemptAll rest words
    some (answer :: answers, words)

theorem depth_perform (use : Use) (image : Image) : (use.perform image).2.depth = image.depth := by
  cases use with
  | write => exact Image.depth_write ..
  | parse => exact Image.depth_parseHex ..
  | measure | read | dump => rfl

theorem attempt_eq {image : Image} (held : image.byteLength < UInt64.size) (use : Use)
    (fits : ∀ text, use = .parse text → text.utf8ByteSize + 1 < UInt64.size) :
    use.attempt image.words = some ((use.perform image).1, (use.perform image).2.words) := by
  cases use with
  | measure =>
    obtain ⟨bytes, run, known⟩ := gives_byteLength held
    simp only [Use.attempt, run, Option.map_some, known, Use.perform]
  | read address =>
    simp only [Use.attempt, (gives_read held address).eq, Option.map_some, Use.perform]
  | write address word =>
    simp only [Use.attempt, (gives_write held address word).eq, Option.map_some, Use.perform]
  | parse text =>
    simp only [Use.attempt, (gives_parseHex held (fits text rfl)).eq, Option.map_some, Use.perform]
  | dump start length sink =>
    obtain ⟨⟨report, bytes, rest⟩, run, same, known⟩ := gives_dumpTo held start length sink
    simp only [Use.attempt, run, Option.map_some, known, Use.perform, ← same]

theorem depth_performAll (uses : List Use) (image : Image) :
    (performAll uses image).2.depth = image.depth := by
  induction uses generalizing image with
  | nil => rfl
  | cons use rest ih => exact (ih _).trans (depth_perform use image)

theorem attemptAll_eq {image : Image} (held : image.byteLength < UInt64.size) (uses : List Use)
    (fits : ∀ text, .parse text ∈ uses → text.utf8ByteSize + 1 < UInt64.size) :
    attemptAll uses image.words =
      some ((performAll uses image).1, (performAll uses image).2.words) := by
  induction uses generalizing image with
  | nil => rfl
  | cons use rest ih =>
    have first := attempt_eq held use fun text parses => fits text (parses ▸ .head _)
    have held : (use.perform image).2.byteLength < UInt64.size := by
      rwa [Image.byteLength, depth_perform]
    have others := ih held fun text parses => fits text (.tail _ parses)
    simp only [attemptAll, first, others, performAll, Option.bind_eq_bind, Option.bind_some]

theorem depth_ofDepth {count bits : Nat} {image : Image}
    (built : Image.ofDepth count bits = .ok image) : image.depth = count := by
  unfold Image.ofDepth at built
  split at built
  · exact nomatch built
  · split at built
    · cases built
      exact Image.depth_zeros ..
    · exact nomatch built

/-- A new memory may be read, written, loaded and dumped in any order, with any addresses and
ranges, any texts and any sinks, and with success or without: there is never a trap, since every
step that could be one is done with words that are small enough. Depths and texts are bounded by
what can be allocated. -/
theorem no_use_traps {depth bits : Nat} {image : Image}
    (built : Image.ofDepth depth bits = .ok image) (allocated : 4 * depth < 2 ^ 63)
    (uses : List Use) (held : ∀ text, .parse text ∈ uses → text.utf8ByteSize < 2 ^ 63) :
    let used := performAll uses image
    attemptAll uses image.words = some (used.1, used.2.words) ∧ used.2.depth = depth ∧
      1 ≤ depth ∧
      ∀ start length,
        let range := Dump.Range.of used.2 start length
        range.first ≤ range.stop ∧ range.stop ≤ depth := by
  intro used
  have limit : UInt64.size = 2 ^ 64 := rfl
  have known : image.depth = depth := depth_ofDepth built
  have bytes : image.byteLength = depth * 4 := congrArg (· * 4) known
  have same : used.2.depth = depth := (depth_performAll uses image).trans known
  have fits (text : String) (parses : .parse text ∈ uses) :
      text.utf8ByteSize + 1 < UInt64.size := by
    have := held text parses
    omega
  refine ⟨attemptAll_eq (by omega) uses fits, same, known ▸ image.depth_pos, fun start length => ?_⟩
  intro range
  exact ⟨Dump.Range.first_le_stop .., same ▸ Dump.Range.stop_le_depth ..⟩

/-- Addresses, starts and lengths are as large as they can be, the text ends in a defect, and of the
sinks one refuses the first word and one the flush behind it. -/
theorem no_use_traps_at_extremes :
    let last : UInt64 := 0xFFFFFFFFFFFFFFFF
    let text := "@2 aa // bb\n@ffffffffffffffff 7"
    let uses : List Use := [.write last 5, .parse text, .read last, .measure,
      .dump 0 last (Device.ofLimit (some 3) false false),
      .dump 4 last (Device.ofLimit none false true), .dump last last Device.accepting]
    let image : Image := .zeros 3 (by decide)
    Image.ofDepth 3 32 = .ok image ∧ 4 * 3 < 2 ^ 63 ∧
      (∀ text, .parse text ∈ uses → text.utf8ByteSize < 2 ^ 63) ∧
      (attemptAll uses image.words).map Prod.snd = some #[5, 0, 0xAA] := by
  intro last text uses image
  have built : Image.ofDepth 3 32 = .ok image := rfl
  have allocated : 4 * 3 < 2 ^ 63 := by decide
  have held (other : String) (parses : .parse other ∈ uses) : other.utf8ByteSize < 2 ^ 63 := by
    have only : other = text := by simpa [uses] using parses
    subst only
    decide
  obtain ⟨run, -⟩ := no_use_traps built allocated uses held
  refine ⟨built, allocated, held, ?_⟩
  rw [run, Option.map_some]
  decide +kernel

end Trapping

end Testbench
