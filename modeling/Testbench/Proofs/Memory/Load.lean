import Testbench.Memory.Load

/-! How a load ends and what it leaves in memory. A file that cannot be read, or is no text,
leaves the memory as it is; a text with a defect leaves what it stored before the defect. -/
namespace Testbench

namespace FileSystem

variable {files : FileSystem} {path : String}

theorem readText_eq_ok_iff {text : String} :
    files.readText path = .ok text ↔ files.read path = .ok text.toUTF8 := by
  unfold readText String.fromUTF8?
  constructor
  · intro whole
    split at whole
    · cases whole
    · rename_i bytes read
      split at whole
      · rename_i decoded
        split at decoded <;> cases decoded
        cases whole
        exact read
      · cases whole
  · intro read
    have valid : text.toUTF8.IsValidUTF8 := text.isValidUTF8
    simp only [read, dif_pos valid]
    rfl

theorem readText_eq_error_iff {error : IoError} :
    files.readText path = .error error ↔
      files.read path = .error error ∨
        ∃ bytes, files.read path = .ok bytes ∧ ¬bytes.IsValidUTF8 ∧ error = .notText := by
  unfold readText String.fromUTF8?
  cases files.read path with
  | error cause => simp
  | ok bytes => by_cases valid : bytes.IsValidUTF8 <;> simp [valid, eq_comm]

end FileSystem

namespace Image

/-- The ways in which a load fails, each with its fault and the memory afterwards. -/
inductive LoadFails (image : Image) (files : FileSystem) (path : String) : Fault → Image → Prop
  | unreadable {error : IoError} (refused : files.read path = .error error) :
      LoadFails image files path (.initialLoad path error) image
  | notText {bytes : ByteArray} (read : files.read path = .ok bytes)
      (invalid : ¬bytes.IsValidUTF8) :
      LoadFails image files path (.initialLoad path .notText) image
  | malformed {text : String} {defect : HexText.Defect} {left : Image}
      (read : files.read path = .ok text.toUTF8)
      (parsed : image.parseHex text = (.error defect, left)) :
      LoadFails image files path (.malformedImage path defect) left

variable {image : Image} {files : FileSystem} {path : String}

theorem load_of_fails {fault : Fault} {left : Image}
    (fails : image.LoadFails files path fault left) :
    image.load path files = (.error fault, left, []) := by
  cases fails with
  | unreadable refused =>
    simp only [load, FileSystem.readText_eq_error_iff.mpr (.inl refused)]
  | notText read invalid =>
    simp only [load, FileSystem.readText_eq_error_iff.mpr (.inr ⟨_, read, invalid, rfl⟩)]
  | malformed read parsed => simp only [load, FileSystem.readText_eq_ok_iff.mpr read, parsed]

theorem fails_of_load {fault : Fault} (failed : (image.load path files).1 = .error fault) :
    ∃ left, image.LoadFails files path fault left := by
  unfold load at failed
  split at failed
  · rename_i unread
    cases failed
    rcases FileSystem.readText_eq_error_iff.mp unread with refused | ⟨bytes, read, invalid, rfl⟩
    · exact ⟨image, .unreadable refused⟩
    · exact ⟨image, .notText read invalid⟩
  · rename_i text read
    split at failed
    · rename_i defect left parsed
      cases failed
      exact ⟨left, .malformed (FileSystem.readText_eq_ok_iff.mp read) parsed⟩
    · cases failed

/-- A text that can be read is loaded as it is parsed; only its defect is wrapped. -/
theorem load_of_text {text : String} (read : files.read path = .ok text.toUTF8) :
    (image.load path files).1 = (image.parseHex text).1.mapError (.malformedImage path) ∧
      (image.load path files).2.1 = (image.parseHex text).2 := by
  simp only [load, FileSystem.readText_eq_ok_iff.mpr read]
  obtain ⟨_ | _, _⟩ := image.parseHex text <;> exact ⟨rfl, rfl⟩

@[simp] theorem depth_parseHex (image : Image) (text : String) :
    (image.parseHex text).2.depth = image.depth :=
  HexText.depth_store _ _ _ _

@[simp] theorem depth_load (image : Image) (path : String) (files : FileSystem) :
    (image.load path files).2.1.depth = image.depth := by
  unfold load
  split
  · rfl
  · rename_i text _
    have kept := image.depth_parseHex text
    split <;> rename_i parsed <;> rwa [parsed] at kept

end Image

end Testbench
