/-! A memory image is a fixed, non-empty row of words. Being non-empty is what
lets an address be taken modulo the depth, so every read and write is defined. -/
namespace Testbench

structure Image where
  words : Array UInt32
  size_pos : 0 < words.size
  deriving DecidableEq

namespace Image

def zeros (depth : Nat) (h : 0 < depth) : Image :=
  ⟨Array.replicate depth 0, by simpa using h⟩

def depth (image : Image) : Nat :=
  image.words.size

theorem depth_pos (image : Image) : 0 < image.depth :=
  image.size_pos

@[simp] theorem depth_zeros (depth : Nat) (h : 0 < depth) : (zeros depth h).depth = depth := by
  simp [zeros, Image.depth]

def wordBytes : Nat := 4

def byteLength (image : Image) : Nat :=
  image.depth * wordBytes

/-- Addresses wrap at the depth. -/
def read (image : Image) (address : Nat) : UInt32 :=
  have := Nat.mod_lt address image.size_pos
  image.words[address % image.words.size]

def write (address : Nat) (word : UInt32) (image : Image) : Image :=
  ⟨image.words.set (address % image.words.size) word (Nat.mod_lt _ image.size_pos), by
    simpa using image.size_pos⟩

@[simp] theorem depth_write (address : Nat) (word : UInt32) (image : Image) :
    (image.write address word).depth = image.depth := by
  simp [write, Image.depth]

theorem read_write (address other : Nat) (word : UInt32) (image : Image) :
    (image.write address word).read other =
      if other % image.depth = address % image.depth then word else image.read other := by
  simp only [read, write, Image.depth, Array.getElem_set, Array.size_set, eq_comm]

end Image

end Testbench
