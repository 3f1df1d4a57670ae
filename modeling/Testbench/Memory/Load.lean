import Testbench.Event
import Testbench.FileSystem

/-! How a memory comes to its contents: zeros when it is built, then perhaps a hex image
from a file. A file that cannot be read leaves the memory alone; one with a defect leaves
what was stored before the defect. -/
namespace Testbench.Image

/-- An image of zeros, for memories of the one supported word width. -/
def ofDepth (depth bits : Nat) : Except Fault Image :=
  if bits ≠ 32 then .error (.wordWidth bits)
  else if h : 0 < depth then .ok (zeros depth h)
  else .error .emptyMemory

def load (path : String) (files : FileSystem) (image : Image) :
    Except Fault Nat × Image × List Event :=
  match files.readText path with
  | .error error => (.error (.initialLoad path error), image, [])
  | .ok text =>
    match image.parseHex text with
    | (.error defect, image) => (.error (.malformedImage path defect), image, [])
    | (.ok words, image) => (.ok words, image, [.imageLoaded path words])

end Testbench.Image
