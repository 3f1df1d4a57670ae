import Testbench.Sink

/-! Small writes are gathered before they reach the sink behind. A refusal
therefore shows late, at the write that no longer fits the buffer or at the flush,
and bytes that never left the buffer are lost with it. -/
namespace Testbench

structure Buffered (σ : Type) where
  pending : ByteArray
  sink : σ

namespace Buffered

def capacity : Nat := 8192

def ofSink {σ : Type} (sink : σ) : Buffered σ :=
  ⟨ByteArray.empty, sink⟩

variable {σ : Type} [Sink σ]

/-- Hands the pending bytes over. What the sink did not take stays pending. -/
def spill (buffer : Buffered σ) : Except IoError Unit × Buffered σ :=
  if buffer.pending.isEmpty then (.ok (), buffer)
  else
    let ⟨pending, sink⟩ := buffer
    match Sink.write pending sink with
    | (.ok _, sink) => (.ok (), ⟨ByteArray.empty, sink⟩)
    | (.error shortfall, sink) =>
      (.error shortfall.error, ⟨pending.extract shortfall.taken pending.size, sink⟩)

/-- A write as large as the whole buffer goes past it. -/
def store (bytes : ByteArray) (buffer : Buffered σ) : Except Shortfall Unit × Buffered σ :=
  if bytes.size < capacity then (.ok (), { buffer with pending := buffer.pending ++ bytes })
  else
    let (result, sink) := Sink.write bytes buffer.sink
    (result, { buffer with sink })

def write (bytes : ByteArray) (buffer : Buffered σ) : Except Shortfall Unit × Buffered σ :=
  if buffer.pending.size + bytes.size ≤ capacity then buffer.store bytes
  else match buffer.spill with
    | (.ok _, buffer) => buffer.store bytes
    | (.error error, buffer) => (.error ⟨0, error⟩, buffer)

def flush (buffer : Buffered σ) : Except IoError Unit × Buffered σ :=
  match buffer.spill with
  | (.ok _, buffer) =>
    let (result, sink) := Sink.flush buffer.sink
    (result, { buffer with sink })
  | (.error error, buffer) => (.error error, buffer)

instance : Sink (Buffered σ) where
  write := write
  flush := flush

/-- Gives up the buffer: one last attempt to hand over what is pending. -/
def release (buffer : Buffered σ) : σ :=
  buffer.spill.2.sink

end Buffered

end Testbench
