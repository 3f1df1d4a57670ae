import Testbench.Event
import Testbench.FileSystem

/-! A dump writes a byte range of the image as little-endian words. The range is
given in bytes and served in whole words: it starts with the word that holds its
first byte and ends before the first word it does not fully reach. -/
namespace Testbench

namespace Dump

structure Request where
  path : String
  start : UInt64
  length : UInt64
  deriving DecidableEq, Repr

inductive Status where
  | complete
  | openFailed
  | writeFailed
  deriving DecidableEq, Repr

structure Report where
  requestedWords : Nat
  writtenWords : Nat
  truncated : Bool
  status : Status
  deriving DecidableEq, Repr

def Report.bytesWritten (report : Report) : Nat :=
  report.writtenWords * Image.wordBytes

def Report.isComplete (report : Report) : Bool :=
  report.status = .complete

/-- Byte offsets saturate here. -/
def lastOffset : Nat := UInt64.size - 1

/-- The words a request selects, before and after it is cut to the image. -/
structure Range where
  requestedFirst : Nat
  requestedStop : Nat
  first : Nat
  stop : Nat
  truncated : Bool

def Range.of (image : Image) (start length : UInt64) : Range :=
  let stopByte := min (start.toNat + length.toNat) lastOffset
  let requestedFirst := start.toNat / Image.wordBytes
  let requestedStop := stopByte / Image.wordBytes
  let stop := min requestedStop image.depth
  { requestedFirst, requestedStop, first := min requestedFirst stop, stop,
    truncated := image.byteLength < stopByte }

theorem Range.stop_le_depth (image : Image) (start length : UInt64) :
    (Range.of image start length).stop ≤ image.depth :=
  Nat.min_le_right _ _

theorem Range.first_le_stop (image : Image) (start length : UInt64) :
    (Range.of image start length).first ≤ (Range.of image start length).stop :=
  Nat.min_le_right _ _

def Range.event (image : Image) (length : UInt64) (range : Range) : Event :=
  if range.truncated then
    .dumpTruncated image.byteLength length.toNat ((range.stop - range.first) * Image.wordBytes)
  else .dumpRange range.requestedFirst range.requestedStop

def Range.report (range : Range) (writtenWords : Nat) (status : Status) : Report :=
  ⟨range.requestedStop - range.requestedFirst, writtenWords, range.truncated, status⟩

def wordBytes (word : UInt32) : ByteArray :=
  ⟨#[word.toUInt8, (word >>> 8).toUInt8, (word >>> 16).toUInt8, (word >>> 24).toUInt8]⟩

variable {σ : Type} [Sink σ]

def putWord (word : UInt32) (sink : σ) : Except IoError Unit × σ :=
  match Sink.put (wordBytes word) sink with
  | (.ok _, sink) => Sink.flush sink
  | (.error error, sink) => (.error error, sink)

/-- Writes words until one fails, on top of those written already. A word counts once
it has been written and flushed. -/
def putWords : List UInt32 → (written : Nat) → σ → Nat × Option IoError × σ
  | [], written, sink => (written, none, sink)
  | word :: rest, written, sink =>
    match putWord word sink with
    | (.ok _, sink) => putWords rest (written + 1) sink
    | (.error error, sink) => (written, some error, sink)

end Dump

namespace Image

def slice (image : Image) (first stop : Nat) : List UInt32 :=
  (image.words.extract first stop).toList

open Dump in
def dumpTo {σ : Type} [Sink σ] (image : Image) (start length : UInt64) (sink : σ) :
    Report × σ × List Event :=
  let range := Range.of image start length
  match putWords (image.slice range.first range.stop) 0 sink with
  | (written, none, sink) =>
    (range.report written .complete, sink, [range.event image length])
  | (written, some error, sink) =>
    (range.report written .writeFailed, sink,
      [range.event image length, .dumpFailed written error])

open Dump in
/-- Dumps into the file a request names. Trouble is reported, never a fault. -/
def dump (image : Image) (request : Request) (files : FileSystem) :
    Report × FileSystem × List Event :=
  match files.create request.path with
  | .error error =>
    let range := Range.of image request.start request.length
    (range.report 0 .openFailed, files,
      [.dumpUnavailable request.path error, range.event image request.length])
  | .ok file =>
    match image.dumpTo request.start request.length file with
    | (report, file, events) =>
      (report, file.close,
        if report.isComplete then events ++ [.dumpWritten request.path report.bytesWritten]
        else events)

end Image

end Testbench
