import Testbench.Sink

/-! A device in memory with room for a fixed number of bytes. Once full it fails
for good, or fails a single time and then takes everything, or has no limit at
all; it may also refuse every flush. -/
namespace Testbench

structure Device where
  contents : ByteArray
  /-- Bytes still accepted; a device without a limit has none. -/
  room : Option Nat
  recovers : Bool
  refusesFlush : Bool

namespace Device

def ofLimit (limit : Option Nat) (recovers refusesFlush : Bool) : Device :=
  ⟨ByteArray.empty, limit, recovers, refusesFlush⟩

def accepting : Device :=
  ofLimit none false false

def full : IoError :=
  .rejected "device full"

/-- The bytes that still fit are taken even by the write that fails. -/
def write (bytes : ByteArray) (device : Device) : Except Shortfall Unit × Device :=
  match device.room with
  | none => (.ok (), { device with contents := device.contents ++ bytes })
  | some room =>
    if bytes.size ≤ room then
      (.ok (), { device with
        contents := device.contents ++ bytes, room := some (room - bytes.size) })
    else
      (.error ⟨room, full⟩, { device with
        contents := device.contents ++ bytes.extract 0 room
        room := if device.recovers then none else some 0 })

def flush (device : Device) : Except IoError Unit × Device :=
  (if device.refusesFlush then .error (.rejected "flush rejected") else .ok (), device)

instance : Sink Device where
  write := write
  flush := flush

end Device

end Testbench
