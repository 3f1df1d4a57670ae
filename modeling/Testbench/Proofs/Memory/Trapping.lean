import Testbench.Memory.Dump
import Mathlib.Data.UInt

/-! Memory in the arithmetic of a machine. An image counts and addresses with natural numbers, with
which nothing goes wrong. Here its operations are written out on words of 64 bits, where a sum or a
product that does not fit, a negative difference, a division by zero, and an index or a range that
is not inside are traps. A step that may trap is partial, and what is shown of a step is that it
gives a result, which is the one that the image has: held in memory, it has an offset for each of
its bytes. -/
namespace Testbench

namespace Trapping

def fit (value : Nat) : Option UInt64 :=
  if h : value < UInt64.size then some (.ofNatLT value h) else none

def add (a b : UInt64) : Option UInt64 :=
  fit (a.toNat + b.toNat)

def mul (a b : UInt64) : Option UInt64 :=
  fit (a.toNat * b.toNat)

def sub (a b : UInt64) : Option UInt64 :=
  if b ≤ a then some (a - b) else none

def div (a b : UInt64) : Option UInt64 :=
  if b = 0 then none else some (a / b)

def rem (a b : UInt64) : Option UInt64 :=
  if b = 0 then none else some (a % b)

def size (words : Array UInt32) : Option UInt64 :=
  fit words.size

def get (words : Array UInt32) (index : UInt64) : Option UInt32 :=
  words[index.toNat]?

def set (words : Array UInt32) (index : UInt64) (word : UInt32) : Option (Array UInt32) :=
  if h : index.toNat < words.size then some (words.set index.toNat word h) else none

def slice (words : Array UInt32) (first stop : UInt64) : Option (List UInt32) :=
  if first ≤ stop ∧ stop.toNat ≤ words.size then
    some (words.extract first.toNat stop.toNat).toList
  else none

def addSaturating (a b : UInt64) : UInt64 :=
  (add a b).getD (.ofNatLT Dump.lastOffset (by decide))

def subSaturating (a b : UInt64) : UInt64 :=
  (sub a b).getD 0

/-- There is a result, and it is as told. -/
def Gives {α : Type u} (step : Option α) (holds : α → Prop) : Prop :=
  ∃ result, step = some result ∧ holds result

theorem Gives.some {α : Type u} {holds : α → Prop} {result : α} (held : holds result) :
    Gives (some result) holds :=
  ⟨result, rfl, held⟩

theorem Gives.bind {α β : Type u} {step : Option α} {next : α → Option β} {holds : α → Prop}
    {after : β → Prop} (first : Gives step holds)
    (rest : ∀ result, holds result → Gives (next result) after) : Gives (step >>= next) after := by
  obtain ⟨result, rfl, held⟩ := first
  exact rest result held

theorem Gives.eq {α : Type u} {step : Option α} {result : α} (gives : Gives step (· = result)) :
    step = Option.some result := by
  obtain ⟨_, rfl, rfl⟩ := gives
  rfl

theorem gives_fit {value : Nat} (fits : value < UInt64.size) :
    Gives (fit value) (·.toNat = value) := by
  rw [fit, dif_pos fits]
  exact .some UInt64.toNat_ofNatLT

theorem gives_add {a b : UInt64} (fits : a.toNat + b.toNat < UInt64.size) :
    Gives (add a b) (·.toNat = a.toNat + b.toNat) :=
  gives_fit fits

theorem gives_mul {a b : UInt64} (fits : a.toNat * b.toNat < UInt64.size) :
    Gives (mul a b) (·.toNat = a.toNat * b.toNat) :=
  gives_fit fits

theorem gives_sub {a b : UInt64} (below : b.toNat ≤ a.toNat) :
    Gives (sub a b) (·.toNat = a.toNat - b.toNat) := by
  have le : b ≤ a := UInt64.le_iff_toNat_le.mpr below
  rw [sub, if_pos le]
  exact .some (UInt64.toNat_sub_of_le a b le)

theorem gives_div (a : UInt64) {b : UInt64} (positive : 0 < b.toNat) :
    Gives (div a b) (·.toNat = a.toNat / b.toNat) := by
  have nonzero : b ≠ 0 := by rintro rfl; exact absurd positive (by decide)
  rw [div, if_neg nonzero]
  exact .some (UInt64.toNat_div a b)

theorem gives_rem (a : UInt64) {b : UInt64} (positive : 0 < b.toNat) :
    Gives (rem a b) (·.toNat = a.toNat % b.toNat) := by
  have nonzero : b ≠ 0 := by rintro rfl; exact absurd positive (by decide)
  rw [rem, if_neg nonzero]
  exact .some (UInt64.toNat_mod a b)

theorem toNat_addSaturating (a b : UInt64) :
    (addSaturating a b).toNat = min (a.toNat + b.toNat) Dump.lastOffset := by
  have last : Dump.lastOffset = UInt64.size - 1 := rfl
  unfold addSaturating add fit
  split
  · rw [Option.getD_some, UInt64.toNat_ofNatLT]
    omega
  · rw [Option.getD_none, UInt64.toNat_ofNatLT]
    omega

theorem toNat_subSaturating (a b : UInt64) :
    (subSaturating a b).toNat = a.toNat - b.toNat := by
  unfold subSaturating sub
  split
  · rename_i le
    exact UInt64.toNat_sub_of_le a b le
  · rename_i lt
    rw [UInt64.le_iff_toNat_le] at lt
    exact (Nat.sub_eq_zero_of_le (by omega)).symm

def wordBytes : UInt64 := 4

def byteLength (words : Array UInt32) : Option UInt64 := do
  mul (← size words) wordBytes

def index (address : UInt64) (words : Array UInt32) : Option UInt64 := do
  rem address (← size words)

def read (address : UInt64) (words : Array UInt32) : Option UInt32 := do
  get words (← index address words)

def write (address : UInt64) (word : UInt32) (words : Array UInt32) : Option (Array UInt32) := do
  set words (← index address words) word

variable {image : Image}

theorem gives_size (held : image.byteLength < UInt64.size) :
    Gives (size image.words) (·.toNat = image.depth) := by
  have bytes : image.byteLength = image.depth * 4 := rfl
  exact gives_fit (show image.depth < UInt64.size by omega)

theorem gives_byteLength (held : image.byteLength < UInt64.size) :
    Gives (byteLength image.words) (·.toNat = image.byteLength) := by
  refine (gives_size held).bind fun depth known => ?_
  have whole : depth.toNat * wordBytes.toNat = image.byteLength := by
    rw [known]
    rfl
  rw [← whole]
  exact gives_mul (by rwa [whole])

theorem gives_index (held : image.byteLength < UInt64.size) (address : UInt64) :
    Gives (index address image.words) fun index =>
      index.toNat < image.depth ∧ index.toNat = address.toNat % image.depth := by
  refine (gives_size held).bind fun depth known => ?_
  have positive : 0 < depth.toNat := known ▸ image.depth_pos
  obtain ⟨index, run, wrapped⟩ := gives_rem address positive
  rw [known] at wrapped
  exact ⟨index, run, wrapped ▸ Nat.mod_lt _ image.depth_pos, wrapped⟩

theorem gives_get {index : UInt64} (inside : index.toNat < image.depth) :
    Gives (get image.words index) (· = image.read index.toNat) := by
  have inside : index.toNat < image.words.size := inside
  have here : image.read index.toNat = image.words[index.toNat] := by
    simp only [Image.read, Nat.mod_eq_of_lt inside]
  rw [get, Array.getElem?_eq_getElem inside]
  exact .some here.symm

theorem gives_set {index : UInt64} (inside : index.toNat < image.depth) (word : UInt32) :
    Gives (set image.words index word) (· = (image.write index.toNat word).words) := by
  have inside : index.toNat < image.words.size := inside
  have here : (image.write index.toNat word).words = image.words.set index.toNat word inside := by
    simp only [Image.write, Nat.mod_eq_of_lt inside]
  rw [set, dif_pos inside]
  exact .some here.symm

theorem gives_read (held : image.byteLength < UInt64.size) (address : UInt64) :
    Gives (read address image.words) (· = image.read address.toNat) := by
  refine (gives_index held address).bind fun index ⟨inside, wrapped⟩ => ?_
  have same : image.read index.toNat = image.read address.toNat := by
    simp only [wrapped, Image.read, Image.depth, Nat.mod_mod]
  rw [← same]
  exact gives_get inside

theorem gives_write (held : image.byteLength < UInt64.size) (address : UInt64) (word : UInt32) :
    Gives (write address word image.words) (· = (image.write address.toNat word).words) := by
  refine (gives_index held address).bind fun index ⟨inside, wrapped⟩ => ?_
  have same : image.write index.toNat word = image.write address.toNat word := by
    simp only [wrapped, Image.write, Image.depth, Nat.mod_mod]
  rw [← same]
  exact gives_set inside word

structure Clamped where
  requestedFirst : UInt64
  requestedStop : UInt64
  requested : UInt64
  first : UInt64
  stop : UInt64
  truncated : Bool

def clamp (words : Array UInt32) (start length : UInt64) : Option Clamped := do
  let depth ← size words
  let stopByte := addSaturating start length
  let requestedFirst ← div start wordBytes
  let requestedStop ← div stopByte wordBytes
  let bytes ← byteLength words
  let stop := min requestedStop depth
  some
    { requestedFirst, requestedStop, requested := subSaturating requestedStop requestedFirst
      first := min requestedFirst stop, stop, truncated := bytes < stopByte }

def Clamped.event (words : Array UInt32) (length : UInt64) (range : Clamped) : Option Event :=
  if range.truncated then do
    let available ← mul (← sub range.stop range.first) wordBytes
    let whole ← mul (← size words) wordBytes
    some (.dumpTruncated whole.toNat length.toNat available.toNat)
  else some (.dumpRange range.requestedFirst.toNat range.requestedStop.toNat)

variable {σ : Type} [Sink σ]

def putWords : List UInt32 → (written : UInt64) → σ → Option (UInt64 × Option IoError × σ)
  | [], written, sink => some (written, none, sink)
  | word :: rest, written, sink =>
    match Dump.putWord word sink with
    | (.ok _, sink) => do putWords rest (← add written 1) sink
    | (.error error, sink) => some (written, some error, sink)

/-- Gives the bytes that have been written, too. -/
def dumpTo (words : Array UInt32) (start length : UInt64) (sink : σ) :
    Option (Dump.Report × UInt64 × σ × List Event) := do
  let range ← clamp words start length
  let event ← range.event words length
  let (written, failure, sink) ← putWords (← slice words range.first range.stop) 0 sink
  let bytes ← mul written wordBytes
  match failure with
  | none =>
    some (⟨range.requested.toNat, written.toNat, range.truncated, .complete⟩, bytes, sink,
      [event])
  | some error =>
    some (⟨range.requested.toNat, written.toNat, range.truncated, .writeFailed⟩, bytes, sink,
      [event, .dumpFailed written.toNat error])

def Clamped.range (clamped : Clamped) : Dump.Range :=
  ⟨clamped.requestedFirst.toNat, clamped.requestedStop.toNat, clamped.first.toNat,
    clamped.stop.toNat, clamped.truncated⟩

theorem Clamped.inside (clamped : Clamped) {start length : UInt64}
    (same : clamped.range = Dump.Range.of image start length) :
    clamped.first.toNat ≤ clamped.stop.toNat ∧ clamped.stop.toNat ≤ image.depth := by
  have ordered := Dump.Range.first_le_stop image start length
  have inside := Dump.Range.stop_le_depth image start length
  rw [← same] at ordered inside
  exact ⟨ordered, inside⟩

theorem gives_clamp (held : image.byteLength < UInt64.size) (start length : UInt64) :
    Gives (clamp image.words start length) fun clamped =>
      clamped.range = Dump.Range.of image start length ∧
        clamped.requested.toNat =
          clamped.requestedStop.toNat - clamped.requestedFirst.toNat := by
  refine (gives_size held).bind fun depth known => ?_
  refine (gives_div start (b := wordBytes) (by decide)).bind fun requestedFirst first_eq => ?_
  refine (gives_div (addSaturating start length) (b := wordBytes) (by decide)).bind
    fun requestedStop stop_eq => ?_
  refine (gives_byteLength held).bind fun bytes bytes_eq => ?_
  rw [toNat_addSaturating] at stop_eq
  refine .some ⟨?_, toNat_subSaturating _ _⟩
  simp only [Clamped.range, UInt64.toNat_min, UInt64.lt_iff_toNat_lt, toNat_addSaturating, first_eq,
    stop_eq, bytes_eq, known]
  rfl

theorem gives_event (held : image.byteLength < UInt64.size) (start length : UInt64)
    {clamped : Clamped} (same : clamped.range = Dump.Range.of image start length) :
    Gives (clamped.event image.words length) (· = clamped.range.event image length) := by
  have capacity : image.byteLength = image.depth * 4 := rfl
  obtain ⟨ordered, inside⟩ := clamped.inside same
  rw [Clamped.event, Dump.Range.event, show clamped.range.truncated = clamped.truncated from rfl]
  split
  · refine (gives_sub ordered).bind fun words words_eq => ?_
    have fits : words.toNat * 4 < UInt64.size := by omega
    refine (gives_mul (b := wordBytes) fits).bind fun available available_eq => ?_
    refine (gives_size held).bind fun depth known => ?_
    refine (gives_mul (b := wordBytes) (by rwa [known])).bind fun whole whole_eq => .some ?_
    rw [available_eq, whole_eq, words_eq, known]
    rfl
  · exact .some rfl

theorem gives_slice {first stop : UInt64} (ordered : first.toNat ≤ stop.toNat)
    (inside : stop.toNat ≤ image.depth) :
    Gives (slice image.words first stop) (· = image.slice first.toNat stop.toNat) := by
  rw [slice, if_pos ⟨UInt64.le_iff_toNat_le.mpr ordered, inside⟩]
  exact .some rfl

theorem gives_putWords (words : List UInt32) (written : UInt64) (sink : σ)
    (fits : written.toNat + words.length < UInt64.size) :
    Gives (putWords words written sink) fun ended =>
      (ended.1.toNat, ended.2) = Dump.putWords words written.toNat sink ∧
        ended.1.toNat ≤ written.toNat + words.length := by
  induction words generalizing written sink with
  | nil => exact .some ⟨rfl, Nat.le_refl _⟩
  | cons word rest ih =>
    rw [List.length_cons] at fits
    simp only [putWords, Dump.putWords]
    cases put : Dump.putWord word sink with
    | mk answer after =>
      cases answer with
      | error => exact .some ⟨rfl, Nat.le_add_right _ _⟩
      | ok =>
        have room : written.toNat + 1 < UInt64.size := by omega
        refine (gives_add (b := 1) room).bind
          fun more (known : more.toNat = written.toNat + 1) => ?_
        obtain ⟨ended, run, same, bound⟩ := ih more after (by omega)
        rw [known] at same bound
        exact ⟨ended, run, same, by rw [List.length_cons]; omega⟩

theorem gives_dumpTo (held : image.byteLength < UInt64.size) (start length : UInt64) (sink : σ) :
    Gives (dumpTo image.words start length sink) fun (report, bytes, rest) =>
      (report, rest) = image.dumpTo start length sink ∧
        bytes.toNat = report.bytesWritten := by
  refine (gives_clamp held start length).bind fun clamped ⟨same, requested⟩ => ?_
  have capacity : image.byteLength = image.depth * 4 := rfl
  obtain ⟨ordered, inside⟩ := clamped.inside same
  refine (gives_event held start length same).bind fun event event_eq => ?_
  refine (gives_slice ordered inside).bind fun words words_eq => ?_
  have count : words.length ≤ image.depth := by
    rw [words_eq, Image.slice, Array.length_toList, Array.size_extract]
    exact Nat.le_trans (Nat.sub_le _ _) (Nat.min_le_right _ _)
  have room : (0 : UInt64).toNat + words.length < UInt64.size := by
    rw [UInt64.toNat_zero]
    omega
  refine (gives_putWords words 0 sink room).bind
    fun (written, failure, after) ⟨written_eq, bound⟩ => ?_
  rw [UInt64.toNat_zero, Nat.zero_add] at bound
  have fits : written.toNat * 4 < UInt64.size :=
    Nat.lt_of_le_of_lt (Nat.mul_le_mul_right 4 (Nat.le_trans bound count)) held
  refine (gives_mul (b := wordBytes) fits).bind fun bytes bytes_eq => ?_
  have put : Dump.putWords (image.slice clamped.range.first clamped.range.stop) 0 sink =
      (written.toNat, failure, after) := by
    rw [written_eq, words_eq]
    rfl
  have report (status : Dump.Status) : clamped.range.report written.toNat status =
      ⟨clamped.requested.toNat, written.toNat, clamped.truncated, status⟩ := by
    rw [requested]
    rfl
  cases failure <;>
    · refine .some ⟨?_, bytes_eq⟩
      simp only [Image.dumpTo, ← same, put, report, event_eq]

end Trapping

end Testbench
