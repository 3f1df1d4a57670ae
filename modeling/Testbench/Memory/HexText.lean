import Testbench.Memory.Image
import Testbench.Text.Layout
import Testbench.Text.Number

/-! The text form of a memory image: words in hexadecimal at consecutive addresses,
`@` directives that move the address, and comments up to the end of the line.
Reading is strictly left to right, so the first defect is the one reported and the
words before it have been stored. -/
namespace Testbench.HexText

structure Token where
  line : Nat
  text : List Char

def code : List Char → List Char
  | [] => []
  | '#' :: _ => []
  | '/' :: '/' :: _ => []
  | c :: rest => c :: code rest

def tokens (text : List Char) : List Token :=
  ((Text.lines text).zipIdx 1).flatMap fun (line, number) =>
    (Text.words (code line)).map (⟨number, ·⟩)

/-- Underscores may stand anywhere behind the mark, to group digits. -/
def value? (text : List Char) : Option UInt64 :=
  Text.unsigned? 16 ((Text.unmarked text).filter (· != '_'))

def word? (text : List Char) : Option UInt32 :=
  (value? text).bind fun value =>
    if value.toNat < UInt32.size then some value.toUInt32 else none

inductive Defect where
  | invalidWord (line : Nat) (token : String)
  | invalidAddress (line : Nat) (token : String)
  | overflow (line address depth : Nat)
  deriving DecidableEq, Repr

def Defect.message : Defect → String
  | .invalidWord line token =>
    "line " ++ Text.decimal line ++ ": invalid hex word '" ++ token ++ "'"
  | .invalidAddress line token =>
    "line " ++ Text.decimal line ++ ": invalid address directive '" ++ token ++ "'"
  | .overflow line address depth =>
    "line " ++ Text.decimal line ++ ": word address 0x" ++ Text.hexadecimal 0 address ++
      " exceeds memory depth of " ++ Text.decimal depth ++ " words"

/-- Stores the tokens from `address` on and counts the words on top of `stored`. The
image comes back also after a defect, with what was stored before it. -/
def store : List Token → (address stored : Nat) → Image → Except Defect Nat × Image
  | [], _, stored, image => (.ok stored, image)
  | ⟨line, '@' :: digits⟩ :: rest, _, stored, image =>
    match value? digits with
    | some address => store rest address.toNat stored image
    | none => (.error (.invalidAddress line (String.ofList ('@' :: digits))), image)
  | ⟨line, text⟩ :: rest, address, stored, image =>
    match word? text with
    | none => (.error (.invalidWord line (String.ofList text)), image)
    | some word =>
      if address < image.depth then store rest (address + 1) (stored + 1) (image.write address word)
      else (.error (.overflow line address image.depth), image)

theorem depth_store (tokens : List Token) (address stored : Nat) (image : Image) :
    (store tokens address stored image).2.depth = image.depth := by
  fun_induction store tokens address stored image <;> simp_all

end Testbench.HexText

namespace Testbench

def Image.parseHex (text : String) (image : Image) : Except HexText.Defect Nat × Image :=
  HexText.store (HexText.tokens text.toList) 0 0 image

end Testbench
