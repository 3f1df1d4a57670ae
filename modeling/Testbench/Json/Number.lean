import Testbench.Text.Number

/-! Numbers, and what may be wrong with a text. A number has a value only if it is a natural one
that fits 64 bits; any other is read for its form alone, but must lie in the range of double
precision. Reading stops at the first thing that is wrong, and which kind of wrong it is matters to
callers: a text that ended early may still be arriving, a malformed one is no JSON at all, and a
mismatched one is JSON of the wrong shape. -/
namespace Testbench.Json

inductive Failure where
  | ended
  | malformed
  | mismatched
  deriving DecidableEq, Repr

def Failure.message : Failure → String
  | .ended => "the text ends too early"
  | .malformed => "the text is not JSON"
  | .mismatched => "the text does not describe a configuration"

/-- The nearest integer with 53 significant bits; a tie goes to the even one. -/
def roundSignificand (n : Nat) : Nat :=
  let shift := n.log2 + 1 - 53
  let kept := n >>> shift
  let unit := 1 <<< shift
  let lost := n % unit
  let half := unit / 2
  let up := shift ≠ 0 ∧ (half < lost ∨ half = lost ∧ kept % 2 = 1)
  (if up then kept + 1 else kept) <<< shift

/-- From here on products round to infinity. -/
def overflowBound : Nat := (1 <<< 1024) - (1 <<< 970)

def largestExponent : Nat := 308

/-- Whether `significand * 10 ^ exponent` overflows when both factors are rounded first.
Numbers that are too small round to zero, which is no failure. -/
def overflows (significand : Nat) (exponent : Int) : Bool :=
  significand != 0 && match exponent with
    | .negSucc _ => false
    | .ofNat exponent =>
      largestExponent < exponent ||
        overflowBound ≤ roundSignificand significand * roundSignificand (Nat.pow 10 exponent)

namespace Number

def isDigit (c : Char) : Bool :=
  '0' ≤ c && c ≤ '9'

def digitValue (c : Char) : Nat :=
  c.toNat - '0'.toNat

def integer (digits : List Char) : Nat × Nat :=
  digits.foldl (fun (significand, dropped) c =>
    let longer := significand * 10 + digitValue c
    if dropped = 0 ∧ longer < UInt64.size then (longer, 0) else (significand, dropped + 1)) (0, 0)

def fraction (significand : Nat) (exponent : Int) (digits : List Char) : Nat × Int :=
  let (significand, exponent, _) := digits.foldl (fun (significand, exponent, full) c =>
    let longer := significand * 10 + digitValue c
    if full || UInt64.size ≤ longer then (significand, exponent, true)
    else (longer, exponent - 1, false)) (significand, exponent, false)
  (significand, exponent)

def inRange (significand : Nat) (exponent : Int) (rest : List Char) :
    Except Failure (Option UInt64 × List Char) :=
  if overflows significand exponent then .error .malformed else .ok (none, rest)

def readExponent (significand : Nat) (exponent : Int) (text : List Char) :
    Except Failure (Option UInt64 × List Char) :=
  let (sign, text) : Int × List Char := match text with
    | '+' :: rest => (1, rest)
    | '-' :: rest => (-1, rest)
    | _ => (1, text)
  match text.span isDigit with
  | ([], []) => .error .ended
  | ([], _ :: _) => .error .malformed
  | (digits, rest) =>
    inRange significand (exponent + sign * digits.foldl (fun n c => n * 10 + digitValue c) 0) rest

def readFraction (significand : Nat) (exponent : Int) (text : List Char) :
    Except Failure (Option UInt64 × List Char) :=
  match text.span isDigit with
  | ([], []) => .error .ended
  | ([], _ :: _) => .error .malformed
  | (digits, rest) =>
    let (significand, exponent) := fraction significand exponent digits
    match rest with
    | 'e' :: rest | 'E' :: rest => readExponent significand exponent rest
    | _ => inRange significand exponent rest

def readUnsigned (text : List Char) : Except Failure (Option UInt64 × List Char) :=
  match text.span isDigit with
  | ([], []) => .error .ended
  | ([], _ :: _) => .error .malformed
  | ('0' :: _ :: _, _) => .error .malformed
  | (digits, rest) =>
    let (significand, dropped) := integer digits
    match rest with
    | '.' :: rest => readFraction significand dropped rest
    | 'e' :: rest | 'E' :: rest => readExponent significand dropped rest
    | _ =>
      if dropped = 0 then .ok (some (UInt64.ofNat significand), rest)
      else inRange significand dropped rest

end Number

/-- A number and its value, if it is a natural number that fits. Minus zero is not. -/
def number : List Char → Except Failure (Option UInt64 × List Char)
  | '-' :: rest =>
    match Number.readUnsigned rest with
    | .ok (_, rest) => .ok (none, rest)
    | .error failure => .error failure
  | text => Number.readUnsigned text

end Testbench.Json
