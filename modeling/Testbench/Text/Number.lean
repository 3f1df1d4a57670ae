/-! Unsigned numbers as people write them: an optional plus sign, then at least
one digit. Any number of leading zeros is fine, because only the value has to fit
a 64-bit word. -/
namespace Testbench.Text

def digit? (base : Nat) (c : Char) : Option Nat :=
  let value :=
    if '0' ≤ c ∧ c ≤ '9' then some (c.toNat - '0'.toNat)
    else if 'a' ≤ c ∧ c ≤ 'f' then some (c.toNat - 'a'.toNat + 10)
    else if 'A' ≤ c ∧ c ≤ 'F' then some (c.toNat - 'A'.toNat + 10)
    else none
  value.filter (· < base)

def ofDigits? (base : Nat) (digits : List Char) : Option Nat :=
  digits.foldlM (fun value c => (digit? base c).map (value * base + ·)) 0

def unsigned? (base : Nat) (text : List Char) : Option UInt64 :=
  let digits := match text with
    | '+' :: rest => rest
    | _ => text
  if digits.isEmpty then none
  else (ofDigits? base digits).bind fun value =>
    if h : value < UInt64.size then some (UInt64.ofNatLT value h) else none

def decimal? (text : List Char) : Option UInt64 :=
  unsigned? 10 text

/-- Drops the mark that may stand before hexadecimal digits, once. -/
def unmarked : List Char → List Char
  | '0' :: 'x' :: rest => rest
  | '0' :: 'X' :: rest => rest
  | text => text

def hexadecimal? (text : List Char) : Option UInt64 :=
  unsigned? 16 (unmarked text)

def hexadecimal (width value : Nat) : String :=
  let digits := Nat.toDigits 16 value
  String.ofList (List.replicate (width - digits.length) '0' ++ digits)

def decimal (value : Nat) : String :=
  String.ofList (Nat.toDigits 10 value)

end Testbench.Text
