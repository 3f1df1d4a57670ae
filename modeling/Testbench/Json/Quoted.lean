import Testbench.Json.Number

/-! Strings, read from behind the opening quote. A string that somebody asked for must
spell characters, so its surrogate escapes come in pairs; in a skipped string any four
hexadecimal digits will do. -/
namespace Testbench.Json

inductive Quoted where
  | plain
  | escape
  | hex (high : Option Nat) (count value : Nat)
  | pair (high : Nat)
  | pairEscape (high : Nat)

namespace Quoted

def escaped? : Char → Option Char
  | '"' => some '"'
  | '\\' => some '\\'
  | '/' => some '/'
  | 'b' => some '\x08'
  | 'f' => some '\x0c'
  | 'n' => some '\n'
  | 'r' => some '\r'
  | 't' => some '\t'
  | _ => none

def isHigh (value : Nat) : Bool :=
  0xD800 ≤ value && value ≤ 0xDBFF

def isLow (value : Nat) : Bool :=
  0xDC00 ≤ value && value ≤ 0xDFFF

def combine (high low : Nat) : Char :=
  Char.ofNat ((high - 0xD800) * 0x400 + (low - 0xDC00) + 0x10000)

def number (strict : Bool) : Option Nat → (value : Nat) → Except Failure (Option Char × Quoted)
  | none, value =>
    if !strict then .ok (none, plain)
    else if isLow value then .error .malformed
    else if isHigh value then .ok (none, pair value)
    else .ok (some (Char.ofNat value), plain)
  | some high, value =>
    if isLow value then .ok (some (combine high value), plain) else .error .malformed

/-- A text ends too early inside an escape by number if it has too few bytes left for
one, whatever they are. -/
def hexFailure (count : Nat) (text : List Char) : Failure :=
  if (String.ofList (text.take 4)).utf8ByteSize < 4 - count then .ended else .malformed

def step (strict : Bool) (c : Char) (rest : List Char) :
    Quoted → Except Failure (Option Char × Quoted)
  | plain =>
    if c = '\\' then .ok (none, escape)
    else if c.toNat < 0x20 then .error .malformed
    else .ok (some c, plain)
  | escape =>
    if c = 'u' then .ok (none, hex none 0 0)
    else match escaped? c with
      | some c => .ok (some c, plain)
      | none => .error .malformed
  | hex high count value =>
    match Text.digit? 16 c with
    | none => .error (hexFailure count (c :: rest))
    | some digit =>
      if count + 1 < 4 then .ok (none, hex high (count + 1) (value * 16 + digit))
      else number strict high (value * 16 + digit)
  | pair high => if c = '\\' then .ok (none, pairEscape high) else .error .malformed
  | pairEscape high => if c = 'u' then .ok (none, hex (some high) 0 0) else .error .malformed

/-- Reads up to the closing quote. The characters come in front of `done`, reversed. -/
def scan (strict : Bool) : Quoted → (done : List Char) → List Char →
    Except Failure (List Char × List Char)
  | _, _, [] => .error .ended
  | plain, done, '"' :: rest => .ok (done.reverse, rest)
  | state, done, c :: rest =>
    match state.step strict c rest with
    | .error failure => .error failure
    | .ok (some c, state) => scan strict state (c :: done) rest
    | .ok (none, state) => scan strict state done rest

end Quoted

def quoted (text : List Char) : Except Failure (List Char × List Char) :=
  Quoted.plain.scan true [] text

end Testbench.Json
