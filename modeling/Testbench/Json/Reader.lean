import Testbench.Json.Skip

/-! Reading values whose type is known beforehand, without building a tree: what a
text is refused for depends on the type that was asked for. Records are read either
from an object or from an array of their fields in order; both forms are driven by
the same list of fields. -/
namespace Testbench.Json

/-- Reads a value from the start of a text and returns what is left of the text. -/
abbrev Reader (α : Type) := List Char → Except Failure (α × List Char)

def dropBlanks (text : List Char) : List Char :=
  text.dropWhile isBlank

def literal : List Char → List Char → Except Failure (List Char)
  | [], text => .ok text
  | _ :: _, [] => .error .ended
  | expected :: left, c :: rest =>
    if c = expected then literal left rest else .error .malformed

/-- Well-formed JSON of the wrong type is a mismatch. Brackets are not looked into. -/
def expectOther {α : Type} : Except Failure α → Failure
  | .ok _ => .mismatched
  | .error failure => failure

def wrongType : List Char → Failure
  | [] => .ended
  | 'n' :: rest => expectOther (literal ['u', 'l', 'l'] rest)
  | 't' :: rest => expectOther (literal ['r', 'u', 'e'] rest)
  | 'f' :: rest => expectOther (literal ['a', 'l', 's', 'e'] rest)
  | '"' :: rest => expectOther (quoted rest)
  | '[' :: _ | '{' :: _ => .mismatched
  | c :: rest =>
    if c = '-' ∨ Number.isDigit c then expectOther (number (c :: rest)) else .malformed

def bool : Reader Bool := fun text =>
  match dropBlanks text with
  | 't' :: rest => (literal ['r', 'u', 'e'] rest).map (true, ·)
  | 'f' :: rest => (literal ['a', 'l', 's', 'e'] rest).map (false, ·)
  | text => .error (wrongType text)

def string : Reader String := fun text =>
  match dropBlanks text with
  | '"' :: rest => (quoted rest).map fun (chars, rest) => (String.ofList chars, rest)
  | text => .error (wrongType text)

def natural : Reader UInt64 := fun text =>
  match dropBlanks text with
  | [] => .error .ended
  | c :: rest =>
    if c = '-' ∨ Number.isDigit c then
      match number (c :: rest) with
      | .ok (some value, rest) => .ok (value, rest)
      | .ok (none, _) => .error .mismatched
      | .error failure => .error failure
    else .error (wrongType (c :: rest))

def null : Reader Unit := fun text =>
  match dropBlanks text with
  | 'n' :: rest => (literal ['u', 'l', 'l'] rest).map ((), ·)
  | text => .error (wrongType text)

def optional {α : Type} (read : Reader α) : Reader (Option α) := fun text =>
  match dropBlanks text with
  | 'n' :: rest => (literal ['u', 'l', 'l'] rest).map (none, ·)
  | text => (read text).map fun (value, rest) => (some value, rest)

def colon (text : List Char) : Except Failure (List Char) :=
  match dropBlanks text with
  | [] => .error .ended
  | ':' :: rest => .ok rest
  | _ => .error .malformed

structure RecordField (ρ : Type) where
  name : String
  read : ρ → Reader ρ

def RecordField.of {ρ α : Type} (name : String) (read : Reader α) (set : ρ → α → ρ) :
    RecordField ρ :=
  ⟨name, fun record text => (read text).map fun (value, rest) => (set record value, rest)⟩

def elements {ρ : Type} : List (RecordField ρ) → (first : Bool) → ρ → Reader ρ
  | [], _, record, text => .ok (record, text)
  | field :: fields, first, record, text =>
    match dropBlanks text with
    | [] => .error .ended
    | ']' :: rest => .ok (record, ']' :: rest)
    | c :: rest =>
      let element := fun text =>
        match field.read record text with
        | .ok (record, rest) => elements fields false record rest
        | .error failure => .error failure
      if first then element (c :: rest)
      else if c = ',' then
        match dropBlanks rest with
        | [] => .error .ended
        | ']' :: _ => .error .malformed
        | rest => element rest
      else .error .malformed

def closeArray (text : List Char) : Except Failure (List Char) :=
  match dropBlanks text with
  | [] => .error .ended
  | ']' :: rest => .ok rest
  | _ => .error .malformed

def nextKey (first : Bool) (text : List Char) : Except Failure (Option (List Char) × List Char) :=
  match dropBlanks text with
  | [] => .error .ended
  | '}' :: rest => .ok (none, rest)
  | c :: rest =>
    let key := fun (text : List Char) => match text with
      | '"' :: rest => (quoted rest).map fun (key, rest) => (some key, rest)
      | _ => .error .malformed
    if first then key (c :: rest)
    else if c = ',' then
      match dropBlanks rest with
      | [] => .error .ended
      | rest => key rest
    else .error .malformed

/-- Object members up to the closing brace. A member without a field is skipped; a field
may occur once. Every member is longer than one character, so as many rounds as the text
has characters are enough. -/
def members {ρ : Type} (fields : List (RecordField ρ)) :
    (rounds : Nat) → (seen : List String) → (first : Bool) → ρ → Reader ρ
  | 0, _, _, _, _ => .error .ended
  | rounds + 1, seen, first, record, text => do
    match ← nextKey first text with
    | (none, rest) => .ok (record, rest)
    | (some key, rest) =>
      match fields.find? (·.name = String.ofList key) with
      | some field =>
        if field.name ∈ seen then .error .mismatched
        else
          let (record, rest) ← field.read record (← colon rest)
          members fields rounds (field.name :: seen) false record rest
      | none => members fields rounds seen false record (← skip (← colon rest))

/-- A record in either form. `finish` fails if a field that is needed was not given. -/
def record {ρ α : Type} (fields : List (RecordField ρ)) (start : ρ) (finish : ρ → Option α) :
    Reader α := fun text =>
  let finished := fun (record : ρ) => match finish record with
    | some value => .ok value
    | none => .error Failure.mismatched
  match dropBlanks text with
  | '[' :: rest => do
    let (record, rest) ← elements fields true start rest
    let value ← finished record
    return (value, ← closeArray rest)
  | '{' :: rest => do
    let (record, rest) ← members fields (rest.length + 1) [] true start rest
    return (← finished record, rest)
  | text => .error (wrongType text)

def whole {α : Type} (read : Reader α) (text : List Char) : Except Failure α :=
  match read text with
  | .error failure => .error failure
  | .ok (value, rest) => if (dropBlanks rest).isEmpty then .ok value else .error .malformed

end Testbench.Json
