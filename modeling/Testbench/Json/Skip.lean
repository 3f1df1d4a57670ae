import Testbench.Json.Quoted
import Testbench.Json.Number

/-! Skipping a value of any depth. The reader keeps the open brackets in a list and
moves on by one character at a time, so nesting costs it nothing. Numbers are checked
for their form only, and one that is cut off at the end of the text is malformed. -/
namespace Testbench.Json

def isBlank (c : Char) : Bool :=
  c == ' ' || c == '\t' || c == '\n' || c == '\r'

inductive Bracket where
  | array
  | object
  deriving DecidableEq

def Bracket.closing : Bracket → Char
  | array => ']'
  | object => '}'

inductive NumberPart where
  | sign
  | zero
  | integer
  | point
  | fraction
  | exponentMark
  | exponentSign
  | exponent

namespace NumberPart

def complete : NumberPart → Bool
  | zero | integer | fraction | exponent => true
  | sign | point | exponentMark | exponentSign => false

def next? (c : Char) : NumberPart → Option NumberPart
  | sign => if c = '0' then some zero else if Number.isDigit c then some integer else none
  | zero => if c = '.' then some point else if c = 'e' ∨ c = 'E' then some exponentMark else none
  | integer =>
    if Number.isDigit c then some integer
    else if c = '.' then some point
    else if c = 'e' ∨ c = 'E' then some exponentMark else none
  | point => if Number.isDigit c then some fraction else none
  | fraction =>
    if Number.isDigit c then some fraction
    else if c = 'e' ∨ c = 'E' then some exponentMark else none
  | exponentMark =>
    if c = '+' ∨ c = '-' then some exponentSign
    else if Number.isDigit c then some exponent else none
  | exponentSign | exponent => if Number.isDigit c then some exponent else none

end NumberPart

inductive Skip where
  | value
  | literal (left : List Char)
  | number (part : NumberPart)
  | text (isKey : Bool) (state : Quoted)
  | firstElement
  | firstKey
  | key
  | colon
  | afterValue

namespace Skip

inductive Move where
  | more (state : Skip) (opened : List Bracket)
  /-- The value ended with this character. -/
  | done
  /-- The value ended before this character. -/
  | before

def closed : List Bracket → Move
  | [] => .done
  | opened => .more afterValue opened

def continueAfter (c : Char) : List Bracket → Except Failure Move
  | [] => .ok .before
  | bracket :: outer =>
    if isBlank c then .ok (.more afterValue (bracket :: outer))
    else if c = ',' then
      .ok (.more (match bracket with | .array => value | .object => key) (bracket :: outer))
    else if c = bracket.closing then .ok (closed outer)
    else .error .malformed

def beginValue (c : Char) (opened : List Bracket) : Except Failure Move :=
  if isBlank c then .ok (.more value opened)
  else match c with
    | 'n' => .ok (.more (literal ['u', 'l', 'l']) opened)
    | 't' => .ok (.more (literal ['r', 'u', 'e']) opened)
    | 'f' => .ok (.more (literal ['a', 'l', 's', 'e']) opened)
    | '-' => .ok (.more (number .sign) opened)
    | '0' => .ok (.more (number .zero) opened)
    | '"' => .ok (.more (text false .plain) opened)
    | '[' => .ok (.more firstElement (.array :: opened))
    | '{' => .ok (.more firstKey (.object :: opened))
    | _ => if Number.isDigit c then .ok (.more (number .integer) opened) else .error .malformed

def beginKey (c : Char) (opened : List Bracket) : Except Failure Move :=
  if c = '"' then .ok (.more (text true .plain) opened) else .error .malformed

def step (c : Char) (rest : List Char) (opened : List Bracket) : Skip → Except Failure Move
  | value => beginValue c opened
  | literal [] => .error .malformed
  | literal (expected :: left) =>
    if c ≠ expected then .error .malformed
    else .ok (if left.isEmpty then closed opened else .more (literal left) opened)
  | number part =>
    match part.next? c with
    | some part => .ok (.more (number part) opened)
    | none =>
      if !part.complete || (Number.isDigit c && opened.isEmpty) then .error .malformed
      else continueAfter c opened
  | text isKey .plain =>
    if c = '"' then .ok (if isKey then .more colon opened else closed opened)
    else match Quoted.plain.step false c rest with
      | .ok (_, state) => .ok (.more (text isKey state) opened)
      | .error failure => .error failure
  | text isKey state =>
    match state.step false c rest with
    | .ok (_, state) => .ok (.more (text isKey state) opened)
    | .error failure => .error failure
  | firstElement =>
    if isBlank c then .ok (.more firstElement opened)
    else if c = ']' then .ok (closed opened.tail)
    else beginValue c opened
  | firstKey =>
    if isBlank c then .ok (.more firstKey opened)
    else if c = '}' then .ok (closed opened.tail)
    else beginKey c opened
  | key => if isBlank c then .ok (.more key opened) else beginKey c opened
  | colon =>
    if isBlank c then .ok (.more colon opened)
    else if c = ':' then .ok (.more value opened)
    else .error .malformed
  | afterValue => continueAfter c opened

/-- The text is at its end. Only a complete number outside all brackets is a value. -/
def atEnd (opened : List Bracket) : Skip → Except Failure (List Char)
  | number part =>
    if !part.complete then .error .malformed
    else if opened.isEmpty then .ok [] else .error .ended
  | _ => .error .ended

def run : Skip → List Bracket → List Char → Except Failure (List Char)
  | state, opened, [] => state.atEnd opened
  | state, opened, c :: rest =>
    match state.step c rest opened with
    | .error failure => .error failure
    | .ok (.more state opened) => run state opened rest
    | .ok .done => .ok rest
    | .ok .before => .ok (c :: rest)

end Skip

def skip (text : List Char) : Except Failure (List Char) :=
  Skip.value.run [] text

end Testbench.Json
