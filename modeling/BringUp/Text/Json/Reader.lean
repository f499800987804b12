import BringUp.Number.Digits
import BringUp.Text.Json.Basic

/-!
This module contains the reading of JSON text. The text is cut into tokens character by character,
and the tokens are put together with a stack of the containers that are still open.
-/

namespace BringUp.Json

inductive Token where
  | openArray
  | closeArray
  | openObject
  | closeObject
  | colon
  | comma
  | text (s : String)
  | word (s : List Char)

/--
What the characters read last are part of. The characters of a string or word are kept from last to
first.
-/
inductive Scan where
  | blank
  | word (cs : List Char)
  | text (cs : List Char)
  | escape (cs : List Char)
  | code (cs : List Char) (high : Option Nat) (owed value : Nat)
  | pair (cs : List Char) (high : Nat)
  | pairEscape (cs : List Char) (high : Nat)

def isBlank (c : Char) : Bool :=
  c = ' ' || c = '\n' || c = '\t' || c = '\r'

def isWordChar (c : Char) : Bool :=
  c.isAlphanum || c = '-' || c = '+' || c = '.'

def unescape? (c : Char) : Option Char :=
  if c = '"' ∨ c = '\\' ∨ c = '/' then some c
  else if c = 'n' then some '\n'
  else if c = 't' then some '\t'
  else if c = 'r' then some '\r'
  else if c = 'b' then some '\x08'
  else if c = 'f' then some '\x0c'
  else none

/--
Go on after the code unit `value` of an escape. Two halves of a pair make one character, and a half
without the other makes none.
-/
def finishCode (cs : List Char) (high : Option Nat) (value : Nat) : Option Scan :=
  match high with
  | some h =>
    if 0xDC00 ≤ value ∧ value < 0xE000 then
      some (.text (Char.ofNat (0x10000 + (h - 0xD800) * 0x400 + (value - 0xDC00)) :: cs))
    else none
  | none =>
    if 0xD800 ≤ value ∧ value < 0xDC00 then some (.pair cs value)
    else if 0xDC00 ≤ value ∧ value < 0xE000 then none
    else some (.text (Char.ofNat value :: cs))

def scanPlain (c : Char) : Option (Scan × List Token) :=
  if isBlank c then some (.blank, [])
  else if c = '[' then some (.blank, [.openArray])
  else if c = ']' then some (.blank, [.closeArray])
  else if c = '\x7b' then some (.blank, [.openObject])
  else if c = '\x7d' then some (.blank, [.closeObject])
  else if c = ':' then some (.blank, [.colon])
  else if c = ',' then some (.blank, [.comma])
  else if c = '"' then some (.text [], [])
  else if isWordChar c then some (.word [c], [])
  else none

def scanStep : Scan → Char → Option (Scan × List Token)
  | .blank, c => scanPlain c
  | .word cs, c =>
    if isWordChar c then some (.word (c :: cs), [])
    else (scanPlain c).map fun (s, ts) => (s, .word cs.reverse :: ts)
  | .text cs, c =>
    if c = '"' then some (.blank, [.text (String.ofList cs.reverse)])
    else if c = '\\' then some (.escape cs, [])
    else if c.toNat < 32 then none
    else some (.text (c :: cs), [])
  | .escape cs, c =>
    if c = 'u' then some (.code cs none 4 0, [])
    else (unescape? c).map fun c => (.text (c :: cs), [])
  | .code cs high owed value, c =>
    if 16 ≤ Number.digitValue c then none
    else
      let value := 16 * value + Number.digitValue c
      if owed ≤ 1 then (finishCode cs high value).map fun s => (s, [])
      else some (.code cs high (owed - 1) value, [])
  | .pair cs high, c => if c = '\\' then some (.pairEscape cs high, []) else none
  | .pairEscape cs high, c => if c = 'u' then some (.code cs (some high) 4 0, []) else none

def tokens? (text : List Char) : Option (List Token) :=
  go .blank text
where
  go : Scan → List Char → Option (List Token)
    | .blank, [] => some []
    | .word cs, [] => some [.word cs.reverse]
    | _, [] => none
    | s, c :: cs => do
      let (s, ts) ← scanStep s c
      let rest ← go s cs
      some (ts ++ rest)

def isDigits (cs : List Char) : Bool :=
  !cs.isEmpty && cs.all Char.isDigit

def isWhole (cs : List Char) : Bool :=
  isDigits cs && (cs.head? != some '0' || cs.length = 1)

def isDecimal (cs : List Char) : Bool :=
  let cs := if cs.head? = some '-' then cs.tail else cs
  let whole := cs.takeWhile Char.isDigit
  let cs := cs.dropWhile Char.isDigit
  let fraction := if cs.head? = some '.' then some (cs.tail.takeWhile Char.isDigit) else none
  let cs := if cs.head? = some '.' then cs.tail.dropWhile Char.isDigit else cs
  isWhole whole && fraction.all isDigits &&
    match cs with
    | [] => true
    | e :: cs =>
      (e = 'e' || e = 'E') &&
        isDigits (if cs.head? = some '-' ∨ cs.head? = some '+' then cs.tail else cs)

/--
The value of a word. Zero with a sign is no integer.
-/
def ofWord? (cs : List Char) : Option Json :=
  if cs = ['n', 'u', 'l', 'l'] then some null
  else if cs = ['t', 'r', 'u', 'e'] then some (bool true)
  else if cs = ['f', 'a', 'l', 's', 'e'] then some (bool false)
  else if isWhole cs then some (integer (Nat.ofDigitChars 10 cs 0))
  else if cs.head? = some '-' ∧ isWhole cs.tail ∧ cs ≠ ['-', '0'] then
    some (integer (-(Nat.ofDigitChars 10 cs.tail 0 : Int)))
  else if isDecimal cs then some (decimal (String.ofList cs))
  else none

/--
A container that is still open, its contents from last to first. An object may wait for the value
of a member.
-/
inductive Frame where
  | array (items : List Json)
  | object (members : List (String × Json)) (key : Option String)

inductive Expect where
  | value
  | firstItem
  | key
  | firstKey
  | colon
  | separator
  | nothing (v : Json)

structure Builder where
  frames : List Frame
  expect : Expect

namespace Builder

def put (frames : List Frame) (v : Json) : Option Builder :=
  match frames with
  | [] => some ⟨[], .nothing v⟩
  | .array items :: fs => some ⟨.array (v :: items) :: fs, .separator⟩
  | .object members (some k) :: fs => some ⟨.object ((k, v) :: members) none :: fs, .separator⟩
  | .object _ none :: _ => none

def start (frames : List Frame) : Token → Option Builder
  | .openArray => some ⟨.array [] :: frames, .firstItem⟩
  | .openObject => some ⟨.object [] none :: frames, .firstKey⟩
  | .text s => put frames (string s)
  | .word cs => (ofWord? cs).bind (put frames)
  | _ => none

def close (frames : List Frame) (t : Token) : Option Builder :=
  match t, frames with
  | .closeArray, .array items :: fs => put fs (.array items.reverse)
  | .closeObject, .object members none :: fs => put fs (.object members.reverse)
  | _, _ => none

def name (frames : List Frame) (t : Token) : Option Builder :=
  match t, frames with
  | .text k, .object members none :: fs => some ⟨.object members (some k) :: fs, .colon⟩
  | _, _ => none

def step (b : Builder) (t : Token) : Option Builder :=
  match b.expect with
  | .value => start b.frames t
  | .firstItem =>
    match t with
    | .closeArray => close b.frames t
    | _ => start b.frames t
  | .key => name b.frames t
  | .firstKey =>
    match t with
    | .closeObject => close b.frames t
    | _ => name b.frames t
  | .colon =>
    match t with
    | .colon => some ⟨b.frames, .value⟩
    | _ => none
  | .separator =>
    match t, b.frames with
    | .comma, .array _ :: _ => some ⟨b.frames, .value⟩
    | .comma, .object _ _ :: _ => some ⟨b.frames, .key⟩
    | _, _ => close b.frames t
  | .nothing _ => none

end Builder

def ofTokens? (ts : List Token) : Option Json :=
  match ts.foldlM Builder.step ⟨[], .value⟩ with
  | some ⟨_, .nothing v⟩ => some v
  | _ => none

def parse? (text : String) : Option Json :=
  (tokens? text.toList).bind ofTokens?

end BringUp.Json
