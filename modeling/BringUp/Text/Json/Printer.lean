import BringUp.Number.Digits
import BringUp.Text.Json.Basic

/-!
This module contains the two written forms of JSON values: on one line without any blanks, and with
one member or item on each line.
-/

namespace BringUp.Json

def escapeChar (c : Char) : List Char :=
  if c = '"' then ['\\', '"']
  else if c = '\\' then ['\\', '\\']
  else if c = '\n' then ['\\', 'n']
  else if c = '\r' then ['\\', 'r']
  else if c = '\t' then ['\\', 't']
  else if c = '\x08' then ['\\', 'b']
  else if c = '\x0c' then ['\\', 'f']
  else if c.toNat < 32 then '\\' :: 'u' :: Number.hexDigits 4 c.toNat
  else [c]

def quote (s : String) : String :=
  String.ofList ('"' :: s.toList.flatMap escapeChar ++ ['"'])

mutual

def compact : Json → String
  | null => "null"
  | bool true => "true"
  | bool false => "false"
  | integer n => toString n
  | decimal literal => literal
  | string s => quote s
  | array items => "[" ++ String.intercalate "," (compactItems items) ++ "]"
  | object members => "\x7b" ++ String.intercalate "," (compactMembers members) ++ "\x7d"

def compactItems : List Json → List String
  | [] => []
  | v :: vs => compact v :: compactItems vs

def compactMembers : List (String × Json) → List String
  | [] => []
  | (k, v) :: ms => (quote k ++ ":" ++ compact v) :: compactMembers ms

end

def indent (depth : Nat) : String :=
  String.ofList (List.replicate (2 * depth) ' ')

def block (depth : Nat) (opening closing : String) (lines : List String) : String :=
  if lines.isEmpty then opening ++ closing
  else
    opening ++ "\n" ++ String.intercalate ",\n" (lines.map (indent (depth + 1) ++ ·))
      ++ "\n" ++ indent depth ++ closing

mutual

/--
Write a value with each member and item on a line of its own, two blanks deeper than its container.
-/
def pretty (depth : Nat) : Json → String
  | array items => block depth "[" "]" (prettyItems depth items)
  | object members => block depth "\x7b" "\x7d" (prettyMembers depth members)
  | v => compact v

def prettyItems (depth : Nat) : List Json → List String
  | [] => []
  | v :: vs => pretty (depth + 1) v :: prettyItems depth vs

def prettyMembers (depth : Nat) : List (String × Json) → List String
  | [] => []
  | (k, v) :: ms => (quote k ++ ": " ++ pretty (depth + 1) v) :: prettyMembers depth ms

end

end BringUp.Json
