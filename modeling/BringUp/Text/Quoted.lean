import BringUp.Text.Hidden

/-!
This module contains texts in quotes, as they are shown in messages: what can not be seen is written
as an escape.
-/

namespace BringUp.Text

def quoteChar (c : Char) : List Char :=
  if c = '"' then ['\\', '"']
  else if c = '\\' then ['\\', '\\']
  else if c = '\n' then ['\\', 'n']
  else if c = '\r' then ['\\', 'r']
  else if c = '\t' then ['\\', 't']
  else if c = '\x00' then ['\\', '0']
  else if isHidden c then ['\\', 'u', '\x7b'] ++ Nat.toDigits 16 c.toNat ++ ['\x7d']
  else [c]

def quoted (s : String) : String :=
  String.ofList ('"' :: s.toList.flatMap quoteChar ++ ['"'])

def quotedList (ts : List String) : String :=
  if ts.isEmpty then "[]"
  else "[\n" ++ String.join (ts.map fun t => "    " ++ quoted t ++ ",\n") ++ "]"

end BringUp.Text
