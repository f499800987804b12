import BringUp.Text.Hidden

/-!
This module contains tables of texts, with columns as wide as their widest cell.
-/

namespace BringUp.Text

/--
The ranges of characters that take up two columns, by code point, with both ends.
-/
def wideRanges : List (Nat × Nat) :=
  [ (0x1100, 0x115f), (0x2e80, 0x303e), (0x3041, 0x33ff), (0x3400, 0x4dbf), (0x4e00, 0x9fff),
    (0xa000, 0xa4cf), (0xac00, 0xd7a3), (0xf900, 0xfaff), (0xfe30, 0xfe6f), (0xff00, 0xff60),
    (0xffe0, 0xffe6), (0x1f300, 0x1f64f), (0x1f680, 0x1f6ff), (0x1f900, 0x1f9ff),
    (0x20000, 0x2fffd), (0x30000, 0x3fffd) ]

def charWidth (c : Char) : Nat :=
  if c.toNat < 0x300 then 1
  else if wideRanges.any fun (first, last) => first ≤ c.toNat && c.toNat ≤ last then 2
  else if isHidden c then 0
  else 1

def width (s : String) : Nat := s.toList.foldl (fun n c => n + charWidth c) 0

def columnWidths (rows : List (List String)) : List Nat :=
  rows.foldl widen []
where
  widen : List Nat → List String → List Nat
    | ws, [] => ws
    | [], c :: cs => width c :: widen [] cs
    | w :: ws, c :: cs => max w (width c) :: widen ws cs

def renderRow (widths : List Nat) (row : List String) : String :=
  String.join ((row.zip widths).map fun (c, w) =>
    " " ++ c ++ String.ofList (List.replicate (w - width c) ' ') ++ " ")

def splitRow (row : List String) : List (List String) :=
  let cells := row.map fun c => c.splitOn "\n"
  let height := (cells.map List.length).foldl max 1
  (List.range height).map fun n => cells.map fun lines => lines.getD n ""

def renderTable (header : List String) (rows : List (List String)) : String :=
  let rows := (header :: rows).flatMap splitRow
  String.join (rows.map fun r => renderRow (columnWidths rows) r ++ "\n")

end BringUp.Text
