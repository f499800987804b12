/-!
This module contains the search for one text inside another and the splitting of text into lines.
The main statement is that `occursIn` decides whether its pattern is a consecutive part of the text.
-/

namespace BringUp.Text

def occursIn (pattern : List Char) : List Char → Bool
  | [] => pattern.isEmpty
  | c :: cs => pattern.isPrefixOf (c :: cs) || occursIn pattern cs

theorem occursIn_iff_isInfix {pattern text : List Char}
    : occursIn pattern text = true ↔ pattern <:+: text := by
  induction text with
  | nil => simp [occursIn]
  | cons c cs ih => simp [occursIn, ih, List.infix_cons_iff]

def contains (text pattern : String) : Bool :=
  occursIn pattern.toList text.toList

def dropReturn : List Char → List Char
  | '\r' :: cs => cs
  | cs => cs

/--
Split a text into its lines. A line feed ends a line and belongs to no line, and so does a carriage
return right before it. The end of the text ends the last line, if anything follows the last feed.
-/
def lines (text : List Char) : List (List Char) :=
  go [] text
where
  go (current : List Char) : List Char → List (List Char)
    | [] => if current.isEmpty then [] else [current.reverse]
    | c :: cs =>
      if c = '\n' then (dropReturn current).reverse :: go [] cs
      else go (c :: current) cs

def mapChar (old new : Char) (text : String) : String :=
  String.ofList (text.toList.map fun c => if c = old then new else c)

end BringUp.Text
