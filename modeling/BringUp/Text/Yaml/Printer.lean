import BringUp.Text.Yaml.Basic

/-!
This module contains the writing of rows in YAML. A text is written without quotes where it can not
be taken for anything else.
-/

namespace BringUp.Yaml

inductive Cell where
  | text (s : String)
  | flag (b : Bool)
deriving DecidableEq

abbrev Row := List (String × Cell)

def isDecimal (cs : List Char) : Bool :=
  let whole := cs.takeWhile Char.isDigit
  let rest := cs.dropWhile Char.isDigit
  let fraction := if rest.head? = some '.' then rest.tail.takeWhile Char.isDigit else []
  let rest := if rest.head? = some '.' then rest.tail.dropWhile Char.isDigit else rest
  !(whole.isEmpty && fraction.isEmpty) &&
    match rest with
    | [] => true
    | e :: ds => (e = 'e' || e = 'E') && !(unsigned ds).isEmpty && (unsigned ds).all Char.isDigit

def isNumber (s : String) : Bool :=
  let cs := s.toList
  let size := unsigned cs
  (magnitude? size).isSome || hasNeedlessZero cs || isDecimal size ||
    [".inf", ".Inf", ".INF", ".nan", ".NaN", ".NAN"].contains (String.ofList size)

/--
The words that older readers take for truth values.
-/
def truthWords : List String :=
  ["y", "Y", "yes", "Yes", "YES", "n", "N", "no", "No", "NO", "on", "On", "ON", "off", "Off", "OFF"]

def isAmbiguous (s : String) : Bool :=
  s = "" || isNull s || (bool? s).isSome || truthWords.contains s || isNumber s

def isShowable (c : Char) : Bool :=
  (' ' ≤ c && c ≤ '~') || ('\u00a0' ≤ c && c ≤ '\ufffd' && c ≠ '\ufeff')

def endsLine (c : Char) : Bool :=
  c = '\n' || c = '\u2028' || c = '\u2029'

/--
Decide whether a colon ends a word, or a hash mark begins one. The character before is given too.
-/
def hasMark (before : Char) : List Char → Bool
  | [] => false
  | c :: cs =>
    (c = ':' && (cs.isEmpty || cs.head? = some ' ')) || (c = '#' && before = ' ') || hasMark c cs

def beginsOther (cs : List Char) : Bool :=
  match cs with
  | [] => false
  | c :: rest =>
    "#,[]&*!|>'\"%@".toList.contains c || c = '\x7b' || c = '\x7d' || c = '\x60' ||
      ((c = '-' || c = '?' || c = ':') && (rest.isEmpty || rest.head? = some ' ')) ||
      cs.take 3 = ['-', '-', '-'] || cs.take 3 = ['.', '.', '.']

def isPlain (s : String) : Bool :=
  let cs := s.toList
  !isAmbiguous s && !beginsOther cs && !hasMark 'x' cs &&
    cs.head? != some ' ' && cs.getLast? != some ' '

def escapeLetters : List (Char × Char) :=
  [('\x00', '0'), ('\x07', 'a'), ('\x08', 'b'), ('\t', 't'), ('\n', 'n'), ('\x0b', 'v'),
    ('\x0c', 'f'), ('\r', 'r'), ('\x1b', 'e'), ('"', '"'), ('\\', '\\'), ('\u0085', 'N'),
    ('\u2028', 'L'), ('\u2029', 'P')]

def escapeChar (c : Char) : List Char :=
  match escapeLetters.lookup c with
  | some letter => ['\\', letter]
  | none =>
    if isShowable c then [c]
    else
      let (letter, count) :=
        if c.toNat < 0x100 then ('x', 2) else if c.toNat < 0x10000 then ('u', 4) else ('U', 8)
      '\\' :: letter :: (Number.hexDigits count c.toNat).map Char.toUpper

/--
Decide whether a text of several lines can be written line by line: no line of it ends in a blank.
-/
def fitsBlock (s : String) : Bool :=
  (s.toList.all fun c => isShowable c || c = '\n') &&
    ((s.splitOn "\n").all fun l => l.toList.getLast? != some ' ')

def blockText (s : String) : String :=
  let lines := s.splitOn "\n"
  let indentMark :=
    if s.toList.head? = some ' ' || s.toList.head? = some '\n' then "2" else ""
  let endMark :=
    match s.toList.reverse with
    | '\n' :: '\n' :: _ | ['\n'] => "+"
    | '\n' :: _ => ""
    | _ => "-"
  let lines := if lines.getLast? = some "" then lines.dropLast else lines
  "|" ++ indentMark ++ endMark ++ "\n"
    ++ "\n".intercalate (lines.map fun l => if l = "" then "" else "    " ++ l)

def scalarText (s : String) : String :=
  if s.toList.contains '\n' && fitsBlock s then blockText s
  else if s.toList.all isShowable && !s.toList.any endsLine then
    if isPlain s then s else "'" ++ s.replace "'" "''" ++ "'"
  else "\"" ++ String.ofList (s.toList.flatMap escapeChar) ++ "\""

def Cell.render : Cell → String
  | text s => scalarText s
  | flag b => if b then "true" else "false"

def renderRow (r : Row) : String :=
  match r with
  | [] => "- \x7b\x7d\n"
  | first :: rest => "- " ++ line first ++ String.join (rest.map fun c => "  " ++ line c)
where
  line (c : String × Cell) : String := c.1 ++ ": " ++ c.2.render ++ "\n"

def renderRows (rows : List Row) : String :=
  if rows.isEmpty then "[]\n" else String.join (rows.map renderRow)

end BringUp.Yaml
