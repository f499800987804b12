import BringUp.Record.Source
import BringUp.Text.Yaml.Basic

/-!
This module contains the reading of YAML documents made of mappings, sequences and scalars, in block
and in flow style. Anchors, tags and literal blocks are not accepted.
-/

namespace BringUp.Yaml

abbrev Rest := List Char

def isBlank (c : Char) : Bool := c = ' ' || c = '\t'

def atBlank (cs : Rest) : Bool :=
  match cs with
  | [] => true
  | c :: _ => isBlank c || c = '\n'

def skipBlanks (cs : Rest) : Rest := cs.dropWhile isBlank

def endLine? (cs : Rest) : Option Rest :=
  match skipBlanks cs with
  | [] => some []
  | '\n' :: rest => some rest
  | '#' :: rest => some (rest.dropWhile (· ≠ '\n')).tail
  | _ => none

def nextLine? (cs : Rest) : Option (Nat × Rest) :=
  go (some 0) cs
where
  go : Option Nat → Rest → Option (Nat × Rest)
    | _, [] => none
    | none, c :: cs => if c = '\n' then go (some 0) cs else go none cs
    | some n, c :: cs =>
      if c = ' ' then go (some (n + 1)) cs
      else if c = '\n' then go (some 0) cs
      else if c = '#' then go none cs
      else some (n, c :: cs)

def skipSpace (cs : Rest) : Rest :=
  go false cs
where
  go (inComment : Bool) : Rest → Rest
    | [] => []
    | c :: cs =>
      if c = '\n' then go false cs
      else if inComment then go true cs
      else if c = '#' then go true cs
      else if isBlank c then go false cs
      else c :: cs

def isFlowMark (c : Char) : Bool :=
  c = ',' || c = '[' || c = ']' || c = '\x7b' || c = '\x7d'

def beginsColonMark (cs : Rest) : Bool :=
  cs.head? = some ':' && (cs.tail.head?.map fun c => isFlowMark c || c = '?').getD false

/--
Take the characters of a plain scalar on one line, from last to first. It ends at a colon that a
blank follows, at a comment, and in flow style also at a mark and at a colon in front of one.
-/
def takePlain (flow : Bool) (taken : List Char) : Rest → List Char × Rest
  | [] => (taken, [])
  | c :: cs =>
    let ends :=
      c = '\n' || (c = '#' && (taken.head?.map isBlank).getD false) ||
        (c = ':' && atBlank cs) || (flow && (isFlowMark c || beginsColonMark (c :: cs)))
    if ends then (taken, c :: cs) else takePlain flow (c :: taken) cs

def beginsPlain (flow : Bool) (cs : Rest) : Bool :=
  match cs with
  | [] => false
  | c :: rest =>
    if c = '-' ∨ c = '?' ∨ c = ':' then
      !(atBlank rest || (flow && (rest.head?.map isFlowMark).getD false))
    else !isBlank c && c ≠ '\n' && !isFlowMark c && c ≠ '\x60' && !"#&*!|>'\"%@".toList.contains c

def plain? (flow : Bool) (cs : Rest) : Option (String × Rest) :=
  if beginsPlain flow cs then
    let (taken, rest) := takePlain flow [] cs
    if flow && beginsColonMark rest then none
    else some (String.ofList (taken.dropWhile isBlank).reverse, rest)
  else none

/--
A character of a quoted scalar. Line ends that are written as such are folded.
-/
inductive Quoted where
  | char (c : Char)
  | lineEnd
deriving DecidableEq

/--
Fold line ends: a single one is read as a blank, and of more all but the first are kept. The blanks
around them are dropped.
-/
def fold (qs : List Quoted) : List Char :=
  go [] [] false qs
where
  go (done pending : List Char) (broken : Bool) : List Quoted → List Char
    | [] => (flush done pending broken).reverse
    | .lineEnd :: qs =>
      if broken then go done ('\n' :: pending) true qs else go done [] true qs
    | .char c :: qs =>
      if isBlank c then if broken then go done pending true qs else go done (c :: pending) false qs
      else go (c :: flush done pending broken) [] false qs
  flush (done pending : List Char) (broken : Bool) : List Char :=
    if broken && pending.isEmpty then ' ' :: done else pending ++ done

def takeSingle (taken : List Quoted) : Rest → Option (List Quoted × Rest)
  | [] => none
  | '\'' :: '\'' :: cs => takeSingle (.char '\'' :: taken) cs
  | '\'' :: cs => some (taken.reverse, cs)
  | '\n' :: cs => takeSingle (.lineEnd :: taken) cs
  | c :: cs => takeSingle (.char c :: taken) cs

def escaped? (c : Char) : Option Char :=
  [('0', '\x00'), ('a', '\x07'), ('b', '\x08'), ('t', '\t'), ('\t', '\t'), ('n', '\n'),
    ('v', '\x0b'), ('f', '\x0c'), ('r', '\r'), ('e', '\x1b'), (' ', ' '), ('"', '"'), ('/', '/'),
    ('\\', '\\'), ('N', '\u0085'), ('_', '\u00a0'), ('L', '\u2028'), ('P', '\u2029')].lookup c

def escapeDigits (c : Char) : Nat :=
  if c = 'x' then 2 else if c = 'u' then 4 else if c = 'U' then 8 else 0

inductive Escape where
  | none
  | letter
  | digits (owed value : Nat)
  | skip

def takeDouble (e : Escape) (taken : List Quoted) : Rest → Option (List Quoted × Rest)
  | [] => none
  | c :: cs =>
    match e with
    | .letter =>
      if c = '\n' then takeDouble .skip taken cs
      else if escapeDigits c = 0 then
        (escaped? c).bind fun c => takeDouble .none (.char c :: taken) cs
      else takeDouble (.digits (escapeDigits c) 0) taken cs
    | .digits owed value =>
      if 16 ≤ Number.digitValue c then none
      else
        let value := 16 * value + Number.digitValue c
        if 1 < owed then takeDouble (.digits (owed - 1) value) taken cs
        else if value.isValidChar then takeDouble .none (.char (Char.ofNat value) :: taken) cs
        else none
    | .skip | .none =>
      if isBlank c && e matches .skip then takeDouble .skip taken cs
      else if c = '"' then some (taken.reverse, cs)
      else if c = '\\' then takeDouble .letter taken cs
      else if c = '\n' then takeDouble .none (.lineEnd :: taken) cs
      else takeDouble .none (.char c :: taken) cs

def quoted? (cs : Rest) : Option (String × Rest) := do
  let (taken, rest) ← match cs with
    | '\'' :: cs => takeSingle [] cs
    | '"' :: cs => takeDouble .none [] cs
    | _ => none
  return (String.ofList (fold taken), rest)

def scalar? (flow : Bool) (cs : Rest) : Option ((Bool × String) × Rest) :=
  match quoted? cs with
  | some (s, rest) => some ((false, s), rest)
  | none => (plain? flow cs).map fun (s, rest) => ((true, s), rest)

mutual

def flow? : Nat → Rest → Option (Yaml × Rest)
  | 0, _ => none
  | fuel + 1, cs =>
    match cs with
    | '\x7b' :: cs => flowMembers? fuel [] (skipSpace cs)
    | '[' :: cs => flowItems? fuel [] (skipSpace cs)
    | _ => (scalar? true cs).map fun ((plain, s), rest) => (scalar plain s, rest)

def flowMembers? : Nat → List (String × Yaml) → Rest → Option (Yaml × Rest)
  | 0, _, _ => none
  | fuel + 1, members, cs =>
    match cs with
    | '\x7d' :: cs => some (mapping members.reverse, cs)
    | _ => do
      let ((_, key), cs) ← scalar? true cs
      let (value, cs) ← match skipSpace cs with
        | ':' :: cs =>
          let cs := skipSpace cs
          if cs.head? = some ',' ∨ cs.head? = some '\x7d' then some (empty, cs)
          else (flow? fuel cs).map fun (v, cs) => (v, skipSpace cs)
        | cs => some (empty, cs)
      match cs with
      | ',' :: cs => flowMembers? fuel ((key, value) :: members) (skipSpace cs)
      | '\x7d' :: cs => some (mapping ((key, value) :: members).reverse, cs)
      | _ => none

def flowItems? : Nat → List Yaml → Rest → Option (Yaml × Rest)
  | 0, _, _ => none
  | fuel + 1, items, cs =>
    match cs with
    | ']' :: cs => some (sequence items.reverse, cs)
    | _ => do
      let (value, cs) ← flow? fuel cs
      match skipSpace cs with
      | ',' :: cs => flowItems? fuel (value :: items) (skipSpace cs)
      | ']' :: cs => some (sequence (value :: items).reverse, cs)
      | _ => none

end

def key? (cs : Rest) : Option (String × Rest) := do
  let ((_, key), cs) ← scalar? false cs
  match skipBlanks cs with
  | ':' :: cs => if atBlank cs then some (key, cs) else none
  | _ => none

def moreLines? (indent : Nat) : Nat → List Quoted → Rest → Option (List Quoted × Rest)
  | 0, _, _ => none
  | fuel + 1, taken, cs =>
    match nextLine? cs with
    | none => some (taken, cs)
    | some (n, line) =>
      if n ≤ indent then some (taken, cs)
      else do
        let (more, rest) := takePlain false [] line
        let rest ← endLine? rest
        let breaks := (cs.take (cs.length - line.length)).filter (· = '\n')
        let taken := taken ++ .lineEnd :: breaks.map (fun _ => .lineEnd) ++ more.reverse.map .char
        moreLines? indent fuel taken rest

def inline? (indent fuel : Nat) (cs : Rest) : Option (Yaml × Rest) :=
  match cs with
  | '\x7b' :: _ | '[' :: _ | '\'' :: _ | '"' :: _ => do
    let (value, cs) ← flow? fuel cs
    let cs ← endLine? cs
    return (value, cs)
  | _ => do
    let (s, cs) ← plain? false cs
    let commented := (skipBlanks cs).head? = some '#'
    let cs ← endLine? cs
    if commented then return (scalar true s, cs)
    let (taken, cs) ← moreLines? indent fuel (s.toList.map .char) cs
    return (scalar true (String.ofList (fold taken)), cs)

mutual

def block? : Nat → Nat → Rest → Option (Yaml × Rest)
  | 0, _, _ => none
  | fuel + 1, indent, cs =>
    match nextLine? cs with
    | none => some (empty, cs)
    | some (n, line) =>
      if n < indent then some (empty, cs)
      else if line.head? = some '-' ∧ atBlank line.tail then items? fuel n [] cs
      else if (key? line).isSome then members? fuel n [] cs
      else inline? (indent - 1) fuel line

def members? : Nat → Nat → List (String × Yaml) → Rest → Option (Yaml × Rest)
  | 0, _, _, _ => none
  | fuel + 1, indent, members, cs =>
    let finished := some (mapping members.reverse, cs)
    match nextLine? cs with
    | none => finished
    | some (n, line) =>
      if n < indent then finished
      else if indent < n then none
      else do
        let (key, rest) ← key? line
        let (value, rest) ← match endLine? rest with
          | none => inline? indent fuel (skipBlanks rest)
          | some rest =>
            match nextLine? rest with
            | some (n, line) =>
              if n = indent ∧ line.head? = some '-' ∧ atBlank line.tail then
                items? fuel indent [] rest
              else block? fuel (indent + 1) rest
            | none => some (empty, rest)
        members? fuel indent ((key, value) :: members) rest

/--
Read the items of a sequence whose hyphens are indented by `indent`. What follows a hyphen is read
as if the hyphen were a blank.
-/
def items? : Nat → Nat → List Yaml → Rest → Option (Yaml × Rest)
  | 0, _, _, _ => none
  | fuel + 1, indent, items, cs =>
    let finished := some (sequence items.reverse, cs)
    match nextLine? cs with
    | none => finished
    | some (n, line) =>
      if n < indent then finished
      else if indent < n then none
      else
        match line with
        | '-' :: rest =>
          if atBlank rest then do
            let line := List.replicate (n + 1) ' ' ++ rest
            let (value, rest) ← block? fuel (indent + 1) line
            items? fuel indent (value :: items) rest
          else finished
        | _ => finished

end

def isAccepted (c : Char) : Bool :=
  c = '\t' || c = '\n' || (' ' ≤ c && c ≤ '~') || c = '\u0085' ||
    ('\u00a0' ≤ c && c ≠ '\ufeff' && c ≠ '\ufffe' && c ≠ '\uffff')

def unifyLineEnds : List Char → List Char
  | '\r' :: '\n' :: cs => '\n' :: unifyLineEnds cs
  | '\r' :: cs => '\n' :: unifyLineEnds cs
  | c :: cs => c :: unifyLineEnds cs
  | [] => []

def dropStart (cs : Rest) : Rest :=
  match nextLine? cs with
  | some (0, '-' :: '-' :: '-' :: rest) => if atBlank rest then rest else cs
  | _ => cs

def beginsMark (cs : Rest) : Bool :=
  (cs.take 3 = ['.', '.', '.'] || cs.take 3 = ['-', '-', '-']) && atBlank (cs.drop 3)

def splitAtMark : Rest → Rest × Rest
  | [] => ([], [])
  | c :: cs =>
    if c = '\n' && beginsMark cs then (['\n'], cs)
    else
      let (document, rest) := splitAtMark cs
      (c :: document, rest)

def isOver (cs : Rest) : Bool :=
  match cs with
  | '.' :: '.' :: '.' :: rest =>
    match endLine? rest with
    | some rest => (nextLine? rest).isNone
    | none => false
  | _ => (nextLine? cs).isNone

def parse? (text : String) : Option Yaml := do
  let cs := unifyLineEnds text.toList
  if !cs.all isAccepted then none
  let (document, after) := splitAtMark ('\n' :: (dropStart cs))
  if !isOver after then none
  if (nextLine? document).isNone then return empty
  let (value, rest) ← block? (2 * document.length + 4) 0 document
  if (nextLine? rest).isNone then return value else none

/--
A plain scalar may be taken for any of the core types, and a quoted one only for text. An empty
value is taken for a record without any members.
-/
instance : Record.Source Yaml where
  text?
    | scalar _ s => some s
    | _ => none
  flag?
    | scalar true s => bool? s
    | _ => none
  natural?
    | scalar true s => natural? s
    | _ => none
  isAbsent
    | scalar true s => s = "" || isNull s
    | _ => false
  members?
    | mapping members => some members
    | scalar true "" => some []
    | _ => none
  items? _ := none

end BringUp.Yaml
