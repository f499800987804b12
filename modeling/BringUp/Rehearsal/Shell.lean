import BringUp.Environment
import BringUp.Text.Search
import BringUp.Text.Utf8

/-!
This module contains a small shell: simple commands with quotes, variables and the joining of the
two outputs, one after another. It is what scripts of a rehearsed workstation are run with.
-/

namespace BringUp.Rehearsal.Shell

inductive Part where
  | literal (c : Char)
  | value (name : String) (isQuoted : Bool)
deriving DecidableEq

inductive Token where
  | word (parts : List Part)
  | next
  | andThen
  | orElse
  | toErrors
  | toOutput
  | discardOutput
  | discardErrors
deriving DecidableEq

inductive Mode where
  | plain
  | single
  | double
deriving DecidableEq

def isNameChar (c : Char) : Bool := c.isAlphanum || c = '_'

def variableName? (cs : List Char) : Option (String × List Char) :=
  match cs with
  | '?' :: rest => some ("?", rest)
  | '$' :: rest => some ("$", rest)
  | '\x7b' :: rest =>
    match rest.dropWhile isNameChar with
    | '\x7d' :: after => some (String.ofList (rest.takeWhile isNameChar), after)
    | _ => none
  | c :: _ =>
    if c.isAlpha || c = '_' then
      some (String.ofList (cs.takeWhile isNameChar), cs.dropWhile isNameChar)
    else none
  | [] => none

def redirections : List (String × Token) :=
  [ ("1>&2", .toErrors), (">&2", .toErrors), ("2>&1", .toOutput), ("2>/dev/null", .discardErrors),
    ("1>/dev/null", .discardOutput), (">/dev/null", .discardOutput),
    ("2> /dev/null", .discardErrors), ("> /dev/null", .discardOutput) ]

def redirection? (cs : List Char) : Option (Token × List Char) :=
  redirections.findSome? fun (text, t) =>
    if text.toList.isPrefixOf cs then some (t, cs.drop text.length) else none

/--
Cut a script into tokens, in at most `fuel` steps. The parts of the word that is being read are kept
from last to first.
-/
def tokens (fuel : Nat) (m : Mode) (current : Option (List Part)) (cs : List Char) : List Token :=
  let flush : List Token := (current.map fun ps => Token.word ps.reverse).toList
  let grow (p : Part) : Option (List Part) := some (p :: current.getD [])
  match fuel, cs with
  | 0, _ | _, [] => flush
  | fuel + 1, c :: rest =>
    match m with
    | .single =>
      if c = '\'' then tokens fuel .plain current rest
      else tokens fuel .single (grow (.literal c)) rest
    | .double =>
      if c = '"' then tokens fuel .plain current rest
      else if c = '$' then
        match variableName? rest with
        | some (name, rest) => tokens fuel .double (grow (.value name true)) rest
        | none => tokens fuel .double (grow (.literal c)) rest
      else if c = '\\' then
        match rest with
        | d :: rest =>
          if "$\x60\"\\".toList.contains d then tokens fuel .double (grow (.literal d)) rest
          else tokens fuel .double (some (.literal d :: .literal c :: current.getD [])) rest
        | [] => flush
      else tokens fuel .double (grow (.literal c)) rest
    | .plain =>
      match if current.isNone then redirection? cs else none with
      | some (t, rest) => t :: tokens fuel .plain none rest
      | none =>
        if c = ' ' ∨ c = '\t' then flush ++ tokens fuel .plain none rest
        else if c = ';' ∨ c = '\n' then flush ++ .next :: tokens fuel .plain none rest
        else if c = '&' ∧ rest.head? = some '&' then
          flush ++ .andThen :: tokens fuel .plain none rest.tail
        else if c = '|' ∧ rest.head? = some '|' then
          flush ++ .orElse :: tokens fuel .plain none rest.tail
        else if c = '>' then flush ++ tokens fuel .plain none cs
        else if c = '\'' then tokens fuel .single (some (current.getD [])) rest
        else if c = '"' then tokens fuel .double (some (current.getD [])) rest
        else if c = '#' ∧ current.isNone then tokens fuel .plain none (rest.dropWhile (· ≠ '\n'))
        else if c = '\\' then
          match rest with
          | d :: rest => tokens fuel .plain (grow (.literal d)) rest
          | [] => flush
        else if c = '$' then
          match variableName? rest with
          | some (name, rest) => tokens fuel .plain (grow (.value name false)) rest
          | none => tokens fuel .plain (grow (.literal c)) rest
        else tokens fuel .plain (grow (.literal c)) rest

inductive End where
  | exited (code : Nat)
  | killed
deriving DecidableEq

structure State where
  env : Environment
  here : String
  status : Nat
  stdout : List UInt8
  stderr : List UInt8
  ended : Option End

/--
The words that a word comes to once its variables are replaced. An empty value without quotes leaves
nothing.
-/
def expand (s : State) (parts : List Part) : List String :=
  let (words, current) := go [] none parts
  words ++ (current.map fun cs => String.ofList cs.reverse).toList
where
  value (name : String) : String :=
    if name = "?" then toString s.status
    else if name = "$" then "1"
    else (s.env.get? name).getD ""
  go (words : List String) (current : Option (List Char))
    : List Part → List String × Option (List Char)
    | [] => (words, current)
    | .literal c :: ps => go words (some (c :: current.getD [])) ps
    | .value name true :: ps =>
      go words (some ((value name).toList.reverse ++ current.getD [])) ps
    | .value name false :: ps =>
      let (words, current) := cut words current (value name).toList
      go words current ps
  cut (words : List String) (current : Option (List Char))
    : List Char → List String × Option (List Char)
    | [] => (words, current)
    | c :: cs =>
      if c = ' ' ∨ c = '\t' ∨ c = '\n' then
        cut (words ++ (current.map fun cs => String.ofList cs.reverse).toList) none cs
      else cut words (some (c :: current.getD [])) cs

def unescape (fuel : Nat) (octalStart : Bool) (cs : List Char) : List UInt8 :=
  match fuel, cs with
  | 0, _ | _, [] => []
  | fuel + 1, '\\' :: c :: rest =>
    let simple := [('n', 10), ('t', 9), ('r', 13), ('a', 7), ('b', 8), ('f', 12), ('v', 11),
      ('\\', 92)].lookup c
    match simple with
    | some (b : Nat) => UInt8.ofNat b :: unescape fuel octalStart rest
    | none =>
      let isOctal (c : Char) : Bool := '0' ≤ c && c ≤ '7'
      let digits :=
        if octalStart then
          if c = '0' then some ((rest.take 3).takeWhile isOctal, rest) else none
        else if isOctal c then some (((c :: rest).take 3).takeWhile isOctal, c :: rest)
        else none
      match digits with
      | some (ds, from') =>
        UInt8.ofNat (ds.foldl (fun n d => 8 * n + (d.toNat - 48)) 0)
          :: unescape fuel octalStart (from'.drop ds.length)
      | none => 92 :: Text.Utf8.encode (String.singleton c) ++ unescape fuel octalStart rest
  | fuel + 1, c :: rest => Text.Utf8.encode (String.singleton c) ++ unescape fuel octalStart rest

def formatBytes (fuel : Nat) (cs : List Char) (args : List String) : List UInt8 × List String :=
  match fuel, cs with
  | 0, _ | _, [] => ([], args)
  | fuel + 1, '%' :: c :: rest =>
    if c = '%' then
      let (bytes, args) := formatBytes fuel rest args
      (37 :: bytes, args)
    else
      let arg := args.head?.getD (if c = 'd' then "0" else "")
      let (bytes, left) := formatBytes fuel rest args.tail
      (Text.Utf8.encode arg ++ bytes, left)
  | fuel + 1, '\\' :: c :: rest =>
    let escape := '\\' :: c :: (rest.take 2).takeWhile fun d => '0' ≤ d && d ≤ '7'
    let used := if '0' ≤ c ∧ c ≤ '7' then escape else ['\\', c]
    let (bytes, left) := formatBytes fuel ((c :: rest).drop (used.length - 1)) args
    (unescape used.length false used ++ bytes, left)
  | fuel + 1, c :: rest =>
    let (bytes, left) := formatBytes fuel rest args
    (Text.Utf8.encode (String.singleton c) ++ bytes, left)

def echo (args : List String) : List UInt8 :=
  let (args, lineEnd) : List String × List UInt8 := match args with
    | "-n" :: rest => (rest, [])
    | _ => (args, [10])
  let text := (" ".intercalate args).toList
  unescape text.length true text ++ lineEnd

def command (s : State) (words : List String) : State × List UInt8 × List UInt8 :=
  match words with
  | [] => ({ s with status := 0 }, [], [])
  | name :: args =>
    if name = "echo" then ({ s with status := 0 }, echo args, [])
    else if name = "printf" then
      let format := (args.head?.getD "").toList
      ({ s with status := 0 }, (formatBytes format.length format args.tail).1, [])
    else if name = "true" ∨ name = ":" then ({ s with status := 0 }, [], [])
    else if name = "false" then ({ s with status := 1 }, [], [])
    else if name = "pwd" then ({ s with status := 0 }, Text.Utf8.encode (s.here ++ "\n"), [])
    else if name = "exit" then
      let code := ((args.head?.bind String.toNat?).getD s.status) % 256
      ({ s with ended := some (.exited code) }, [], [])
    else if name = "kill" then ({ s with ended := some .killed }, [], [])
    else
      match name.splitOn "=" with
      | [key, value] => ({ s with env := s.env ++ [(key, value)], status := 0 }, [], [])
      | _ =>
        ({ s with status := 127 }, [], Text.Utf8.encode s!"sh: 1: {name}: not found\n")

def runSimple (s : State) (ts : List Token) : State :=
  let words := ts.flatMap fun
    | .word parts => expand s parts
    | _ => []
  let (s, out, err) := command s words
  let err := if ts.contains .discardErrors then [] else err
  let (out, err) :=
    if ts.contains .discardOutput then ([], err)
    else if ts.contains .toErrors then ([], out ++ err)
    else if ts.contains .toOutput then (out ++ err, [])
    else (out, err)
  { s with stdout := s.stdout ++ out, stderr := s.stderr ++ err }

def runTokens (s : State) (skip : Bool) (current : List Token) : List Token → State
  | [] => finish s skip current
  | t :: ts =>
    match t with
    | .next => runTokens (finish s skip current) false [] ts
    | .andThen =>
      let s := finish s skip current
      runTokens s (s.status ≠ 0) [] ts
    | .orElse =>
      let s := finish s skip current
      runTokens s (s.status = 0) [] ts
    | t => runTokens s skip (current ++ [t]) ts
where
  finish (s : State) (skip : Bool) (current : List Token) : State :=
    if skip || s.ended.isSome || current.isEmpty then s else runSimple s current

def run (script here : String) (env : Environment) : State :=
  let cs := script.toList
  runTokens ⟨env, here, 0, [], [], none⟩ false [] (tokens (2 * cs.length + 1) .plain none cs)

end BringUp.Rehearsal.Shell
