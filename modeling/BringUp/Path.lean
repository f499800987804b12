/-!
This module contains file paths. A path is kept as the text it was given as: joining adds at most
one separator and nothing is normalised.
-/

namespace BringUp.Path

def isAbsolute (p : String) : Bool :=
  p.toList.head? = some '/'

/--
The path `path` inside `base`. An absolute path stands for itself, and one separator is put between
the two unless `base` is empty or ends in one.
-/
def join (base path : String) : String :=
  if isAbsolute path then path
  else if base.toList.isEmpty || base.toList.getLast? = some '/' then base ++ path
  else base ++ "/" ++ path

def pieces (p : String) : List String :=
  (go [] p.toList).map String.ofList
where
  go (current : List Char) : List Char → List (List Char)
    | [] => [current.reverse]
    | c :: cs => if c = '/' then current.reverse :: go [] cs else go (c :: current) cs

/--
The names on a path: its parts without empty ones and without those that stay in the same directory.
-/
def names (p : String) : List String :=
  (pieces p).filter fun s => s ≠ "" ∧ s ≠ "."

/--
The last name on a path, or the whole path if it ends in no name of a file.
-/
def fileName (p : String) : String :=
  match (names p).getLast? with
  | some s => if s = ".." then p else s
  | none => p

end BringUp.Path
