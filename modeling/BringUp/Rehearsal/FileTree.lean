import BringUp.Path

/-!
This module contains trees of files, and the operations on them that a rehearsal needs. Paths are
walked name by name: every name but the last has to be that of a directory.
-/

namespace BringUp.Rehearsal

inductive FileError where
  | notFound
  | alreadyExists
  | notDirectory
  | isDirectory
deriving DecidableEq

def FileError.message : FileError → String
  | notFound => "No such file or directory (os error 2)"
  | alreadyExists => "File exists (os error 17)"
  | notDirectory => "Not a directory (os error 20)"
  | isDirectory => "Is a directory (os error 21)"

inductive FileNode where
  | directory
  | file (text : String)
deriving DecidableEq

abbrev Place := List String

structure FileTree where
  nodes : List (Place × FileNode)
  here : Place

namespace FileTree

def node? (t : FileTree) (p : Place) : Option FileNode :=
  if p.isEmpty then some .directory else t.nodes.lookup p

def isDirectoryAt (t : FileTree) (p : Place) : Bool := t.node? p = some .directory

def put (t : FileTree) (p : Place) (n : FileNode) : FileTree :=
  { t with nodes := t.nodes.filter (·.1 ≠ p) ++ [(p, n)] }

def follow (p : Place) (name : String) : Place :=
  if name = "." then p
  else if name = ".." then p.dropLast
  else p ++ [name]

def walk (t : FileTree) (p : Place) : List String → Except FileError Place
  | [] => .ok p
  | name :: names =>
    if t.isDirectoryAt p then
      let next := follow p name
      if (t.node? next).isSome then t.walk next names else .error .notFound
    else .error .notDirectory

def origin (t : FileTree) (path : String) : Place :=
  if Path.isAbsolute path then [] else t.here

def steps (path : String) : List String :=
  (Path.pieces path).filter (· ≠ "")

def endsOpen (path : String) : Bool := path.toList.getLast? = some '/'

def find (t : FileTree) (path : String) : Except FileError Place :=
  if path.isEmpty then .error .notFound
  else t.walk (t.origin path) (steps path ++ if endsOpen path then ["."] else [])

def pathExists (t : FileTree) (path : String) : Bool := (t.find path).toBool

def isDirectory (t : FileTree) (path : String) : Bool :=
  match t.find path with
  | .ok p => t.isDirectoryAt p
  | .error _ => false

def isPopulated (t : FileTree) (path : String) : Bool :=
  match t.find path with
  | .ok p => t.isDirectoryAt p && t.nodes.any fun n => p.isPrefixOf n.1 && p.length < n.1.length
  | .error _ => false

def read (t : FileTree) (path : String) : Except FileError String := do
  let p ← t.find path
  match t.node? p with
  | some (.file text) => .ok text
  | some .directory => .error .isDirectory
  | none => .error .notFound

/--
The directory that something is to be made in and its name there. A path without a name of its own
leads to something that is there already.
-/
def target (t : FileTree) (path : String) : Except FileError (Place × String) := do
  if path.isEmpty then throw .notFound
  match (steps path).getLast? with
  | none => throw .alreadyExists
  | some name =>
    let dir ← t.walk (t.origin path) (steps path).dropLast
    if !t.isDirectoryAt dir then throw .notDirectory
    if name = "." || name = ".." then throw .alreadyExists
    return (dir, name)

/--
An operation that changes a tree. What it changed before it failed stays changed.
-/
abbrev Edit (α : Type) := ExceptT FileError (StateM FileTree) α

def makeDirectory (path : String) : Edit Unit := do
  let t ← get
  let (dir, name) ← liftExcept (t.target path)
  if (t.node? (dir ++ [name])).isSome then throw .alreadyExists
  set (t.put (dir ++ [name]) .directory)
where
  liftExcept (r : Except FileError (Place × String)) : Edit (Place × String) :=
    ExceptT.mk (pure r)

def ancestors (path : String) : List String :=
  path :: ((List.range names.length).reverse.map fun n => root ++ "/".intercalate (names.take n))
    |>.filter (· ≠ "")
where
  root : String := if Path.isAbsolute path then "/" else ""
  names : List String :=
    match steps path with
    | [] => []
    | first :: rest =>
      let rest := rest.filter (· ≠ ".")
      if first = "." && Path.isAbsolute path then rest else first :: rest

def ensureDirectory (path : String) : Edit Unit :=
  tryCatch (makeDirectory path) fun e => do
    if !(e = .alreadyExists && (← get).isDirectory path) then throw e

/--
Try to make directories up to the first that can be made or is there, and tell which could not be
made because the one around them is missing. The first is made last.
-/
def makeFirst : List String → Edit (List String)
  | [] => return []
  | path :: paths =>
    tryCatch (do ensureDirectory path; return []) fun e => do
      if e = .notFound then return path :: (← makeFirst paths)
      else throw e

def makeDirectories (path : String) : Edit Unit := do
  if path.isEmpty then return
  let missing ← makeFirst (ancestors path)
  missing.reverse.forM ensureDirectory

def write (path text : String) : Edit Unit := do
  let t ← get
  match t.target path with
  | .ok (dir, name) =>
    if endsOpen path || t.isDirectoryAt (dir ++ [name]) then throw .isDirectory
    set (t.put (dir ++ [name]) (.file text))
  | .error .alreadyExists => throw .isDirectory
  | .error e => throw e

def edit (t : FileTree) (e : Edit α) : Except FileError α × FileTree := e.run.run t

def remove (t : FileTree) (path : String) : FileTree :=
  match t.find path with
  | .ok p => { t with nodes := t.nodes.filter fun n => !p.isPrefixOf n.1 }
  | .error _ => t

def list (t : FileTree) (path : String) : List String :=
  match t.find path with
  | .ok p =>
    let below := t.nodes.filter fun n => p.isPrefixOf n.1 && p.length < n.1.length
    let texts := below.map fun (q, n) =>
      "/".intercalate (q.drop p.length) ++ (if n = .directory then "/" else "")
    texts.mergeSort (· ≤ ·)
  | .error _ => []

end FileTree

end BringUp.Rehearsal
