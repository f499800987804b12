import BringUp.Lab.Run
import BringUp.Rehearsal.FileTree
import BringUp.Rehearsal.Shell
import BringUp.Text.Quoted

/-!
This module contains a workstation: a host with a tree of files and a few programs, and no hardware
and no network.
-/

namespace BringUp.Rehearsal

structure Workstation where
  files : FileTree
  env : Environment
  date : String

namespace Workstation

inductive Program where
  | yes
  | no
  | echo
  | shell
deriving DecidableEq

def programAt? (path : String) : Option Program := do
  let name ← ["/bin/", "/usr/bin/"].findSome? fun dir =>
    if dir.toList.isPrefixOf path.toList then some (String.ofList (path.toList.drop dir.length))
    else none
  [("true", .yes), ("false", .no), ("echo", .echo), ("sh", .shell)].lookup name

inductive StartError where
  | files (e : FileError)
  | notPermitted
deriving DecidableEq

def StartError.message : StartError → String
  | files e => e.message
  | notPermitted => "Permission denied (os error 13)"

def programIn (w : Workstation) (path : String) : Except StartError Program :=
  match programAt? path with
  | some p => .ok p
  | none =>
    match w.files.find path with
    | .ok _ => .error .notPermitted
    | .error e => .error (.files e)

def searchPath (env : Environment) : List String :=
  ((env.get? "PATH").getD "/bin:/usr/bin").splitOn ":"

/--
Look for a program. A name with a separator is a path of its own. In all other cases the first
directory that has the program counts, and what can not be run is passed over.
-/
def findProgram (w : Workstation) (env : Environment) (name : String)
    : Except StartError Program :=
  if name.isEmpty then .error (.files .notFound)
  else if name.toList.contains '/' then w.programIn name
  else
    let tries := (searchPath env).map fun dir =>
      w.programIn (if dir.isEmpty then name else Path.join dir name)
    match tries.findSome? Except.toOption with
    | some p => .ok p
    | none =>
      if tries.any fun r => r matches .error .notPermitted then .error .notPermitted
      else .error (.files .notFound)

def echoOptions (lineEnd escapes : Bool) : List String → Bool × Bool × List String
  | [] => (lineEnd, escapes, [])
  | a :: rest =>
    match a.toList with
    | '-' :: c :: cs =>
      if (c :: cs).all fun c => c = 'n' || c = 'e' || c = 'E' then
        let last := (c :: cs).reverse.find? (· ≠ 'n')
        echoOptions (lineEnd && !(c :: cs).contains 'n')
          (match last with
            | some l => l = 'e'
            | none => escapes)
          rest
      else (lineEnd, escapes, a :: rest)
    | _ => (lineEnd, escapes, a :: rest)

def echo (args : List String) : List UInt8 :=
  let (lineEnd, escapes, args) := echoOptions true false args
  let text := " ".intercalate args
  (if escapes then Shell.unescape text.length true text.toList else Text.Utf8.encode text)
    ++ (if lineEnd then [10] else [])

def perform (p : Program) (args : List String) (here : String) (env : Environment)
    : ToolOutput :=
  match p with
  | .yes => ⟨some 0, "", ""⟩
  | .no => ⟨some 1, "", ""⟩
  | .echo => ⟨some 0, Text.Utf8.decodeLossy (echo args), ""⟩
  | .shell =>
    match args with
    | "-c" :: script :: _ =>
      let s := Shell.run script here env
      let code := match s.ended with
        | some (.exited code) => some (code : Int)
        | some .killed => none
        | none => some (s.status : Int)
      ⟨code, Text.Utf8.decodeLossy s.stdout, Text.Utf8.decodeLossy s.stderr⟩
    | _ => ⟨some 0, "", ""⟩

def placeText (p : Place) : String := "/" ++ "/".intercalate p

def run (w : Workstation) (c : ToolCommand) : Except String ToolOutput :=
  let env := w.env ++ c.envs
  let here : Except StartError Place :=
    match c.cwd with
    | none => .ok w.files.here
    | some dir =>
      match w.files.find dir with
      | .ok p => if w.files.isDirectoryAt p then .ok p else .error (.files .notDirectory)
      | .error e => .error (.files e)
  let started : Except StartError ToolOutput := do
    let place ← here
    let inside : Workstation := { w with files := { w.files with here := place } }
    let program ← inside.findProgram env c.program
    return perform program c.args (placeText place) env
  started.mapError StartError.message

def onFiles (w : Workstation) (e : FileTree.Edit α) : Except String α × Workstation :=
  let (result, files) := w.files.edit e
  (result.mapError FileError.message, { w with files })

def patchPath (w : Workstation) : String :=
  Path.join ((w.env.get? "TMPDIR").getD "/tmp") "bootlab-000000.patch"

def hostReply (w : Workstation) : (c : HostCall) → c.Reply × Workstation
  | .run c => (w.run c, w)
  | .pathExists path => (w.files.pathExists path, w)
  | .isDirectory path => (w.files.isDirectory path, w)
  | .isPopulated path => (w.files.isPopulated path, w)
  | .createDirs path => w.onFiles (FileTree.makeDirectories path)
  | .createPatch text =>
    let path := w.patchPath
    let (result, w) := w.onFiles (FileTree.write path text)
    (match result with
      | .ok () => .ok path
      | .error reason => .error (reason ++ " at path " ++ Text.quoted path), w)
  | .removePatch path => ((), { w with files := w.files.remove path })
  | .readText path => ((w.files.read path).mapError FileError.message, w)
  | .createLog dir => w.onFiles (FileTree.write (Path.join dir ("bootlab.log." ++ w.date)) "")
  | .connect _ => (.error "Connection refused (os error 111)", w)

def lab : Lab Workstation where
  device w _ _ := ⟨w, some 0, .error (.capability "lab" "not connected")⟩
  host w _ c :=
    let (reply, w) := w.hostReply c
    ⟨w, some 0, reply⟩

end Workstation

end BringUp.Rehearsal
