import BringUp.CommandLine.Commands
import Std.Time.DateTime

/-!
This module contains the program: the commands of the command line, carried out with the files, the
clock and the variables of the machine that it runs on. It starts no tools and opens no connections.
-/

namespace BringUp.CommandLine

def relevantVariables : List String :=
  [ "HOME", "XDG_CACHE_HOME", "U_BOOT_BUILD_DIR", "U_BOOT_SOURCE_DIR" ]
    ++ Opt.global.filterMap Opt.environmentName?

def environment : IO Environment :=
  relevantVariables.filterMapM fun name => do
    return (← IO.getEnv name).map fun value => (name, value)

def reasonOf : IO.Error → String
  | .alreadyExists _ code details | .noFileOrDirectory _ code details
  | .permissionDenied _ code details | .inappropriateType _ code details =>
    s!"{details} (os error {code})"
  | e => toString e

def outcomeOf (action : IO α) : IO (Except String α) := do
  match ← action.toBaseIO with
  | .ok a => return .ok a
  | .error e => return .error (reasonOf e)

def today : IO String := do
  let date := Std.Time.PlainDate.ofEpochDay (← Std.Time.Timestamp.now).toDaysSinceUnixEpoch
  let twoDigits (n : Int) : String := if n < 10 then s!"0{n}" else toString n
  let month := twoDigits date.month.val
  let day := twoDigits date.day.val
  return s!"{date.year.toInt}-{month}-{day}"

def hostReply : (c : HostCall) → IO c.Reply
  | .run c => return .error s!"{c.program} can not be started"
  | .pathExists path => do return (← outcomeOf ((← IO.currentDir) / path).metadata).toBool
  | .isDirectory path => do ((← IO.currentDir) / path).isDir
  | .isPopulated path => do
    return match ← outcomeOf ((← IO.currentDir) / path).readDir with
      | .ok entries => !entries.isEmpty
      | .error _ => false
  | .createDirs path => outcomeOf (IO.FS.createDirAll path)
  | .createPatch text => outcomeOf do
    let (handle, path) ← IO.FS.createTempFile
    handle.putStr text
    return path.toString
  | .removePatch path => do
    let _ ← outcomeOf (IO.FS.removeFile path)
  | .readText path => outcomeOf (IO.FS.readFile path)
  | .createLog dir => outcomeOf do
    let _ ← IO.FS.Handle.mk (Path.join dir ("bootlab.log." ++ (← today))) .append
  | .connect address => return .error s!"{address} can not be reached"

/--
Make a call on the world outside. No line of a lab is connected.
-/
def reply : (c : Call) → IO c.Reply
  | .device _ => return .error (.capability "lab" "not connected")
  | .host c => hostReply c
  | .interrupt _ => return none
  | .sleep ms => IO.sleep (.ofNat ms)
  | .clock => IO.monoMsNow
  | .mark _ => return ()

def carryOut (s : σ) : Program σ ε α → IO (Except ε α)
  | .done result => return result
  | .get next => carryOut s (next s)
  | .set s next => carryOut s next
  | .call c next => do carryOut s (next (← reply c))

end BringUp.CommandLine

open BringUp CommandLine in
def main (args : List String) : IO UInt32 := do
  match ← carryOut () (CommandLine.run args (← environment)) with
  | .ok outcome =>
    IO.print outcome.stdout
    if let some message := outcome.message then IO.eprintln ("Error: " ++ message)
    return .ofNat outcome.code
  | .error e =>
    IO.eprintln ("Error: " ++ e.message)
    return 1
