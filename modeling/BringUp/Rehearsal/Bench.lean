import BringUp.Lab.Run
import BringUp.Rehearsal.EventLog
import BringUp.Rehearsal.FileTree

/-!
This module contains a bench: a lab without any hardware. Its lines record each call and do nothing,
unless they are told to fail. Its tools are scripted and leave files in a tree.
-/

namespace BringUp

def Device.name : Device → String
  | power => "power"
  | reset => "reset"
  | recovery => "recovery"
  | console => "console"
  | bootloader => "uboot"
  | shell => "shell"
  | sdmux => "sdmux"
  | storage => "storage"
  | emulator => "emulator"
  | usbLoader => "usb"

def Device.all : List Device :=
  [power, reset, recovery, console, bootloader, shell, sdmux, storage, emulator, usbLoader]

def Device.ofName? (name : String) : Option Device := all.find? (·.name = name)

def PowerAction.name : PowerAction → String
  | on => "on"
  | off => "off"
  | cycle => "cycle"

def DeviceCall.operation : DeviceCall → String
  | activate _ => "activate"
  | deactivate _ => "deactivate"
  | power action => action.name
  | reset hold mode => (if hold then "assert(" else "release(") ++ mode.name ++ ")"
  | recovery enable => if enable then "enable" else "disable"
  | consoleOutput | bootloaderOutput => "read_output"
  | bootloaderVersion => "version"
  | boot args => s!"boot({args})"
  | awaitBoot => "await_boot"
  | shellRun command => s!"run({command})"
  | mux mode => mode.driverName
  | writeImage source t => s!"write_image({Path.fileName source}@{t.byteOffset})"
  | writeFiles sources t =>
    "write_files(" ++ ",".intercalate (sources.map Path.fileName) ++ "->" ++ t.dest ++ ")"
  | emulate source => s!"write_image({Path.fileName source})"
  | load source phase =>
    "load(" ++ (source.map Path.fileName).getD "-" ++ "," ++ phase.getD "-" ++ ")"
  | execute => "execute"

def DeviceCall.event (c : DeviceCall) : String := c.device.name ++ "." ++ c.operation

namespace Rehearsal

inductive InterruptBehavior where
  | succeed
  | timeout
  | hang
deriving DecidableEq

structure Response where
  pattern : String
  output : ToolOutput
  once : Bool
deriving DecidableEq

structure CommandRecord where
  command : ToolCommand
  patchText : Option String
  started : Bool
deriving DecidableEq

structure Bench where
  failures : List (Device × String)
  log : EventLog
  console : List UInt8
  behavior : InterruptBehavior
  interruptDelay : Nat
  version : String
  shellStatus : Int
  shellLines : Option (List String)
  responses : List Response
  startErrors : List (String × String)
  producesArtifacts : Bool
  commands : List CommandRecord
  files : FileTree
  temporary : String
  patches : List String

namespace Bench

def fresh (files : FileTree) (temporary : String) : Bench where
  failures := []
  log := []
  console := []
  behavior := .succeed
  interruptDelay := 0
  version := "U-Boot 2024.10-rc1 (Oct 01 2024 - 10:00:00 +0000)"
  shellStatus := 0
  shellLines := none
  responses := []
  startErrors := []
  producesArtifacts := true
  commands := []
  files
  temporary
  patches := []

def shellOutput (b : Bench) : CommandOutput :=
  ⟨b.shellLines.getD [if b.shellStatus = 0 then "running" else "degraded"], b.shellStatus⟩

def value (b : Bench) : (c : DeviceCall) → c.Value
  | .consoleOutput => b.console
  | .bootloaderOutput => [0x3d, 0x3e, 0x20]
  | .bootloaderVersion => b.version
  | .shellRun _ => b.shellOutput
  | .activate _ | .deactivate _ | .power _ | .reset _ _ | .recovery _ | .boot _ | .awaitBoot
  | .mux _ | .writeImage _ _ | .writeFiles _ _ | .emulate _ | .load _ _ | .execute => ()

def isFailing (b : Bench) (c : DeviceCall) : Bool :=
  b.failures.any fun (d, pattern) => d = c.device && Text.contains c.event pattern

def outcome (b : Bench) (c : DeviceCall) : Except Error c.Value :=
  if b.isFailing c then .error (.capability c.device.name s!"injected failure at {c.event}")
  else if c = .activate .bootloader ∧ b.behavior = .timeout then
    .error (.interruptTimeout (.ofSeconds 30) "")
  else .ok (b.value c)

/--
How long a call takes. Only interrupting the boot loader takes any time.
-/
def delay (b : Bench) (c : DeviceCall) : Option Nat :=
  if c = .activate .bootloader then
    if b.behavior = .hang ∧ !b.isFailing c then none else some b.interruptDelay
  else some 0

def afterCall (b : Bench) (c : DeviceCall) : Bench :=
  { b with
    log := b.log ++ [c.event]
    console := if c = .consoleOutput ∧ !b.isFailing c then [] else b.console }

def device (b : Bench) (c : DeviceCall) : Answer Bench (Except Error c.Value) :=
  ⟨b.afterCall c, b.delay c, b.outcome c⟩

def scripted (line : String) : List Response → Option ToolOutput × List Response
  | [] => (none, [])
  | r :: rs =>
    if Text.contains line r.pattern then (some r.output, if r.once then rs else r :: rs)
    else
      let (output, rs) := scripted line rs
      (output, r :: rs)

def outputArg : List String → Option String
  | [] => none
  | a :: as => if a = "-o" then as.head? else outputArg as

/--
What a command that succeeds leaves. A new worktree is an empty directory, and a build is a
directory with the image and its configuration.
-/
def simulate (c : ToolCommand) (producesArtifacts : Bool) : FileTree.Edit Unit := do
  if c.program = "git" then
    if c.hasArg "worktree" && c.hasArg "add" then
      match c.args.getLast? with
      | some path => FileTree.makeDirectories path
      | none => return
  else if producesArtifacts then
    match outputArg c.args with
    | some out =>
      FileTree.makeDirectories out
      FileTree.write (Path.join out "u-boot.bin") "u-boot"
      FileTree.write (Path.join out ".config") "CONFIG_ARM=y\n"
    | none => return

def patchText (b : Bench) (c : ToolCommand) : Option String := do
  let path ← c.args.getLast?
  if c.program = "git" && c.hasArg "apply" && b.patches.contains path then
    (b.files.read path).toOption
  else none

def onFiles (b : Bench) (e : FileTree.Edit α) : Except String α × Bench :=
  let (result, files) := b.files.edit e
  (result.mapError FileError.message, { b with files })

def run (b : Bench) (c : ToolCommand) : Except String ToolOutput × Bench :=
  let record (started : Bool) : Bench :=
    { b with commands := b.commands ++ [⟨c, b.patchText c, started⟩] }
  match b.startErrors.find? fun (pattern, _) => Text.contains c.line pattern with
  | some (_, reason) => (.error reason, record false)
  | none =>
    let (output, responses) := scripted c.line b.responses
    let b := { record true with responses }
    let output := output.getD ⟨some 0, "", ""⟩
    if output.success then
      let (result, b) := b.onFiles (simulate c b.producesArtifacts)
      (result.map fun _ => output, b)
    else (.ok output, b)

def nextPatch (b : Bench) : String :=
  let number := toString b.patches.length
  Path.join b.temporary
    ("bootlab-" ++ "".pushn '0' (6 - number.length) ++ number ++ ".patch")

def createPatch (b : Bench) (text : String) : Except String String × Bench :=
  let path := b.nextPatch
  let (result, b) := b.onFiles (FileTree.write path text)
  let result := match result with
    | .ok () => .ok path
    | .error reason => .error (reason ++ " at path " ++ Text.quoted path)
  (result, { b with patches := b.patches ++ [path] })

def hostReply (b : Bench) : (c : HostCall) → c.Reply × Bench
  | .run c => b.run c
  | .pathExists path => (b.files.pathExists path, b)
  | .isDirectory path => (b.files.isDirectory path, b)
  | .isPopulated path => (b.files.isPopulated path, b)
  | .createDirs path => b.onFiles (FileTree.makeDirectories path)
  | .createPatch text => b.createPatch text
  | .removePatch path => ((), { b with files := b.files.remove path })
  | .readText path => ((b.files.read path).mapError FileError.message, b)
  | .createLog dir => b.onFiles (FileTree.write (Path.join dir "bootlab.log") "")
  | .connect _ => (.error "Connection refused (os error 111)", b)

def host (b : Bench) (c : HostCall) : Answer Bench c.Reply :=
  let (reply, b) := b.hostReply c
  ⟨b, some 0, reply⟩

def lab : Lab Bench where
  device b _ c := b.device c
  host b _ c := b.host c

end Bench

end Rehearsal

end BringUp
