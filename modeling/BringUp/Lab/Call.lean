import BringUp.Build.Command
import BringUp.Error
import BringUp.Lab.Device

/-!
This module contains the calls that bring-up makes on the world outside: on the lines of the lab, on
the host that the lab is driven from, and on the clock. Every call has a type of replies. Between
the calls, marks tell which part of bring-up makes them.
-/

namespace BringUp

inductive PowerAction where
  | on
  | off
  | cycle
deriving DecidableEq

inductive DeviceCall where
  | activate (d : Device)
  | deactivate (d : Device)
  | power (action : PowerAction)
  | reset (hold : Bool) (mode : ResetMode)
  | recovery (enable : Bool)
  | consoleOutput
  | bootloaderOutput
  | bootloaderVersion
  | boot (args : String)
  | awaitBoot
  | shellRun (command : String)
  | mux (mode : MuxMode)
  | writeImage (source : String) (target : ImageTarget)
  | writeFiles (sources : List String) (target : FileTarget)
  | emulate (source : String)
  | load (source phase : Option String)
  | execute
deriving DecidableEq

abbrev DeviceCall.Value : DeviceCall → Type
  | consoleOutput | bootloaderOutput => List UInt8
  | bootloaderVersion => String
  | shellRun _ => CommandOutput
  | _ => Unit

def DeviceCall.device : DeviceCall → Device
  | activate d | deactivate d => d
  | power _ => .power
  | reset _ _ => .reset
  | recovery _ => .recovery
  | consoleOutput => .console
  | bootloaderOutput | bootloaderVersion | boot _ | awaitBoot => .bootloader
  | shellRun _ => .shell
  | mux _ => .sdmux
  | writeImage _ _ | writeFiles _ _ => .storage
  | emulate _ => .emulator
  | load _ _ | execute => .usbLoader

inductive HostCall where
  | run (command : ToolCommand)
  | pathExists (path : String)
  | isDirectory (path : String)
  | isPopulated (path : String)
  | createDirs (path : String)
  | createPatch (text : String)
  | removePatch (path : String)
  | readText (path : String)
  | createLog (directory : String)
  | connect (address : String)
deriving DecidableEq

abbrev HostCall.Reply : HostCall → Type
  | run _ => Except String ToolOutput
  | pathExists _ | isDirectory _ | isPopulated _ => Bool
  | createPatch _ | readText _ => Except String String
  | removePatch _ => Unit
  | createDirs _ | createLog _ | connect _ => Except String Unit

/--
A part of bring-up that a trace shows as a whole.
-/
inductive Part where
  | start
  | bootstrap
  | write
  | send
deriving DecidableEq

inductive Mark where
  | begins (part : Part)
  | ends (part : Part) (success : Bool)
deriving DecidableEq

def Mark.part : Mark → Part
  | begins part | ends part _ => part

inductive Call where
  | device (c : DeviceCall)
  | host (c : HostCall)
  /-- Activate the boot loader, but wait no longer than `limit` milliseconds for it. -/
  | interrupt (limit : Nat)
  | sleep (ms : Nat)
  | clock
  /-- Leave a mark. Nothing outside hears of it. -/
  | mark (m : Mark)
deriving DecidableEq

/--
What a call yields. An interrupt that is not over in time yields nothing.
-/
abbrev Call.Reply : Call → Type
  | device c => Except Error c.Value
  | host c => c.Reply
  | interrupt _ => Option (Except Error Unit)
  | sleep _ | mark _ => Unit
  | clock => Nat

end BringUp
