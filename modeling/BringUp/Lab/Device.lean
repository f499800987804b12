/-!
This module contains the lines that connect a lab to a board, and what is said over them.
-/

namespace BringUp

inductive Device where
  | power
  | reset
  | recovery
  | console
  | bootloader
  | shell
  | sdmux
  | storage
  | emulator
  | usbLoader
deriving DecidableEq

inductive ResetMode where
  | cold
  /-- The processor only, which keeps e.g. the USB transceiver powered. -/
  | warm
deriving DecidableEq

def ResetMode.name : ResetMode → String
  | cold => "cold"
  | warm => "warm"

inductive MuxMode where
  | host
  | device
deriving DecidableEq

def MuxMode.name : MuxMode → String
  | host => "host"
  | device => "device"

/--
The word a multiplexer's driver has for a position: the board is the device under test.
-/
def MuxMode.driverName : MuxMode → String
  | host => "host"
  | device => "dut"

structure ImageTarget where
  seek : UInt64
  blockSize : UInt64
  /-- The number of blocks to write, unless the whole file is. -/
  count : Option UInt64
deriving DecidableEq

namespace ImageTarget

def start : ImageTarget := ⟨0, 512, none⟩

def byteOffset (t : ImageTarget) : UInt64 := t.seek * t.blockSize

end ImageTarget

structure FileTarget where
  dest : String
  partition : UInt32
  targetIsDirectory : Bool
deriving DecidableEq

structure CommandOutput where
  stdout : List String
  exitStatus : Int
deriving DecidableEq

namespace CommandOutput

def silent : CommandOutput := ⟨[], 0⟩

def success (o : CommandOutput) : Bool := o.exitStatus = 0

end CommandOutput

end BringUp
