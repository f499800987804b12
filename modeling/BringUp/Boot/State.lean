/-!
This module contains the states a board passes through on its way from power-off to a shell.
-/

namespace BringUp

/--
What is known about a board. Each state but the first two is reached through the ones before it.
-/
inductive BootState where
  | unknown
  | off
  | bootstrapped
  | started
  | bootloader
  | shell
deriving DecidableEq

namespace BootState

def all : List BootState :=
  [unknown, off, bootstrapped, started, bootloader, shell]

def name : BootState → String
  | unknown => "unknown"
  | off => "off"
  | bootstrapped => "bootstrap"
  | started => "start"
  | bootloader => "uboot"
  | shell => "shell"

def index : BootState → Nat
  | unknown => 0
  | off => 1
  | bootstrapped => 2
  | started => 3
  | bootloader => 4
  | shell => 5

def isTarget (s : BootState) : Bool :=
  s != unknown

def canForce : BootState → Bool
  | off | bootloader | shell => true
  | _ => false

def ofName? (s : String) : Option BootState :=
  all.find? (·.name = s)

instance : Ord BootState where
  compare s t := compare s.index t.index

end BootState

end BringUp
