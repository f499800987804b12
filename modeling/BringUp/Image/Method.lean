import BringUp.Lab.Device

/-!
This module contains write methods: what a family of boards loads its boot loader from, and in which
order its parts are put there.
-/

namespace BringUp

inductive Blob where
  | bl1
  | bl2
  | tzsw
deriving DecidableEq

def Blob.name : Blob → String
  | bl1 => "bl1"
  | bl2 => "bl2"
  | tzsw => "tzsw"

inductive Artifact where
  | build (file : String)
  | blob (b : Blob)
deriving DecidableEq

inductive WriteTarget where
  | image (t : ImageTarget)
  | files (t : FileTarget)
  | emulator
deriving DecidableEq

structure WriteStage where
  role : String
  source : Artifact
  target : WriteTarget
deriving DecidableEq

/--
One part of the boot loader that is sent over USB. Without a file it is one that the loader has
built in.
-/
structure SendStage where
  role : String
  source : Option String
  phase : Option String
deriving DecidableEq

structure Method where
  name : String
  description : String
  write : Option (List WriteStage)
  send : Option (List SendStage)
deriving DecidableEq

end BringUp
