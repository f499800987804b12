import BringUp.Lab.Device
import BringUp.Record.Field

/-!
This module contains the written form of modes and targets.
-/

namespace BringUp

open Record

/--
Read a name from a text, or from a record with that name as its only member and nothing in it.
-/
def Record.readName (ofName? : String → Option α) : Json → Option α
  | .string s => ofName? s
  | .object [(s, .null)] => ofName? s
  | _ => none

def ResetMode.ofName? (s : String) : Option ResetMode :=
  [cold, warm].find? (·.name = s)

def MuxMode.ofName? (s : String) : Option MuxMode :=
  [host, device].find? (·.name = s)

def ImageTarget.fields : List (Field Json ImageTarget) :=
  [ { uint64Field "seek" 0 (·.seek) fun v t => { t with seek := v } with presence := .required },
    { uint64Field "block_size" 0 (·.blockSize) fun v t => { t with blockSize := v }
      with presence := .required },
    { optionalUInt64Field "count" (·.count) fun v t => { t with count := v }
      with presence := .whenNamed } ]

def ImageTarget.read (v : Json) : Option ImageTarget :=
  Record.read ImageTarget.fields ImageTarget.start v

def ImageTarget.write (t : ImageTarget) : Json :=
  Record.write ImageTarget.fields t

def FileTarget.fields : List (Field Json FileTarget) :=
  [ { textField "dest" "" (·.dest) fun v t => { t with dest := v } with presence := .required },
    { uint32Field "partition" 0 (·.partition) fun v t => { t with partition := v }
      with presence := .required },
    { flagField "target_is_directory" (·.targetIsDirectory)
        fun v t => { t with targetIsDirectory := v }
      with presence := .required } ]

def FileTarget.read (v : Json) : Option FileTarget :=
  Record.read FileTarget.fields ⟨"", 0, false⟩ v

def FileTarget.write (t : FileTarget) : Json :=
  Record.write FileTarget.fields t

end BringUp
