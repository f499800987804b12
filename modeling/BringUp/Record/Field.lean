import BringUp.Record.Source

/-!
This module contains the description of records by their fields, and the reading and writing of
records that such a description gives. Fields are found by name, in any order, and members that are
no field are ignored. A field that is given twice is an error, and one that is not given has a value
of its own.
-/

namespace BringUp.Record

inductive Presence where
  | required
  | whenNamed
  | optional
deriving DecidableEq

structure Field (δ ρ : Type) where
  name : String
  presence : Presence
  read : δ → ρ → Option ρ
  reset : ρ → ρ
  write : ρ → Json

section

variable {δ ρ : Type} [Source δ]

def Field.readNamed (f : Field δ ρ) (members : List (String × δ)) (r : ρ) : Option ρ :=
  match members.filter (·.1 = f.name) with
  | [] => if f.presence = .required then none else some (f.reset r)
  | [(_, v)] => f.read v r
  | _ => none

def readNamed (fields : List (Field δ ρ)) (members : List (String × δ)) (r : ρ) : Option ρ :=
  fields.foldlM (fun r f => f.readNamed members r) r

def readOrdered : List (Field δ ρ) → List δ → ρ → Option ρ
  | [], [], r => some r
  | [], _ :: _, _ => none
  | f :: fs, [], r => if f.presence = .optional then readOrdered fs [] (f.reset r) else none
  | f :: fs, v :: vs, r => (f.read v r).bind (readOrdered fs vs)

/--
Read a record. All its fields are set, whatever they are in `r`.
-/
def read (fields : List (Field δ ρ)) (r : ρ) (v : δ) : Option ρ :=
  match Source.members? v with
  | some members => readNamed fields members r
  | none => (Source.items? v).bind fun items => readOrdered fields items r

def write (fields : List (Field δ ρ)) (r : ρ) : Json :=
  .object (fields.map fun f => (f.name, f.write r))

def optional? {α : Type} (f : δ → Option α) (v : δ) : Option (Option α) :=
  if Source.isAbsent v then some none else (f v).map some

def uint32? (v : δ) : Option UInt32 :=
  (Source.natural? v).bind fun n => if n < UInt32.size then some (UInt32.ofNat n) else none

def uint64? (v : δ) : Option UInt64 :=
  (Source.natural? v).bind fun n => if n < UInt64.size then some (UInt64.ofNat n) else none

def valueField {α : Type} (name : String) (decode : δ → Option α) (encode : α → Json) (default : α)
    (get : ρ → α) (set : α → ρ → ρ) : Field δ ρ where
  name
  presence := .optional
  read v r := (decode v).map (set · r)
  reset := set default
  write r := encode (get r)

def textField (name default : String) (get : ρ → String) (set : String → ρ → ρ) : Field δ ρ :=
  valueField name Source.text? .string default get set

def optionalTextField (name : String) (get : ρ → Option String) (set : Option String → ρ → ρ)
    : Field δ ρ :=
  valueField name (optional? Source.text?) (.ofOption .string) none get set

def flagField (name : String) (get : ρ → Bool) (set : Bool → ρ → ρ) : Field δ ρ :=
  valueField name Source.flag? .bool false get set

def uint64Field (name : String) (default : UInt64) (get : ρ → UInt64) (set : UInt64 → ρ → ρ)
    : Field δ ρ :=
  valueField name uint64? (fun n => .ofNat n.toNat) default get set

def optionalUInt64Field (name : String) (get : ρ → Option UInt64) (set : Option UInt64 → ρ → ρ)
    : Field δ ρ :=
  valueField name (optional? uint64?) (.ofOption fun n => .ofNat n.toNat) none get set

def uint32Field (name : String) (default : UInt32) (get : ρ → UInt32) (set : UInt32 → ρ → ρ)
    : Field δ ρ :=
  valueField name uint32? (fun n => .ofNat n.toNat) default get set

def optionalUInt32Field (name : String) (get : ρ → Option UInt32) (set : Option UInt32 → ρ → ρ)
    : Field δ ρ :=
  valueField name (optional? uint32?) (.ofOption fun n => .ofNat n.toNat) none get set

def recordField {τ : Type} (name : String) (fields : List (Field δ τ)) (default : τ)
    (get : ρ → τ) (set : τ → ρ → ρ) : Field δ ρ :=
  valueField name (Record.read fields default) (Record.write fields) default get set

end

end BringUp.Record
