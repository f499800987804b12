/-!
This module contains JSON values. Members of an object keep their order and their repetitions, so
that a reader can tell what was written.
-/

namespace BringUp

inductive Json where
  | null
  | bool (value : Bool)
  | integer (value : Int)
  /-- Any other number, as it is written. -/
  | decimal (literal : String)
  | string (value : String)
  | array (items : List Json)
  | object (members : List (String × Json))

namespace Json

def ofNat (n : Nat) : Json := integer n

def ofOption (f : α → Json) : Option α → Json
  | none => null
  | some a => f a

def strings (ts : List String) : Json := array (ts.map string)

/--
The last member with a name.
-/
def get? (name : String) : Json → Option Json
  | object members => (members.reverse.find? (·.1 = name)).map (·.2)
  | _ => none

def asString? : Json → Option String
  | string s => some s
  | _ => none

def asBool? : Json → Option Bool
  | bool b => some b
  | _ => none

def asInt? : Json → Option Int
  | integer n => some n
  | _ => none

def asNat? : Json → Option Nat
  | integer (.ofNat n) => some n
  | _ => none

def asArray? : Json → Option (List Json)
  | array items => some items
  | _ => none

end Json

end BringUp
