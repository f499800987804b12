import BringUp.Text.Json.Basic

/-!
This module contains what a record can be read from: values of some written format, and what each of
them may be taken for.
-/

namespace BringUp.Record

class Source (δ : Type) where
  text? : δ → Option String
  flag? : δ → Option Bool
  natural? : δ → Option Nat
  isAbsent : δ → Bool
  members? : δ → Option (List (String × δ))
  items? : δ → Option (List δ)

instance : Source Json where
  text? := Json.asString?
  flag? := Json.asBool?
  natural? := Json.asNat?
  isAbsent
    | .null => true
    | _ => false
  members?
    | .object members => some members
    | _ => none
  items? := Json.asArray?

end BringUp.Record
