import BringUp.Number.Digits

/-!
This module contains YAML values, as far as a configuration needs them, and which words and numbers
plain scalars stand for.
-/

namespace BringUp

/--
A YAML value. Of a scalar it is kept whether it was written without quotes, since only then it may
stand for anything but text. What is left out altogether is an empty plain scalar.
-/
inductive Yaml where
  | scalar (plain : Bool) (text : String)
  | sequence (items : List Yaml)
  | mapping (members : List (String × Yaml))

namespace Yaml

def empty : Yaml := scalar true ""

def isNull (s : String) : Bool :=
  s = "null" || s = "Null" || s = "NULL" || s = "~"

def bool? (s : String) : Option Bool :=
  if s = "true" ∨ s = "True" ∨ s = "TRUE" then some true
  else if s = "false" ∨ s = "False" ∨ s = "FALSE" then some false
  else none

def unsigned (cs : List Char) : List Char :=
  match cs with
  | '+' :: rest | '-' :: rest => rest
  | _ => cs

/--
Decide whether a text has the digits of a number with needless zeros in front. Such a text is no
number.
-/
def hasNeedlessZero (cs : List Char) : Bool :=
  let digits := unsigned cs
  digits.head? = some '0' && 1 < digits.length && digits.all Char.isDigit

def magnitude? (cs : List Char) : Option Nat :=
  match cs with
  | '0' :: 'x' :: ds => Number.ofDigits? 16 ds
  | '0' :: 'o' :: ds => Number.ofDigits? 8 ds
  | '0' :: 'b' :: ds => Number.ofDigits? 2 ds
  | _ => if hasNeedlessZero cs then none else Number.ofDigits? 10 cs

def natural? (s : String) : Option Nat :=
  match s.toList with
  | '+' :: cs => magnitude? cs
  | cs => magnitude? cs

end Yaml

end BringUp
