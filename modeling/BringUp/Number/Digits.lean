/-!
This module contains numbers that are written with digits, of which there may be more than ten.
-/

namespace BringUp.Number

/--
The value of a digit. Letters follow on the decimal digits, and what is no digit has the value 36.
-/
def digitValue (c : Char) : Nat :=
  if c.isDigit then c.toNat - 48
  else if 'a' ≤ c ∧ c ≤ 'z' then c.toNat - 87
  else if 'A' ≤ c ∧ c ≤ 'Z' then c.toNat - 55
  else 36

def ofDigits? (radix : Nat) (cs : List Char) : Option Nat :=
  if cs.isEmpty || cs.any (radix ≤ digitValue ·) then none
  else some (cs.foldl (fun n c => radix * n + digitValue c) 0)

def hexDigits (count n : Nat) : List Char :=
  (List.range count).reverse.map fun i => Nat.digitChar (n >>> (4 * i) % 16)

end BringUp.Number
