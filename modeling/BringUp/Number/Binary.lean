/-!
This module contains rounding in exact arithmetic: to the nearest whole number, and to the nearest
binary fraction with a 53 bit mantissa. In both a tie goes to the even neighbour.
-/

namespace BringUp.Number

structure Fraction where
  num : Nat
  den : Nat

/--
Divide and round to the nearest whole number. A tie goes to the even neighbour.
-/
def roundDiv (num den : Nat) : Nat :=
  let q := num / den
  let r := num % den
  if 2 * r < den then q
  else if den < 2 * r then q + 1
  else if q % 2 = 0 then q
  else q + 1

def Fraction.add (a b : Fraction) : Fraction :=
  ⟨a.num * b.den + b.num * a.den, a.den * b.den⟩

/--
The binary fraction with a mantissa of 53 bits that is nearest to `a`. The mantissa of a number in
`[2 ^ k, 2 ^ (k + 1))` counts units of `2 ^ (k - 52)`.
-/
def Fraction.toBinary (a : Fraction) : Fraction :=
  if a.num = 0 then ⟨0, 1⟩
  else if a.den ≤ a.num then
    let k := Nat.log2 (a.num / a.den)
    if k ≤ 52 then ⟨roundDiv (a.num <<< (52 - k)) a.den, 1 <<< (52 - k)⟩
    else ⟨roundDiv a.num (a.den <<< (k - 52)) <<< (k - 52), 1⟩
  else
    let k := Nat.log2 ((a.den + a.num - 1) / a.num - 1) + 1
    ⟨roundDiv (a.num <<< (52 + k)) a.den, 1 <<< (52 + k)⟩

def Fraction.toTenths (a : Fraction) : String :=
  let tenths := roundDiv (a.num * 10) a.den
  Nat.repr (tenths / 10) ++ "." ++ Nat.repr (tenths % 10)

end BringUp.Number
