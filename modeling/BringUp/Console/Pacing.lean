/-!
This module contains the pacing of bytes that are sent one at a time.
-/

namespace BringUp

structure Pacer where
  period : Nat
  due : Nat
deriving DecidableEq

namespace Pacer

/--
The milliseconds for which a beat may be late and still count as one on time.
-/
def tolerance : Nat := 5

def starting (interval now : Nat) : Pacer := ⟨max interval 1, now⟩

/--
Take the beat that is due. The next one comes one period later: counted from when this one was due
if it is taken on time, or else from now.
-/
def beat (p : Pacer) (now : Nat) : Pacer :=
  { p with due := (if now ≤ p.due + tolerance then p.due else now) + p.period }

end Pacer

end BringUp
