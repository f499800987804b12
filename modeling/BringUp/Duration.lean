import BringUp.Number.Binary

/-!
This module contains lengths of time.
-/

namespace BringUp

/--
A length of time, in nanoseconds.
-/
structure Duration where
  nanoseconds : Nat
deriving DecidableEq

namespace Duration

def nanosecondsPerSecond : Nat := 1000000000

def ofMillis (ms : Nat) : Duration := ⟨ms * 1000000⟩

def ofSeconds (s : Nat) : Duration := ⟨s * nanosecondsPerSecond⟩

/--
The number of seconds as a 53 bit binary fraction: the whole seconds and the rest are rounded each
for itself, and then their sum.
-/
def toSeconds (d : Duration) : Number.Fraction :=
  let whole := Number.Fraction.toBinary ⟨d.nanoseconds / nanosecondsPerSecond, 1⟩
  let rest := Number.Fraction.toBinary ⟨d.nanoseconds % nanosecondsPerSecond, nanosecondsPerSecond⟩
  (whole.add rest).toBinary

def secondsText (d : Duration) : String :=
  d.toSeconds.toTenths

end Duration

end BringUp
