/-!
This module contains the watching of local input for the sequence that ends a session: the escape
byte, typed twice in a row and in quick succession.
-/

namespace BringUp

/--
Watches input for two escape bytes in a row, the second no later than `window` after the first.
-/
structure EscapeDetector where
  escapeByte : UInt8
  window : Nat
  firstSeen : Option Nat
deriving DecidableEq

namespace EscapeDetector

def fresh (escapeByte : UInt8) (window : Nat) : EscapeDetector := ⟨escapeByte, window, none⟩

def isArmed (d : EscapeDetector) : Bool := d.firstSeen.isSome

/--
Forget a first escape byte that was seen too long ago. If the clock went back, no time has passed.
-/
def expire (d : EscapeDetector) (now : Nat) : EscapeDetector :=
  { d with firstSeen := d.firstSeen.filter fun first => now - first ≤ d.window }

def feed (d : EscapeDetector) (byte : UInt8) (now : Nat) : Bool × EscapeDetector :=
  if byte ≠ d.escapeByte then (false, { d with firstSeen := none })
  else if (d.expire now).isArmed then (true, { d with firstSeen := none })
  else (false, { d with firstSeen := some now })

def feedAll (d : EscapeDetector) : List (UInt8 × Nat) → List (Bool × Bool)
  | [] => []
  | (byte, now) :: rest =>
    let (fired, d) := d.feed byte now
    (fired, d.isArmed) :: d.feedAll rest

end EscapeDetector

end BringUp
