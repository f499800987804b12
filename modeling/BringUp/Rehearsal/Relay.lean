import BringUp.Console.Relay

/-!
This module contains the playing of relay sessions against a script of what arrives when. A beat
that is due no later than the next arrival is taken first, and every arrival is taken at its time.
-/

namespace BringUp.Rehearsal

def reads (size : Nat) (bytes : List UInt8) : List (List UInt8) :=
  go bytes.length bytes
where
  go : Nat → List UInt8 → List (List UInt8)
    | _, [] => []
    | 0, _ :: _ => []
    | n + 1, bs@(_ :: _) => bs.take size :: go n (bs.drop size)

structure Cue where
  time : Nat
  event : RelayEvent

structure Scene where
  now : Nat
  session : RelaySession

namespace Scene

def take (c : Scene) (ends : RelayEnds) (time : Nat) (e : RelayEvent) : Scene :=
  ⟨time, (c.session.step? ends time e).getD c.session⟩

def beatsUntil (ends : RelayEnds) (time : Nat) : Nat → Scene → Scene
  | 0, c => c
  | n + 1, c =>
    let due := max c.session.pacer.due c.now
    if c.session.allows due .beat && due ≤ time then beatsUntil ends time n (c.take ends due .beat)
    else c

def play (ends : RelayEnds) : List Cue → Scene → Scene
  | [], c => c
  | cue :: cues, c =>
    let c := beatsUntil ends cue.time c.session.pending.length c
    if c.session.exit.isSome then c
    else
      let c := c.take ends cue.time cue.event
      if c.session.exit.isSome then c else play ends cues c

end Scene

def acceptWrites (limit : Option Nat) (count : Nat) : Except String Unit :=
  match limit with
  | some n => if count < n then .ok () else .error "write refused"
  | none => .ok ()

end BringUp.Rehearsal
