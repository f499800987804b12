import BringUp.Console.Escape
import BringUp.Console.Pacing
import BringUp.Error

/-!
This module contains sessions that relay a remote console to a local one. What arrives from the
remote is shown at once; what is typed is watched for the sequence that ends the session and
otherwise sent, one byte at a time.
-/

namespace BringUp

structure RelayOptions where
  escapeByte : UInt8
  /-- The milliseconds allowed between two escape bytes. -/
  escapeWindow : Nat
  txInterval : Nat
  bufferSize : Nat
deriving DecidableEq

/--
The settings used where nothing else is said. The escape byte is the one of Ctrl-].
-/
def RelayOptions.initial : RelayOptions := ⟨0x1d, 500, 5, 1024⟩

def RelayOptions.readSize (o : RelayOptions) : Nat := max o.bufferSize 1

inductive RelayExit where
  | disconnected
  | remoteClosed
deriving DecidableEq

inductive RelayEvent where
  /-- A read from the remote. Reading no bytes means that the remote is closed. -/
  | read (bytes : List UInt8)
  | readError (reason : String)
  | typed (chunk : List UInt8)
  | typedEnd
  | beat
deriving DecidableEq

structure RelayEnds where
  output : Nat → Except String Unit
  remote : Nat → Except String Unit

structure RelaySession where
  detector : EscapeDetector
  pacer : Pacer
  pending : List UInt8
  inputOpen : Bool
  output : List (Nat × List UInt8)
  sent : List (Nat × UInt8)
  exit : Option (Except Error RelayExit)

namespace RelaySession

def starting (o : RelayOptions) (now : Nat) : RelaySession where
  detector := .fresh o.escapeByte o.escapeWindow
  pacer := .starting o.txInterval now
  pending := []
  inputOpen := true
  output := []
  sent := []
  exit := none

def fail (s : RelaySession) (reason : String) : RelaySession :=
  { s with exit := some (.error (.relay reason)) }

def showBytes (s : RelaySession) (ends : RelayEnds) (now : Nat) (bytes : List UInt8)
    : RelaySession :=
  match ends.output s.output.length with
  | .ok () => { s with output := s.output ++ [(now, bytes)] }
  | .error reason => s.fail reason

/--
End the session. A line feed moves past any line that is not complete.
-/
def close (s : RelaySession) (ends : RelayEnds) (now : Nat) (exit : RelayExit) : RelaySession :=
  let s := s.showBytes ends now [10]
  { s with exit := s.exit.or (some (.ok exit)) }

def sendNext (s : RelaySession) (ends : RelayEnds) (now : Nat) : RelaySession :=
  match s.pending with
  | [] => s
  | byte :: rest =>
    let s := { s with pending := rest }
    match ends.remote s.sent.length with
    | .ok () => { s with sent := s.sent ++ [(now, byte)] }
    | .error reason => s.fail reason

/--
Take typed bytes up to the one that completes the sequence, and tell whether there is one. That byte
is not sent, nor is any behind it.
-/
def take (s : RelaySession) (now : Nat) : List UInt8 → Bool × RelaySession
  | [] => (false, s)
  | byte :: rest =>
    let (fired, detector) := s.detector.feed byte now
    let s := { s with detector }
    if fired then (true, s)
    else take { s with pending := s.pending ++ [byte] } now rest

def allows (s : RelaySession) (now : Nat) (e : RelayEvent) : Bool :=
  s.exit.isNone &&
    match e with
    | .read _ | .readError _ => true
    | .typed _ | .typedEnd => s.inputOpen
    | .beat => !s.pending.isEmpty && s.pacer.due ≤ now

def after (s : RelaySession) (ends : RelayEnds) (now : Nat) : RelayEvent → RelaySession
  | .read [] => s.close ends now .remoteClosed
  | .read bytes => s.showBytes ends now bytes
  | .readError reason => s.fail reason
  | .typed chunk =>
    let (fired, s) := s.take now chunk
    if fired then s.close ends now .disconnected else s
  | .typedEnd => { s with inputOpen := false }
  | .beat => { s with pacer := s.pacer.beat now }.sendNext ends now

def step? (s : RelaySession) (ends : RelayEnds) (now : Nat) (e : RelayEvent)
    : Option RelaySession :=
  if s.allows now e then some (s.after ends now e) else none

end RelaySession

end BringUp
