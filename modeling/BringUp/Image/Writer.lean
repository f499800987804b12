import BringUp.Image.Plan
import BringUp.Lab.Program

/-!
This module contains the writing and sending of a build. Writing goes through the card, which is
attached to the lab for as long as it takes and handed back in any case. Of the failures of one
write the first is reported.
-/

namespace BringUp

open Program

structure Writer where
  options : WriterOptions
  method : Method
  storage : Bool
  sdmux : Bool
  emulator : Bool
  usbLoader : Bool
deriving DecidableEq

namespace Writer

variable {σ : Type}

def ofOptions (options : WriterOptions) : Except Error Writer := do
  let method ← Method.lookup options.method
  .ok ⟨options, method, false, false, false, false⟩

def planWrite (w : Writer) (dir : String) : Except Error (List PlannedWrite) :=
  w.method.planWrite w.options dir

def planSend (w : Writer) (dir : String) : Except Error (List PlannedSend) :=
  w.method.planSend dir

def firstError (first second : Except ε Unit) : Except ε Unit :=
  match first with
  | .ok () => second
  | .error e => .error e

def writePart (w : Writer) (p : PlannedWrite) : Program σ Error Unit :=
  match p.target with
  | .image t => device (.writeImage p.source t)
  | .files t => device (.writeFiles [p.source] t)
  | .emulator =>
    if w.emulator then do
      device (.activate .emulator)
      device (.emulate p.source)
    else raise (.capability "emulator" "not bound")

def writeParts (w : Writer) (plan : List PlannedWrite) : Program σ Error Unit :=
  forEach
    (fun p =>
      (w.writePart p).mapError fun e => .writeFailed p.role w.method.name e.message)
    plan

/--
Write a plan, holding the storage meanwhile if any part of the plan needs it.
-/
def writePlan (w : Writer) (plan : List PlannedWrite) : Program σ Error Unit :=
  if plan.any PlannedWrite.needsStorage then
    if w.storage then do
      device (.activate .storage)
      let result ← (w.writeParts plan).attempt
      let released ← (device (.deactivate .storage)).attempt
      ofExcept (firstError result released)
    else raise (.capability "storage" s!"method {w.method.name} writes to storage")
  else w.writeParts plan

def takeCard : Program σ Error Unit := do
  device (.activate .sdmux)
  device (.mux .host)

/--
Write a plan. The card is attached to the lab before the first part is written. It is handed back to
the board after the last write has settled, also if a part could not be written.
-/
def writeCard (w : Writer) (plan : List PlannedWrite) : Program σ Error Unit :=
  if w.sdmux then do
    let result ← (takeCard.bind fun _ => w.writePlan plan).attempt
    sleep w.options.settleDelay
    let restored ← (device (.mux .device)).attempt
    ofExcept (firstError result restored)
  else w.writePlan plan

def write (w : Writer) (dir : String) : Program σ Error Unit := do
  let plan ← ofExcept (w.planWrite dir)
  asPart .write (w.writeCard plan)

def sendParts (w : Writer) (plan : List PlannedSend) : Program σ Error Unit := do
  device (.activate .usbLoader)
  forEach
    (fun p =>
      (device (.load p.source p.phase)).mapError fun e =>
        .sendFailed p.role w.method.name e.message)
    plan
  (device .execute).mapError fun e => .sendFailed "execute" w.method.name e.message

def send (w : Writer) (dir : String) : Program σ Error Unit := do
  let plan ← ofExcept (w.planSend dir)
  if w.usbLoader then asPart .send (w.sendParts plan)
  else raise (.capability "usb-loader" s!"method {w.method.name} sends over USB")

def prepareBoot (w : Writer) : Program σ Error Unit :=
  if w.sdmux then device (.mux .device) else pure ()

end Writer

end BringUp
