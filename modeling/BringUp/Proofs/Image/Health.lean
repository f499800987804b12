import BringUp.Image.Writer
import BringUp.Proofs.Lab.Health
import Mathlib.Data.List.Forall2

/-!
This module contains what keeps an image from being written or sent even if no call fails: a method
that does not do that, firmware that is not named and lines that are not bound. The main statements
are that then the first of these is reported, and that there is no other error.
-/

namespace BringUp

open Program

def Artifact.missing? (o : WriterOptions) : Artifact → Option Blob
  | .build _ => none
  | .blob b => if o.blobPath b = none then some b else none

def PlannedWrite.Realizes (stage : WriteStage) (p : PlannedWrite) : Prop :=
  p.role = stage.role ∧ p.target = stage.target

namespace Writer

def partObstacle? (w : Writer) (stage : WriteStage) : Option Error :=
  if stage.target = .emulator ∧ w.emulator = false then
    some (.writeFailed stage.role w.method.name (Error.capability "emulator" "not bound").message)
  else none

/--
What keeps parts from being written: storage that is needed and not bound, or else the first part
that can not be written.
-/
def lineObstacle? (w : Writer) (stages : List WriteStage) : Option Error :=
  if (∃ stage ∈ stages, stage.target ≠ .emulator) ∧ w.storage = false then
    some (.capability "storage" s!"method {w.method.name} writes to storage")
  else stages.findSome? w.partObstacle?

def writeObstacle? (w : Writer) : Option Error :=
  match w.method.write with
  | none => some (.unsupportedWriteMethod "writing" w.method.name)
  | some stages =>
    match stages.findSome? fun stage => stage.source.missing? w.options with
    | some b => some (.config s!"method {w.method.name} needs the {b.name} blob")
    | none => w.lineObstacle? stages

def sendObstacle? (w : Writer) : Option Error :=
  match w.method.send with
  | none => some (.unsupportedWriteMethod "sending" w.method.name)
  | some _ =>
    if w.usbLoader then none
    else some (.capability "usb-loader" s!"method {w.method.name} sends over USB")

section

variable {m : Method} {o : WriterOptions} {stages : List WriteStage}

theorem planStage_missing (hmissing : stage.source.missing? o = some b)
    : m.planStage o dir stage = .error (.config s!"method {m.name} needs the {b.name} blob") := by
  obtain ⟨role, source, target⟩ := stage
  cases source with
  | build file => cases hmissing
  | blob b' =>
    obtain ⟨hnone, rfl⟩ : o.blobPath b' = none ∧ b' = b := by
      simpa [Artifact.missing?] using hmissing
    simp only [Method.planStage, Method.artifactPath, hnone]
    rfl

theorem planStage_realizes (m : Method) (dir : String)
    (hnone : stage.source.missing? o = none)
    : ∃ p, m.planStage o dir stage = .ok p ∧ PlannedWrite.Realizes stage p := by
  obtain ⟨role, source, target⟩ := stage
  cases source with
  | build file => exact ⟨⟨role, Path.join dir file, target⟩, rfl, rfl, rfl⟩
  | blob b =>
    obtain ⟨path, hpath⟩ : ∃ path, o.blobPath b = some path := by
      simpa [Artifact.missing?, Option.ne_none_iff_exists'] using hnone
    refine ⟨⟨role, path, target⟩, ?_, rfl, rfl⟩
    simp only [Method.planStage, Method.artifactPath, hpath]
    rfl

theorem planStages_missing
    (hmissing : stages.findSome? (fun stage => stage.source.missing? o) = some b)
    : stages.mapM (m.planStage o dir) =
        .error (.config s!"method {m.name} needs the {b.name} blob") := by
  induction stages with
  | nil => cases hmissing
  | cons stage stages ih =>
    rw [List.mapM_cons]
    cases hfirst : stage.source.missing? o with
    | some b' =>
      obtain rfl : b' = b := by simpa [hfirst] using hmissing
      rw [planStage_missing hfirst]
      rfl
    | none =>
      obtain ⟨p, hp, _⟩ := planStage_realizes m dir hfirst
      rw [hp, ih (by simpa [hfirst] using hmissing)]
      rfl

theorem planStages_realizes (m : Method) (dir : String)
    (hnone : stages.findSome? (fun stage => stage.source.missing? o) = none)
    : ∃ plan, stages.mapM (m.planStage o dir) = .ok plan ∧
        List.Forall₂ PlannedWrite.Realizes stages plan := by
  induction stages with
  | nil => exact ⟨[], rfl, .nil⟩
  | cons stage stages ih =>
    rw [List.findSome?_cons] at hnone
    cases hfirst : stage.source.missing? o with
    | some b => simp [hfirst] at hnone
    | none =>
      obtain ⟨p, hp, hrealizes⟩ := planStage_realizes m dir hfirst
      obtain ⟨plan, hplan, hrest⟩ := ih (by simpa [hfirst] using hnone)
      refine ⟨p :: plan, ?_, .cons hrealizes hrest⟩
      rw [List.mapM_cons, hp, hplan]
      rfl

theorem needsStorage_iff {plan : List PlannedWrite}
    (hplan : List.Forall₂ PlannedWrite.Realizes stages plan)
    : plan.any PlannedWrite.needsStorage = true ↔ ∃ stage ∈ stages, stage.target ≠ .emulator := by
  induction hplan with
  | nil => simp
  | cons hp _ ih => simp [PlannedWrite.needsStorage, hp.right, ← ih]

end

section

variable {σ : Type} {s : σ} {w : Writer} {stages : List WriteStage} {plan : List PlannedWrite}
variable {P : Promise} (hP : P.Responsive)
include hP

theorem endsWith_writePart {p : PlannedWrite} (hp : PlannedWrite.Realizes stage p)
    : (w.writePart p).EndsWith P
        (if stage.target = .emulator ∧ w.emulator = false then
          some (.capability "emulator" "not bound")
        else none) s := by
  rw [← hp.right]
  unfold writePart
  split
  . next htarget =>
    rw [htarget]
    exact yields_device_value hP fun _ => rfl
  . next htarget =>
    rw [htarget]
    exact yields_device_value hP fun _ => rfl
  . next htarget =>
    cases hbound : w.emulator with
    | false => simp [htarget, errorOf]
    | true =>
      simp only [if_true, htarget, reduceCtorEq, and_false, if_false]
      apply yields_device_bind hP
      intro _
      exact yields_device_value hP fun _ => rfl

theorem endsWith_writeParts (hplan : List.Forall₂ PlannedWrite.Realizes stages plan)
    : (w.writeParts plan).EndsWith P (stages.findSome? w.partObstacle?) s := by
  induction hplan generalizing s with
  | nil => rfl
  | @cons stage p stages plan hp _ ih =>
    have first : ((w.writePart p).mapError fun e =>
        .writeFailed p.role w.method.name e.message).EndsWith P (w.partObstacle? stage) s := by
      rw [EndsWith, yields_mapError]
      apply (endsWith_writePart hP hp).mono
      intro r s hr
      rw [partObstacle?, ← hp.left]
      split at hr <;> cases r <;> simp_all [errorOf, Except.mapError]
    have order : (stage :: stages).findSome? w.partObstacle? =
        (w.partObstacle? stage).or (stages.findSome? w.partObstacle?) := by
      rw [List.findSome?_cons]
      cases w.partObstacle? stage <;> rfl
    rw [order]
    exact first.bind fun _ _ => ih

theorem endsWith_writePlan (hplan : List.Forall₂ PlannedWrite.Realizes stages plan)
    : (w.writePlan plan).EndsWith P (w.lineObstacle? stages) s := by
  unfold writePlan lineObstacle?
  by_cases hneeds : ∃ stage ∈ stages, stage.target ≠ .emulator
  . rw [if_pos ((needsStorage_iff hplan).mpr hneeds)]
    cases hbound : w.storage with
    | false => simp [hneeds, errorOf]
    | true =>
      simp only [if_true, reduceCtorEq, and_false, if_false]
      apply yields_device_bind hP
      intro _
      apply (endsWith_writeParts hP hplan).attempt_bind
      intro result s hresult
      rw [EndsWith, yields_bind, yields_attempt]
      apply yields_device_value hP
      intro _
      rw [onValue_ok, yields_ofExcept, ← hresult]
      cases result <;> rfl
  . rw [if_neg (mt (needsStorage_iff hplan).mp hneeds), if_neg (fun hc => hneeds hc.left)]
    exact endsWith_writeParts hP hplan

theorem endsWith_takeCard : (takeCard : Program σ Error Unit).EndsWith P none s := by
  apply yields_device_bind hP
  intro _
  exact yields_device_value hP fun _ => rfl

theorem endsWith_writeCard (hplan : List.Forall₂ PlannedWrite.Realizes stages plan)
    : (w.writeCard plan).EndsWith P (w.lineObstacle? stages) s := by
  have written {s : σ}
      : (takeCard.bind fun _ => w.writePlan plan).EndsWith P (w.lineObstacle? stages) s :=
    (endsWith_takeCard hP).bind fun _ _ => endsWith_writePlan hP hplan
  unfold writeCard
  split
  . apply written.attempt_bind
    intro result s hresult
    simp only [EndsWith, sleep, yields_bind, yields_ask, onValue_ok, yields_attempt]
    intro _ _
    apply yields_device_value hP
    intro _
    rw [yields_ofExcept, ← hresult]
    cases result <;> rfl
  . exact endsWith_writePlan hP hplan

theorem endsWith_write : (w.write dir).EndsWith P w.writeObstacle? s := by
  rw [write, EndsWith, yields_bind, yields_ofExcept, planWrite, Method.planWrite, writeObstacle?]
  cases w.method.write with
  | none => rfl
  | some stages =>
    dsimp only
    cases hmissing : stages.findSome? fun stage => stage.source.missing? w.options with
    | some b =>
      rw [planStages_missing hmissing]
      rfl
    | none =>
      obtain ⟨plan, hok, hplan⟩ := planStages_realizes w.method dir hmissing
      rw [hok, onValue_ok]
      exact yields_asPart (endsWith_writeCard hP hplan)

theorem endsWith_sendParts {plan : List PlannedSend}
    : (w.sendParts plan : Program σ Error Unit).EndsWith P none s := by
  have loaded {s : σ}
      : (forEach
          (fun p : PlannedSend => (device (.load p.source p.phase)).mapError fun e =>
            .sendFailed p.role w.method.name e.message)
          plan : Program σ Error Unit).Ends P (.ok ()) s := by
    apply ends_forEach
    intro p _
    rw [Ends, yields_mapError]
    exact yields_device_value hP fun _ => ⟨rfl, rfl⟩
  apply yields_device_bind hP
  intro _
  apply loaded.bind
  rw [yields_mapError]
  exact yields_device_value hP fun _ => rfl

theorem endsWith_send : (w.send dir).EndsWith P w.sendObstacle? s := by
  rw [send, EndsWith, yields_bind, yields_ofExcept, planSend, Method.planSend, sendObstacle?]
  cases w.method.send with
  | none => rfl
  | some stages =>
    rw [onValue_ok]
    split
    . exact yields_asPart (endsWith_sendParts hP)
    . rfl

theorem endsWith_prepareBoot : (w.prepareBoot : Program σ Error Unit).EndsWith P none s := by
  unfold prepareBoot
  split
  . exact yields_device_value hP fun _ => rfl
  . rfl

end

end Writer

end BringUp
