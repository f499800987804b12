import BringUp.Proofs.Boot.Footprint
import BringUp.Proofs.Lab.FailStop

/-!
This module contains which failures writing and sending stop at. The main statement is that after
the first failure inside of a write the storage is released and the card handed back, which does not
change what is reported.
-/

namespace BringUp

open Program Trace Faults

def DeviceCall.writesPart : DeviceCall → Bool
  | .writeImage _ _ | .writeFiles _ _ | .activate .emulator | .emulate _ => true
  | _ => false

def DeviceCall.completesPart : DeviceCall → Bool
  | .writeImage _ _ | .writeFiles _ _ | .emulate _ => true
  | _ => false

def DeviceCall.loadsPart : DeviceCall → Bool
  | .load _ _ => true
  | _ => false

namespace Trace

def completed (kind : DeviceCall → Bool) (t : List Event) : Nat :=
  t.countP fun e => e.success?.any kind

def written (t : List Event) : Nat := completed DeviceCall.completesPart t

def loaded (t : List Event) : Nat := completed DeviceCall.loadsPart t

theorem written_append : written (h ++ t) = written h + written t :=
  List.countP_append

theorem loaded_append : loaded (h ++ t) = loaded h + loaded t :=
  List.countP_append

theorem completed_eq_zero (hkind : kind (.activate .bootloader) = false)
    (ht : ∀ e ∈ t, ∀ c, e.call = .device c → kind c = false)
    : completed kind t = 0 := by
  rw [completed, List.countP_eq_zero]
  intro e he
  have hcall := ht e he
  unfold Event.success?
  split
  . simpa using hcall
  . simpa using hkind
  . simp

end Trace

namespace Writer

def partError (w : Writer) (p : PlannedWrite) (e : Error) : Error :=
  .writeFailed p.role w.method.name e.message

def nextError? (w : Writer) : Option PlannedWrite → Option Error
  | some p =>
    if p.target = .emulator ∧ w.emulator = false then
      some (w.partError p (.capability "emulator" "not bound"))
    else none
  | none => none

def openError? (w : Writer) (plan : List PlannedWrite) : Option Error :=
  if plan.any PlannedWrite.needsStorage then
    if w.storage then none
    else some (.capability "storage" s!"method {w.method.name} writes to storage")
  else w.nextError? plan.head?

def writeError? (w : Writer) (plan : List PlannedWrite) (before : List Event)
    : (c : DeviceCall) → Except Error c.Value → Option Error
  | c, .error e =>
    if c.writesPart then plan[written before]?.map (w.partError · e) else some e
  | .mux .host, .ok _ => w.openError? plan
  | .activate .storage, .ok _ => w.nextError? plan[written before]?
  | .writeImage _ _, .ok _ | .writeFiles _ _, .ok _ | .emulate _, .ok _ =>
    w.nextError? plan[written before + 1]?
  | _, .ok _ => none

def sendError? (w : Writer) (plan : List PlannedSend) (before : List Event)
    : (c : DeviceCall) → Except Error c.Value → Option Error
  | .load _ _, .error e =>
    plan[loaded before]?.map fun p => .sendFailed p.role w.method.name e.message
  | .execute, .error e => some (.sendFailed "execute" w.method.name e.message)
  | _, .error e => some e
  | _, .ok _ => none

structure HeedsWrite (w : Writer) (plan : List PlannedWrite) (F : Faults) : Prop where
  fails {r : Except Error c.Value} (hc : c.device ∈ writeLines)
    : F.Fails before ⟨.device c, start, stop, some r⟩ err ↔ w.writeError? plan before c r = some err
  fails_begins
    : F.Fails before ⟨.mark (.begins .write), now, now, some ()⟩ err ↔
        w.sdmux = false ∧ w.openError? plan = some err

structure HeedsSend (w : Writer) (plan : List PlannedSend) (F : Faults) : Prop where
  fails {r : Except Error c.Value} (hc : c.device = .usbLoader)
    : F.Fails before ⟨.device c, start, stop, some r⟩ err ↔ w.sendError? plan before c r = some err

section

variable {σ : Type} {F : Faults} {w : Writer} {plan : List PlannedWrite}
variable (hF : w.HeedsWrite plan F)

include hF

theorem HeedsWrite.error (hc : c.device ∈ writeLines) (hpart : c.writesPart = false)
    : F.Fails before ⟨.device c, start, stop, some (.error e)⟩ err ↔ err = e := by
  rw [hF.fails hc]
  simp [writeError?, hpart, eq_comm]

theorem HeedsWrite.partError (hc : c.device ∈ writeLines) (hpart : c.writesPart = true)
    (hnext : plan[written before]? = some p)
    : F.Fails before ⟨.device c, start, stop, some (.error e)⟩ (w.partError p e) := by
  rw [hF.fails hc]
  simp [writeError?, hpart, hnext]

theorem HeedsWrite.device_stops {c : DeviceCall} (hc : c.device ∈ writeLines)
    (hpart : c.writesPart = false) (hok : ∀ v, w.writeError? plan h c (.ok v) = check)
    (hh : F.Clean h)
    : (device c : Program σ Error (no_index c.Value)).Ensures (F.stopping fun _ => check)
        s now h := by
  rw [ensures_device]
  refine ⟨.inl hh.unreplied, ?_⟩
  intro stop r _
  cases r with
  | error e => exact hh.fails ((hF.error hc hpart).mpr rfl)
  | ok v =>
    apply hh.checked
    intro err
    rw [hF.fails hc, hok]

theorem HeedsWrite.stops_device {c : DeviceCall} (hc : c.device ∈ writeLines)
    (hpart : c.writesPart = false) (hok : ∀ h v, w.writeError? plan h c (.ok v) = none)
    : F.Stops (device c : Program σ Error (no_index c.Value)) := by
  intro s now h hh
  exact hF.device_stops hc hpart (hok h) hh

theorem HeedsWrite.part_stops {c : DeviceCall} (hc : c.device ∈ writeLines)
    (hpart : c.writesPart = true) (hok : ∀ v, w.writeError? plan h c (.ok v) =
      w.nextError? plan[written h + 1]?)
    (hh : F.Clean h) (hnext : plan[written h]? = some p)
    : ((device c : Program σ Error c.Value).mapError (w.partError p)).Ensures
        (F.stopping fun _ => w.nextError? plan[written h + 1]?) s now h := by
  rw [ensures_mapError, ensures_device]
  refine ⟨.inl hh.unreplied, ?_⟩
  intro stop r _
  cases r with
  | error e => exact hh.fails (hF.partError hc hpart hnext)
  | ok v =>
    apply hh.checked
    intro err
    rw [hF.fails hc, hok]

theorem HeedsWrite.writePart_stops (hh : F.Checked (w.nextError? (some p)) h)
    (hnext : plan[written h]? = some p)
    : ((w.writePart p).mapError (w.partError p) : Program σ Error Unit).Ensures
        (F.stopping fun _ => w.nextError? plan[written h + 1]?) s now h := by
  unfold writePart
  cases htarget : p.target with
  | image t =>
    simp only [nextError?, htarget] at hh
    exact hF.part_stops (c := .writeImage p.source t) (by simp [DeviceCall.device, writeLines]) rfl
      (fun _ => rfl) hh hnext
  | files t =>
    simp only [nextError?, htarget] at hh
    exact hF.part_stops (c := .writeFiles [p.source] t)
      (by simp [DeviceCall.device, writeLines]) rfl (fun _ => rfl) hh hnext
  | emulator =>
    simp only [nextError?, htarget, true_and] at hh
    dsimp only
    by_cases hbound : w.emulator = true
    . rw [if_pos hbound, ensures_mapError, ensures_bind, ensures_device]
      rw [if_neg (by simp [hbound])] at hh
      have hh : F.Clean h := hh
      refine ⟨.inl hh.unreplied, ?_⟩
      intro stop r _
      cases r with
      | error e => exact hh.fails (hF.partError (by decide) rfl hnext)
      | ok v =>
        have activated : F.Clean
            (h ++ [⟨.device (.activate .emulator), now, stop, some (.ok v)⟩]) := by
          apply hh.concat
          intro err
          rw [hF.fails (by decide)]
          simp [writeError?]
        have same : written
            (h ++ [⟨.device (.activate .emulator), now, stop, some (.ok v)⟩]) = written h := by
          rw [written_append]
          rfl
        rw [← same] at hnext ⊢
        have emulated : ((device (.emulate p.source) : Program σ Error Unit).mapError
              (w.partError p)).Ensures
            (F.stopping fun _ => w.nextError? plan[written
              (h ++ [⟨.device (.activate .emulator), now, stop, some (.ok v)⟩]) + 1]?) s stop
            (h ++ [⟨.device (.activate .emulator), now, stop, some (.ok v)⟩]) :=
          hF.part_stops (c := .emulate p.source) (by simp [DeviceCall.device, writeLines]) rfl
            (fun _ => rfl) activated hnext
        exact ensures_mapError.mp emulated
    . rw [if_neg hbound]
      rw [if_pos (by simpa using hbound)] at hh
      exact hh

omit hF in
theorem writePart_written
    : ((w.writePart p).mapError (w.partError p) : Program σ Error Unit).Ensures
        (.either (fun _ _ _ h' => written h' = written h + 1) fun _ _ _ => True) s now h := by
  have part : (w.writePart p : Program σ Error Unit).Ensures
      (.either (fun _ _ _ h' => written h' = written h + 1) fun _ _ _ => True) s now h := by
    unfold writePart
    split
    . simp [written, completed, Event.success?, DeviceCall.completesPart]
    . simp [written, completed, Event.success?, DeviceCall.completesPart]
    . split
      . simp [written, completed, Event.success?, DeviceCall.completesPart]
      . trivial
  rw [ensures_mapError]
  apply part.mono
  intro r s now h' hr
  rcases r with _ | e | a
  . trivial
  . trivial
  . exact hr

theorem HeedsWrite.parts_stops (front : List PlannedWrite) (hplan : plan = front ++ rest)
    (hfront : written h = front.length) (hh : F.Checked (w.nextError? rest.head?) h)
    : (w.writeParts rest : Program σ Error Unit).Ensures (F.stopping fun _ => none) s now h := by
  -- The parts in `front` are those that the events before count as written.
  induction rest generalizing front s now h with
  | nil => exact hh
  | cons p rest ih =>
    have hnext : plan[written h]? = some p := by simp [hplan, hfront]
    have hrest : plan[written h + 1]? = rest.head? := by
      rw [hplan, hfront, List.getElem?_append_right (Nat.le_succ _), List.head?_eq_getElem?]
      simp
    apply stopping_andThen (hF.writePart_stops hh hnext) writePart_written
    intro _ s now h' hh' hwritten
    rw [hrest] at hh'
    exact ih (front ++ [p]) (by simp [hplan]) (by simp [hwritten, hfront]) hh'

def Releases : Call → Prop
  | .device (.deactivate .storage) | .device (.mux .device) | .sleep _ => True
  | _ => False

omit hF in
theorem Releases.repairs (hc : Releases c) (hd : During .write (before ++ [e]))
    : Repairs before e c := by
  unfold Releases at hc
  split at hc
  . exact hd
  . exact hd
  . trivial
  . contradiction

omit hF in
theorem stopping_release {p q : Program σ Error Unit} (hh : F.Clean h) (hd : During .write h)
    (ht : ∀ e ∈ t, Footprint.Covers ⟨writeLines, []⟩ e.call)
    (hp : p.Ensures (F.stopping fun _ => none) s now (h ++ t))
    (hw : p.Within (Footprint.Covers ⟨writeLines, []⟩)) (hq : F.Stops q) (hr : q.Within Releases)
    : (do
        let result ← p.attempt
        let released ← q.attempt
        ofExcept (firstError result released) : Program σ Error Unit).Ensures
        (F.stopping fun _ => none) s now (h ++ t) := by
  have added : p.Ensures
      (fun _ s' _ h' => s' = s ∧
        ∃ u, h' = h ++ (t ++ u) ∧ ∀ e ∈ t ++ u, Footprint.Covers ⟨writeLines, []⟩ e.call)
      s now (h ++ t) :=
    hw.ensures fun _ _ u hu => ⟨rfl, u, by simp, List.forall_mem_append.mpr ⟨ht, hu⟩⟩
  rw [ensures_bind, ensures_attempt]
  apply (hp.and added).mono
  rintro r _ now _ ⟨stopped, rfl, u, rfl, hu⟩
  rcases r with _ | e | ⟨⟨⟩⟩
  . exact stopped
  . -- What fails while releasing is not looked at.
    have released {x : List Event} (hx : ∀ c ∈ x, Releases c.call)
        : F.Stopped e (h ++ (t ++ u) ++ x) := by
      apply Stopped.append stopped hh
      intro front f after hsplit y hy
      apply (hx y hy).repairs
      rw [List.append_assoc]
      apply hd.append
      intro g hg success hends
      have hmem : g ∈ t ++ u := by
        rw [hsplit, List.append_cons]
        exact List.mem_append_left after hg
      have covers := hu g hmem
      simp [hends, Footprint.Covers] at covers
    rw [Post.andHandle_some, ensures_done, Post.andThen_ok, ensures_bind, ensures_attempt]
    apply hr.ensures
    intro r now x hx
    cases r with
    | none => exact .inr ⟨e, released hx⟩
    | some r => exact released hx
  . rw [Post.andHandle_some, ensures_done, Post.andThen_ok, ensures_bind, ensures_attempt]
    apply (hq _ now _ stopped).mono
    intro r s now h' hr
    cases r with
    | none => exact hr
    | some r => exact hr

theorem HeedsWrite.writePlan_stops (hd : During .write h) (hw : written h = 0)
    (hh : F.Checked (w.openError? plan) h)
    : (w.writePlan plan : Program σ Error Unit).Ensures (F.stopping fun _ => none) s now h := by
  unfold writePlan
  unfold openError? at hh
  split
  . next hneeds =>
    rw [if_pos hneeds] at hh
    split
    . next hbound =>
      rw [if_pos hbound] at hh
      have hh : F.Clean h := hh
      rw [ensures_bind, ensures_device]
      refine ⟨.inl hh.unreplied, ?_⟩
      intro stop r _
      cases r with
      | error e => exact hh.fails ((hF.error (by decide) rfl).mpr rfl)
      | ok v =>
        have activated : F.Checked (w.nextError? plan.head?)
            (h ++ [⟨.device (.activate .storage), now, stop, some (.ok v)⟩]) := by
          apply hh.checked
          intro err
          rw [hF.fails (by decide)]
          simp [writeError?, hw, List.head?_eq_getElem?]
        have none : written
            (h ++ [⟨.device (.activate .storage), now, stop, some (.ok v)⟩]) = 0 := by
          rw [written_append, hw]
          rfl
        apply stopping_release hh hd
        . simp [Footprint.Covers, DeviceCall.device, writeLines]
        . exact hF.parts_stops [] rfl none activated
        . apply (w.writeParts_within plan).mono
          intro c hc
          exact hc.mono (by simp [writeLines]) (by simp)
        . exact hF.stops_device (by decide) rfl fun _ _ => rfl
        . simp [Releases]
    . next hunbound =>
      rw [if_neg hunbound] at hh
      exact hh
  . next hneeds =>
    rw [if_neg hneeds] at hh
    exact hF.parts_stops [] rfl hw hh

theorem HeedsWrite.takeCard_stops (hh : F.Clean h)
    : (takeCard : Program σ Error Unit).Ensures (F.stopping fun _ => w.openError? plan)
        s now h := by
  apply stopping_bind (hF.device_stops (by decide) rfl (fun _ => rfl) hh)
  intro _ s now h hh
  exact hF.device_stops (by decide) rfl (fun _ => rfl) hh

theorem HeedsWrite.writeCard_stops (hd : During .write h) (hw : written h = 0)
    (hh : F.Checked (if w.sdmux then none else w.openError? plan) h)
    : (w.writeCard plan : Program σ Error Unit).Ensures (F.stopping fun _ => none) s now h := by
  unfold writeCard
  split
  . next hmux =>
    rw [if_pos hmux] at hh
    have hh : F.Clean h := hh
    have taken : (takeCard : Program σ Error Unit).Ensures
        (.either (fun _ _ _ h' => During .write h' ∧ written h' = 0) fun _ _ _ => True)
        s now h := by
      apply takeCard_within.ensures
      intro r now t ht
      rcases r with _ | e | u
      . trivial
      . trivial
      . refine ⟨hd.append ?_, ?_⟩
        . intro e he success hends
          have covers := ht e he
          simp [hends, Footprint.Covers] at covers
        . rw [written_append, hw, Nat.zero_add]
          apply completed_eq_zero rfl
          intro e he c hcall
          have covers := ht e he
          rw [hcall] at covers
          unfold DeviceCall.completesPart
          split <;> simp_all [Footprint.Covers, DeviceCall.device]
    have planned : (takeCard >>= fun _ => w.writePlan plan : Program σ Error Unit).Ensures
        (F.stopping fun _ => none) s now h := by
      apply stopping_andThen (hF.takeCard_stops hh) taken
      rintro _ s now h hh ⟨hd, hw⟩
      exact hF.writePlan_stops hd hw hh
    have restores : F.Stops (do
        sleep w.options.settleDelay
        device (.mux .device) : Program σ Error Unit) :=
      stops_bind stops_sleep fun _ => hF.stops_device (by decide) rfl fun _ _ => rfl
    have within : (takeCard >>= fun _ => w.writePlan plan : Program σ Error Unit).Within
        (Footprint.Covers ⟨writeLines, []⟩) := by
      apply within_bind
      . apply takeCard_within.mono
        intro c hc
        exact hc.mono (by simp [writeLines]) (by simp)
      . intro _
        apply (w.writePlan_within plan).mono
        intro c hc
        exact hc.mono (by simp [writeLines]) (by simp)
    rw [← List.append_nil h] at planned ⊢
    exact stopping_release hh hd (by simp) planned within restores (by simp [sleep, Releases])
  . next hmux =>
    rw [if_neg hmux] at hh
    exact hF.writePlan_stops hd hw hh

theorem HeedsWrite.write_stops
    (hfresh : ∀ e ∈ h, ∀ success, e.call ≠ .mark (.ends .write success)) (hw : written h = 0)
    (hh : F.Clean h)
    : (asPart .write (w.writeCard plan) : Program σ Error Unit).Ensures
        (F.stopping fun _ => none) s now h := by
  apply stopping_asPart
  apply hF.writeCard_stops
  . constructor
    . simp [Begun]
    . intro e he success
      rcases List.mem_append.mp he with he | he
      . exact hfresh e he success
      . simp_all
  . rw [written_append, hw]
    rfl
  . apply hh.checked
    intro err
    rw [hF.fails_begins]
    split <;> simp_all

end

section

variable {σ : Type} {F : Faults} {w : Writer} {plan : List PlannedSend}
variable (hF : w.HeedsSend plan F)

include hF

theorem HeedsSend.loads_stops (front : List PlannedSend) (hplan : plan = front ++ rest)
    (hfront : loaded h = front.length) (hh : F.Clean h)
    : (forEach
        (fun p =>
          (device (.load p.source p.phase)).mapError fun e =>
            .sendFailed p.role w.method.name e.message)
        rest : Program σ Error Unit).Ensures (F.stopping fun _ => none) s now h := by
  induction rest generalizing front s now h with
  | nil => exact hh
  | cons p rest ih =>
    have hnext : plan[loaded h]? = some p := by simp [hplan, hfront]
    rw [forEach, ensures_bind', ensures_mapError, ensures_device]
    refine ⟨.inl hh.unreplied, ?_⟩
    intro stop r _
    cases r with
    | error e =>
      apply hh.fails
      rw [hF.fails rfl]
      simp [sendError?, hnext]
    | ok v =>
      apply ih (front ++ [p])
      . simp [hplan]
      . rw [loaded_append, hfront, List.length_append]
        rfl
      . apply hh.concat
        intro err
        rw [hF.fails rfl]
        simp [sendError?]

theorem HeedsSend.send_stops (hl : loaded h = 0) (hh : F.Clean h)
    : (w.sendParts plan : Program σ Error Unit).Ensures (F.stopping fun _ => none) s now h := by
  rw [sendParts, ensures_bind, ensures_device]
  refine ⟨.inl hh.unreplied, ?_⟩
  intro stop r _
  cases r with
  | error e =>
    apply hh.fails
    rw [hF.fails rfl]
    simp [sendError?]
  | ok v =>
    have activated : F.Clean
        (h ++ [⟨.device (.activate .usbLoader), now, stop, some (.ok v)⟩]) := by
      apply hh.concat
      intro err
      rw [hF.fails rfl]
      simp [sendError?]
    have none : loaded (h ++ [⟨.device (.activate .usbLoader), now, stop, some (.ok v)⟩]) = 0 := by
      rw [loaded_append, hl]
      rfl
    apply stopping_bind (hF.loads_stops [] rfl none activated)
    intro _ s now h hh
    have hh : F.Clean h := hh
    rw [ensures_mapError, ensures_device]
    refine ⟨.inl hh.unreplied, ?_⟩
    intro stop r _
    cases r with
    | error e =>
      apply hh.fails
      rw [hF.fails rfl]
      simp [sendError?]
    | ok v =>
      apply hh.concat
      intro err
      rw [hF.fails rfl]
      simp [sendError?]

end

end Writer

end BringUp
