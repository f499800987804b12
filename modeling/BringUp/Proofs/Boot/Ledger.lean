import BringUp.Proofs.Boot.Drive

/-!
This module contains what is kept of a request that fails. The main statement is that the tracked
state is either the one asked for or the one from before, while an image that was installed and a
prompt that was caught stay on record even if the request fails later.
-/

namespace BringUp

open Program

namespace Trace

def Installed (t : List Event) : Prop :=
  ∃ e ∈ t, e.call = .mark (.ends .write true) ∨ e.call = .mark (.ends .send true)

def Returned (t : List Event) (c : DeviceCall) (v : c.Value) : Prop :=
  ∃ start stop, ⟨.device c, start, stop, some (.ok v)⟩ ∈ t

def Attached (t : List Event) : Prop :=
  (∃ limit start stop, ⟨.interrupt limit, start, stop, some (some (.ok ()))⟩ ∈ t) ∨
    Returned t (.activate .bootloader) ()

def Caught (t : List Event) (version : String) : Prop :=
  Attached t ∧ (∃ bytes, Returned t .bootloaderOutput bytes) ∧
    Returned t .bootloaderVersion version

end Trace

open Trace

def Call.Unbooked : Call → Prop
  | .interrupt _ | .device (.activate .bootloader) | .device .bootloaderOutput
  | .device .bootloaderVersion | .mark (.ends .write true) | .mark (.ends .send true) => False
  | _ => True

theorem Footprint.Covers.unbooked {f : Footprint} (hc : f.Covers c)
    (hd : .bootloader ∉ f.devices) (hp : .write ∉ f.parts ∧ .send ∉ f.parts)
    : c.Unbooked := by
  unfold Call.Unbooked
  split <;> simp_all [Covers, DeviceCall.device, Mark.part]

theorem Program.Within.unbooked {σ α : Type} {f : Footprint} {p : Program σ Error α}
    (hp : p.Within f.Covers) (hd : .bootloader ∉ f.devices)
    (hparts : .write ∉ f.parts ∧ .send ∉ f.parts)
    : p.Within Call.Unbooked :=
  hp.mono fun _ hc => hc.unbooked hd hparts

namespace Trace

variable {h t : List Event}

@[simp]
theorem installed_append : Installed (h ++ t) ↔ Installed h ∨ Installed t := by
  simp [Installed, or_and_right, exists_or]

@[simp]
theorem returned_append {c : DeviceCall} {v : c.Value}
    : Returned (h ++ t) c v ↔ Returned h c v ∨ Returned t c v := by
  simp [Returned, exists_or]

theorem installed_singleton
    : Installed [e] ↔ e.call = .mark (.ends .write true) ∨ e.call = .mark (.ends .send true) := by
  simp [Installed]

theorem returned_singleton {c : DeviceCall} {v : c.Value}
    : Returned [e] c v ↔ ∃ start stop, ⟨.device c, start, stop, some (.ok v)⟩ = e := by
  simp [Returned]

theorem attached_append : Attached (h ++ t) ↔ Attached h ∨ Attached t := by
  simp only [Attached, List.mem_append, returned_append, exists_or]
  exact or_or_or_comm

theorem not_installed (ht : ∀ e ∈ t, e.call.Unbooked) : ¬Installed t := by
  rintro ⟨e, he, hcall | hcall⟩
  all_goals
    have := ht e he
    rw [hcall] at this
    exact this

theorem not_returned (ht : ∀ e ∈ t, e.call.Unbooked) {c : DeviceCall} {v : c.Value}
    (hc : ¬(Call.device c).Unbooked)
    : ¬Returned t c v := by
  rintro ⟨start, stop, he⟩
  exact hc (ht _ he)

theorem not_attached (ht : ∀ e ∈ t, e.call.Unbooked) : ¬Attached t := by
  rintro (⟨limit, start, stop, he⟩ | hr)
  . exact ht _ he
  . exact not_returned ht id hr

theorem caught_append_unbooked (ht : ∀ e ∈ t, e.call.Unbooked)
    : Caught (h ++ t) version ↔ Caught h version := by
  have attached := not_attached ht
  have output : ∀ bytes, ¬Returned t .bootloaderOutput bytes := fun _ => not_returned ht id
  have read : ¬Returned t .bootloaderVersion version := not_returned ht id
  simp [Caught, attached_append, attached, output, read]

end Trace

structure Opened (before after : BoardStatus) (t : List Event) : Prop where
  bootstrapped : after.bootstrapped = true ↔ before.bootstrapped = true ∨ Installed t
  report : after.report = before.report
  unread : ∀ version, ¬Returned t .bootloaderVersion version

structure Booked (before after : BoardStatus) (t : List Event) : Prop where
  bootstrapped : after.bootstrapped = true ↔ before.bootstrapped = true ∨ Installed t
  caught : ∀ version, Caught t version → ∃ duration, after.report = some ⟨version, duration⟩
  uncaught : (∀ version, ¬Caught t version) → after.report = before.report

theorem Opened.nil : Opened before before [] where
  bootstrapped := by simp [Installed]
  report := rfl
  unread := by simp [Returned]

theorem Opened.booked (ho : Opened before after t) : Booked before after t where
  bootstrapped := ho.bootstrapped
  caught version hc := absurd hc.right.right (ho.unread version)
  uncaught _ := ho.report

theorem Opened.extend (ho : Opened before after h) (hi : ¬Installed t)
    (hv : ∀ version, ¬Returned t .bootloaderVersion version)
    : Opened before after (h ++ t) where
  bootstrapped := by simpa [hi] using ho.bootstrapped
  report := ho.report
  unread version := by simpa [hv] using ho.unread version

theorem Opened.append (ho : Opened before after h) (ht : ∀ e ∈ t, e.call.Unbooked)
    : Opened before after (h ++ t) := by
  apply ho.extend (not_installed ht)
  intro version
  exact not_returned ht id

theorem Booked.append (hb : Booked before after h) (ht : ∀ e ∈ t, e.call.Unbooked)
    : Booked before after (h ++ t) where
  bootstrapped := by simpa [not_installed ht] using hb.bootstrapped
  caught := by simpa [caught_append_unbooked ht] using hb.caught
  uncaught := by simpa [caught_append_unbooked ht] using hb.uncaught

theorem Opened.installed (ho : Opened before after h) (hpart : part = .write ∨ part = .send)
    : Opened before { after with bootstrapped := true }
        (h ++ [⟨.mark (.ends part true), now, now, some ()⟩]) where
  bootstrapped := by simp [installed_singleton, hpart]
  report := ho.report
  unread version := by simpa [returned_singleton] using ho.unread version

theorem Opened.withState (ho : Opened before after h)
    : Opened before { after with state := target } h :=
  ⟨ho.bootstrapped, ho.report, ho.unread⟩

theorem Booked.withState (hb : Booked before after h)
    : Booked before { after with state := target } h :=
  ⟨hb.bootstrapped, hb.caught, hb.uncaught⟩

theorem Opened.read {version : String} (ho : Opened before status h) (ha : Attached h)
    (hr : ∃ bytes, Returned h .bootloaderOutput bytes)
    : Booked before { status with report := some ⟨version, duration⟩ }
        (h ++ [⟨.device .bootloaderVersion, start, stop, some (.ok version)⟩]) where
  bootstrapped := by simpa [installed_singleton] using ho.bootstrapped
  caught version' hc := by
    have returned := returned_append.mp hc.right.right
    obtain ⟨_, _, hv⟩ := returned_singleton.mp (returned.resolve_left (ho.unread version'))
    simp only [Event.mk.injEq, heq_eq_eq, Option.some.injEq, Except.ok.injEq] at hv
    exact ⟨duration, by simp [hv]⟩
  uncaught hc := by
    obtain ⟨bytes, hr⟩ := hr
    refine absurd ⟨attached_append.mpr (.inl ha), ⟨bytes, returned_append.mpr (.inl hr)⟩, ?_⟩
      (hc version)
    exact returned_append.mpr (.inr (returned_singleton.mpr ⟨_, _, rfl⟩))

abbrev Opened.kept (before status : BoardStatus) : Post BoardStatus Error α :=
  .either (fun _ after _ h => after = status ∧ Opened before after h)
    fun after _ h => Opened before after h

section

variable {α : Type} {p : Drive α} (hp : p.Within Call.Unbooked)

include hp

theorem Opened.ensures (ho : Opened before status h)
    : p.Ensures (Opened.kept before status) status now h := by
  apply hp.ensures
  intro r now t ht
  rcases r with _ | e | a
  . exact ho.append ht
  . exact ho.append ht
  . exact ⟨rfl, ho.append ht⟩

theorem Booked.ensures (hb : Booked before status h)
    : p.Ensures
        (.either (fun _ after _ h => Booked before after h) fun after _ h => Booked before after h)
        status now h := by
  apply hp.ensures
  intro r now t ht
  rcases r with _ | e | a
  . exact hb.append ht
  . exact hb.append ht
  . exact hb.append ht

theorem Opened.ensures_asPart (hpart : part = .write ∨ part = .send) (ho : Opened before status h)
    : (asPart part p).Ensures
        (.either
          (fun _ after _ h => after = status ∧ Opened before { status with bootstrapped := true } h)
          fun after _ h => Opened before after h)
        status now h := by
  apply ensures_asPart_either
  . have began : Opened before status (h ++ [⟨.mark (.begins part), now, now, some ()⟩]) :=
      ho.append (by simp [Call.Unbooked])
    apply (Opened.ensures hp began).mono_value
    rintro _ _ now h ⟨rfl, opened⟩
    exact ⟨rfl, opened.installed hpart⟩
  . intro after now h ho
    apply ho.append
    simp [Call.Unbooked]

end

namespace Strategy

variable {before status : BoardStatus}

theorem ensures_outside {p : Drive α} (hp : p.Within Footprint.outside.Covers)
    (ho : Opened before status h)
    : p.Ensures (Opened.kept before status) status now h :=
  Opened.ensures (hp.unbooked (by simp [Footprint.outside]) (by simp [Footprint.outside])) ho

theorem install_opened (s : Strategy) (ho : Opened before status h)
    : s.install.Ensures
        (.either
          (fun _ after _ h => after = status ∧ Opened before { status with bootstrapped := true } h)
          fun after _ h => Opened before after h)
        status now h := by
  unfold install
  -- Nothing goes on record on the way to the write or the send, which is the last step.
  split
  . apply (ensures_outside s.recoveryReset_within ho).andThen
    rintro reset _ now h ⟨rfl, bound⟩
    apply (ensures_outside s.locateBuild_within bound).andThen
    rintro dir _ now h ⟨rfl, located⟩
    have recovery := (s.enterRecovery_within reset).unbooked (by simp) (by simp)
    apply (Opened.ensures recovery located).andThen
    rintro _ _ now h ⟨rfl, ready⟩
    unfold Writer.send
    rw [ensures_bind, ensures_ofExcept]
    cases s.writer.planSend dir with
    | error e => exact ready
    | ok plan =>
      rw [Post.andThen_ok]
      split
      . apply Opened.ensures_asPart _ (.inr rfl) ready
        exact (s.writer.sendParts_within plan).unbooked (by simp) (by simp)
      . exact ready
  . apply (ensures_outside s.locateBuild_within ho).andThen
    rintro dir _ now h ⟨rfl, located⟩
    unfold Writer.write
    rw [ensures_bind, ensures_ofExcept]
    cases s.writer.planWrite dir with
    | error e => exact located
    | ok plan =>
      rw [Post.andThen_ok]
      apply Opened.ensures_asPart _ (.inl rfl) located
      exact (s.writer.writeCard_within plan).unbooked (by simp [Writer.writeLines]) (by simp)

abbrev opening (before : BoardStatus) : Post BoardStatus Error Unit :=
  .either (fun _ after _ h => Opened before after h) fun after _ h => Opened before after h

theorem ensures_opening {p : Drive Unit} (hp : p.Within Call.Unbooked) (ho : Opened before status h)
    : p.Ensures (opening before) status now h := by
  apply (Opened.ensures hp ho).mono_value
  rintro _ _ _ _ ⟨_, opened⟩
  exact opened

theorem asPart_opened {p : Drive Unit} (hpart : part ≠ .write ∧ part ≠ .send)
    (ho : Opened before status h)
    (hp : ∀ h, Opened before status h → p.Ensures (opening before) status now h)
    : (asPart part p).Ensures (opening before) status now h := by
  have unbooked (m : Mark) (hm : m.part = part) : (Call.mark m).Unbooked := by
    unfold Call.Unbooked
    split <;> simp_all [Mark.part]
  apply ensures_asPart_either
  . apply (hp _ (ho.append (by simpa using unbooked _ rfl))).mono_value
    intro _ after now h ho
    exact ho.append (by simpa using unbooked _ rfl)
  . intro after now h ho
    exact ho.append (by simpa using unbooked _ rfl)

theorem reach_opened {step : Drive Unit} (ho : Opened before status h)
    (hstep : step.Ensures (opening before) status now h)
    : (reach target step).Ensures (opening before) status now h := by
  apply ensures_reach
  . intro _
    exact ho
  . intro _
    apply hstep.mono_value
    intro _ after now h recorded
    exact recorded.withState

theorem bootstrap_opened (s : Strategy) (ho : Opened before status h)
    : s.bootstrap.Ensures (opening before) status now h := by
  apply asPart_opened (by simp) ho
  intro h ho
  apply (s.install_opened ho).andThen
  rintro _ _ now h ⟨rfl, installed⟩
  exact installed

theorem toOff_opened (ho : Opened before status h)
    : toOff.Ensures (opening before) status now h :=
  reach_opened ho (ensures_opening (powerOff_within.unbooked (by simp) (by simp)) ho)

theorem toBootstrapped_opened (s : Strategy) (ho : Opened before status h)
    : s.toBootstrapped.Ensures (opening before) status now h :=
  reach_opened ho (s.bootstrap_opened ho)

theorem prepare_opened (s : Strategy) (ho : Opened before status h)
    : (s.prepare s.toBootstrapped).Ensures (opening before) status now h := by
  rw [prepare, ensures_bind, ensures_state, Post.andThen_ok]
  split
  . exact s.toBootstrapped_opened ho
  . exact ensures_opening (s.writer.prepareBoot_within.unbooked (by simp) (by simp)) ho

theorem start_opened (s : Strategy) (ho : Opened before status h)
    : (s.start s.toBootstrapped).Ensures (opening before) status now h := by
  apply asPart_opened (by simp) ho
  intro h ho
  apply (s.prepare_opened ho).andThen
  intro _ status now h prepared
  split
  . exact prepared
  . exact ensures_opening (s.powerUp_within.unbooked (by simp) (by simp)) prepared

theorem toStarted_opened (s : Strategy) (ho : Opened before status h)
    : s.toStarted.Ensures (opening before) status now h := by
  apply reach_opened ho
  apply (toOff_opened ho).andThen
  intro _ _ _ _ ho
  exact s.start_opened ho

theorem timedOut_booked {value : α → BoardStatus → Nat → List Event → Prop}
    (ho : Opened before status h)
    : (timedOut began : Drive α).Ensures (.either value fun after _ h => Booked before after h)
        status now h := by
  rw [timedOut, ensures_bind]
  apply (Opened.ensures (drainConsole_within.unbooked (by simp) (by simp)) ho).mono
  intro r after now h hr
  rcases r with _ | e | output
  . exact hr.booked
  . exact hr.booked
  . rw [Post.andThen_ok, ensures_bind, ensures_clock]
    apply Opened.booked
    apply hr.right.append
    simp [Call.Unbooked]

theorem readReport_booked (ho : Opened before status h) (ha : Attached h)
    : (readReport startedAt).Ensures
        (.either
          (fun report after _ h =>
            after = status ∧ Booked before { status with report := some report } h)
          fun after _ h => Booked before after h)
        status now h := by
  have output {start stop : Nat} {r : Option (Except Error (List UInt8))}
      : Opened before status (h ++ [⟨.device .bootloaderOutput, start, stop, r⟩]) :=
    ho.extend (by simp [installed_singleton]) (by simp [returned_singleton])
  rw [readReport, ensures_bind, ensures_device]
  constructor
  . exact output.booked
  . intro stop r _
    cases r with
    | error e => exact output.booked
    | ok bytes =>
      rw [Post.andThen_ok, ensures_bind, ensures_device]
      constructor
      . apply Opened.booked
        exact output.extend (by simp [installed_singleton]) (by simp [returned_singleton])
      . intro stop' r _
        cases r with
        | error e =>
          apply Opened.booked
          exact output.extend (by simp [installed_singleton]) (by simp [returned_singleton])
        | ok version =>
          rw [Post.andThen_ok, ensures_bind, ensures_clock]
          refine ⟨rfl, Booked.append (output.read ?_ ?_) (by simp [Call.Unbooked])⟩
          . exact attached_append.mpr (.inl ha)
          . exact ⟨bytes, returned_append.mpr (.inr (returned_singleton.mpr ⟨now, stop, rfl⟩))⟩

theorem interrupt_booked (s : Strategy) (ho : Opened before status h)
    : (s.interrupt startedAt).Ensures
        (.either
          (fun report after _ h =>
            after = status ∧ Booked before { status with report := some report } h)
          fun after _ h => Booked before after h)
        status now h := by
  rw [interrupt, ensures_bind, ensures_clock, Post.andThen_ok, ensures_bind, ensures_interrupt]
  intro stop r _
  have began := (ho.append (t := [⟨.clock, now, now, some now⟩]) (by simp [Call.Unbooked])).extend
    (t := [⟨.interrupt s.options.interruptTimeout, now, stop, some r⟩])
    (by simp [installed_singleton]) (by simp [returned_singleton])
  rw [Post.andThen_ok]
  -- Whatever the reply is, the prompt does not count as caught before its version is read.
  rcases r with _ | e | ⟨⟨⟩⟩
  . exact timedOut_booked began
  . dsimp only
    split
    . exact timedOut_booked began
    . exact began.booked
  . apply readReport_booked began
    exact .inl ⟨s.options.interruptTimeout, now, stop, by simp⟩

abbrev booking (before : BoardStatus) : Post BoardStatus Error Unit :=
  .either (fun _ after _ h => Booked before after h) fun after _ h => Booked before after h

theorem Booked.opening {p : Drive Unit} (hp : p.Ensures (opening before) status now h)
    : p.Ensures (booking before) status now h := by
  apply hp.mono_either
  . intro _ _ _ _ opened
    exact opened.booked
  . intro _ _ _ opened
    exact opened.booked

theorem reach_booked {step : Drive Unit} (ho : Opened before status h)
    (hstep : step.Ensures (booking before) status now h)
    : (reach target step).Ensures (booking before) status now h := by
  apply ensures_reach
  . intro _
    exact ho.booked
  . intro _
    apply hstep.mono_value
    intro _ after now h recorded
    exact recorded.withState

theorem toBootloader_booked (s : Strategy) (ho : Opened before status h)
    : s.toBootloader.Ensures (booking before) status now h := by
  apply reach_booked ho
  rw [ensures_bind, ensures_clock, Post.andThen_ok, ensures_bind]
  apply (s.toStarted_opened (ho.append (by simp [Call.Unbooked]))).mono
  intro r after now h hr
  rcases r with _ | e | a
  . exact hr.booked
  . exact hr.booked
  . apply (s.interrupt_booked hr).andThen
    rintro report _ now h ⟨rfl, booked⟩
    exact booked

theorem bootToShell_unbooked (s : Strategy) : s.bootToShell.Within Call.Unbooked := by
  simp [bootToShell, Call.Unbooked]

theorem toShell_booked (s : Strategy) (ho : Opened before status h)
    : s.toShell.Ensures (booking before) status now h := by
  apply reach_booked ho
  apply (s.toBootloader_booked ho).andThen
  intro _ status now h booked
  exact booked.ensures s.bootToShell_unbooked

theorem drive_booked (s : Strategy) (target : BootState)
    : (s.drive target).Ensures (booking status) status now [] := by
  cases target with
  | unknown => exact Opened.nil.booked
  | off => exact Booked.opening (toOff_opened .nil)
  | bootstrapped => exact Booked.opening (s.toBootstrapped_opened .nil)
  | started => exact Booked.opening (s.toStarted_opened .nil)
  | bootloader => exact s.toBootloader_booked .nil
  | shell => exact s.toShell_booked .nil

theorem attach_opened (ho : Opened before status h)
    : (attach target).Ensures (Opened.kept before status) status now h := by
  have activate {d : Device} {start stop : Nat} {r : Option (Except Error Unit)}
      : Opened before status (h ++ [⟨.device (.activate d), start, stop, r⟩]) :=
    ho.extend (by simp [installed_singleton]) (by simp [returned_singleton])
  have device {d : Device}
      : (device (.activate d) : Drive Unit).Ensures (Opened.kept before status) status now h := by
    rw [ensures_device]
    refine ⟨activate, fun stop r _ => ?_⟩
    cases r with
    | error e => exact activate
    | ok u => exact ⟨rfl, activate⟩
  cases target with
  | unknown => exact ho
  | off => exact device
  | bootstrapped => exact ho
  | started => exact ho
  | bootloader => exact device
  | shell => exact device

/--
Whatever the lab does, a request that succeeds leaves the state that was asked for, and a request
that fails leaves the state from before, whatever states it went through. Whether an image was ever
installed and when a prompt was last caught are kept on record by either.
-/
theorem perform_atomic (s : Strategy) (request : Request) (lab : Lab ω) (w : ω)
    (before : BoardStatus) (now : Nat)
    : let turn := s.turn request lab w before now
      (turn.result = some (.ok ()) → turn.after.state = request.target) ∧
        (∀ e, turn.result = some (.error e) → turn.after.state = before.state) ∧
        Booked before turn.after turn.trace := by
  have hperform : (s.perform request).Ensures
      (fun r after _ h =>
        (r = some (.ok ()) → after.state = request.target) ∧
          (∀ e, r = some (.error e) → after.state = before.state) ∧ Booked before after h)
      before now [] := by
    cases request with
    | transition target =>
      apply ensures_transition.mpr
      apply ((s.drive_state target).and (s.drive_booked target)).mono
      rintro r after now h ⟨state, booked⟩
      rcases r with _ | e | ⟨⟨⟩⟩
      . simpa using booked
      . simpa using booked.withState
      . simpa using ⟨state, booked⟩
    | force target =>
      rw [perform, force, ensures_bind]
      have kept : (attach target).Ensures (fun _ after _ _ => after = before) before now [] :=
        (attach_within target).ensures fun _ _ _ _ => rfl
      -- Nothing but the last step of a forced state changes the status.
      apply ((attach_opened .nil).and kept).mono
      rintro r after now h ⟨hr, rfl⟩
      rcases r with _ | e | ⟨⟨⟩⟩
      . simpa using hr.booked
      . simpa using hr.booked
      . simpa using hr.right.booked.withState
  exact ensures_turn hperform lab w

end Strategy

end BringUp
