import BringUp.Proofs.Boot.Ledger
import BringUp.Proofs.Lab.Invariant
import Mathlib.Data.List.Induction

/-!
This module contains how often the image is installed. The main statement is that an image that was
written or sent once is not installed again just because the board is started, while an installation
that has failed is tried again by the next start.
-/

namespace BringUp

open Program Trace

/--
Whether a call is part of installing an image: it runs a tool, goes to the storage, the emulator or
the USB link, or marks a write or a send.
-/
def Call.Installs : Call → Prop
  | .device c => c.device ∈ [.storage, .emulator, .usbLoader]
  | .host (.run _) => True
  | .mark m => m.part ∈ [.write, .send]
  | _ => False

def Call.Idle (c : Call) : Prop :=
  ¬c.Installs ∧ ∀ m, c = .mark m → m.part ≠ .bootstrap

def Call.Quiet (c : Call) : Prop :=
  c.Idle ∧ c ≠ .mark (.begins .start)

namespace Trace

def attempts (t : List Event) : Nat :=
  t.countP fun e => e.call = .mark (.begins .bootstrap)

def installations (t : List Event) : Nat :=
  t.countP fun e => e.call = .mark (.ends .write true) ∨ e.call = .mark (.ends .send true)

end Trace

/--
Whether an event is part of installing an image only during an attempt, before which none was
installed.
-/
def Confined (before : List Event) (e : Event) : Prop :=
  e.call.Installs → During .bootstrap before ∧ ¬Installed before

@[simp]
theorem quiet_device
    : (Call.device c).Quiet ↔ c.device ∉ [.storage, .emulator, .usbLoader] := by
  simp [Call.Quiet, Call.Idle, Call.Installs]

@[simp]
theorem quiet_interrupt : (Call.interrupt limit).Quiet := by
  simp [Call.Quiet, Call.Idle, Call.Installs]

@[simp]
theorem quiet_clock : Call.clock.Quiet := by
  simp [Call.Quiet, Call.Idle, Call.Installs]

theorem idle_mark_start (hm : m.part = .start) : (Call.mark m).Idle := by
  simp [Call.Idle, Call.Installs, hm]

namespace Trace

variable {h t : List Event}

theorem attempts_append : attempts (h ++ t) = attempts h + attempts t :=
  List.countP_append

theorem installations_append : installations (h ++ t) = installations h + installations t :=
  List.countP_append

theorem attempts_eq_zero (ht : ¬Begun .bootstrap t) : attempts t = 0 := by
  simpa [attempts, Begun, List.countP_eq_zero] using ht

theorem installations_eq_zero_iff : installations t = 0 ↔ ¬Installed t := by
  simp [installations, Installed, List.countP_eq_zero]

theorem not_begun_of_idle (ht : ∀ e ∈ t, e.call.Idle) : ¬Begun .bootstrap t := by
  rintro ⟨e, he, hbegins⟩
  exact (ht e he).right _ hbegins rfl

theorem not_installed_of_not_installs (ht : ∀ e ∈ t, ¬e.call.Installs) : ¬Installed t := by
  rintro ⟨e, he, hcall⟩
  apply ht e he
  rcases hcall with hcall | hcall
  . simp [hcall, Call.Installs, Mark.part]
  . simp [hcall, Call.Installs, Mark.part]

theorem not_started_of_quiet (ht : ∀ e ∈ t, e.call.Quiet) : ¬Begun .start t := by
  rintro ⟨e, he, hbegins⟩
  exact (ht e he).right hbegins

theorem not_installed_dropLast (ht : ¬Installed t) : ¬Installed t.dropLast := by
  rintro ⟨e, he, hcall⟩
  exact ht ⟨e, (List.dropLast_sublist t).subset he, hcall⟩

theorem always_confined_append (hh : Always Confined h) (ht : ∀ e ∈ t, ¬e.call.Installs)
    : Always Confined (h ++ t) := by
  apply hh.append
  rintro before e after rfl hinstalls
  exact absurd hinstalls (ht e (by simp))

theorem installations_le_one (ht : Always Confined t) : installations t ≤ 1 := by
  apply countP_le_one
  intro before e after hsplit hcall
  apply installations_eq_zero_iff.mpr
  refine (ht before e after hsplit ?_).right
  have hcall : e.call = .mark (.ends .write true) ∨ e.call = .mark (.ends .send true) := by
    simpa using hcall
  rcases hcall with hcall | hcall
  . simp [hcall, Call.Installs, Mark.part]
  . simp [hcall, Call.Installs, Mark.part]

theorem not_installs_of_not_begun (ht : Always Confined t) (hbegun : ¬Begun .bootstrap t)
    : ∀ e ∈ t, ¬e.call.Installs := by
  intro e he hinstalls
  obtain ⟨before, after, rfl⟩ := List.append_of_mem he
  have during := (ht before e after rfl hinstalls).left
  exact hbegun (begun_append.mpr (.inl during.left))

end Trace

structure Attempted (t : List Event) : Prop where
  once : attempts t ≤ 1
  confined : Always Confined t

theorem Attempted.append (ha : Attempted h) (ht : ∀ e ∈ t, ¬e.call.Installs)
    (hbegun : ¬Begun .bootstrap t)
    : Attempted (h ++ t) where
  once := by
    rw [attempts_append, attempts_eq_zero hbegun]
    exact ha.once
  confined := always_confined_append ha.confined ht

theorem Attempted.append_idle (ha : Attempted h) (ht : ∀ e ∈ t, e.call.Idle)
    : Attempted (h ++ t) :=
  ha.append (fun e he => (ht e he).left) (not_begun_of_idle ht)

theorem Attempted.of_idle (ht : ∀ e ∈ t, e.call.Idle) : Attempted t :=
  append_idle (h := []) ⟨Nat.zero_le 1, always_nil⟩ ht

structure AttemptedAtStart (s : Strategy) (bootstrapped : Bool) (t : List Event) : Prop
    extends Attempted t where
  begun : Begun .bootstrap t ↔
    Begun .start t ∧ s.options.doBootstrap = true ∧ bootstrapped = false

theorem AttemptedAtStart.append (ha : AttemptedAtStart s bootstrapped h)
    (ht : ∀ e ∈ t, e.call.Quiet)
    : AttemptedAtStart s bootstrapped (h ++ t) where
  toAttempted := ha.toAttempted.append_idle fun e he => (ht e he).left
  begun := by
    have bootstrap := not_begun_of_idle fun e he => (ht e he).left
    have start := not_started_of_quiet ht
    simpa [begun_append, bootstrap, start] using ha.begun

theorem AttemptedAtStart.of_quiet (ht : ∀ e ∈ t, e.call.Quiet)
    : AttemptedAtStart s bootstrapped t where
  toAttempted := .of_idle fun e he => (ht e he).left
  begun := by
    have bootstrap := not_begun_of_idle fun e he => (ht e he).left
    have start := not_started_of_quiet ht
    simp [bootstrap, start]

theorem keeps_begun (p : Program σ ε α) : p.Keeps (Begun part) := by
  intro s now h hbegun
  rw [ensures_iff_nil]
  apply (ensures_trivial p).mono
  intro r s now t _
  exact begun_append.mpr (.inl hbegun)

namespace Strategy

theorem powerOff_quiet : powerOff.Within Call.Quiet := by
  simp [powerOff, DeviceCall.device]

theorem prepareBoot_quiet (s : Strategy)
    : (s.writer.prepareBoot : Drive Unit).Within Call.Quiet := by
  simp [Writer.prepareBoot, DeviceCall.device]

theorem powerUp_quiet (s : Strategy) : s.powerUp.Within Call.Quiet := by
  unfold powerUp
  apply within_bind
  . simp [DeviceCall.device]
  . intro _
    split <;> simp [DeviceCall.device]

theorem timedOut_quiet : (timedOut began : Drive α).Within Call.Quiet := by
  apply within_bind
  . apply within_bind
    . simp [DeviceCall.device]
    . intro r
      split <;> simp
  . intro output
    simp [clock]

theorem interrupt_quiet (s : Strategy) (startedAt : Nat)
    : (s.interrupt startedAt).Within Call.Quiet := by
  unfold interrupt
  apply within_bind
  . simp [clock]
  . intro began
    apply within_bind
    . simp
    . intro r
      split <;> simp [timedOut_quiet, readReport, clock, DeviceCall.device]

theorem bootToShell_quiet (s : Strategy) : s.bootToShell.Within Call.Quiet := by
  simp [bootToShell, DeviceCall.device]

theorem attach_quiet (target : BootState) : (attach target).Within Call.Quiet := by
  cases target <;> simp [attach, DeviceCall.device]

abbrev uninstalled : Post BoardStatus Error α :=
  .either (fun _ _ _ h => ¬Installed h) fun _ _ h => ¬Installed h.dropLast

abbrev installedLast : Post BoardStatus Error α :=
  .either (fun _ _ _ h => ¬Installed h.dropLast) fun _ _ h => ¬Installed h.dropLast

theorem ensures_uninstalled {p : Drive α} (hp : p.Within Call.Unbooked) (hh : ¬Installed h)
    : p.Ensures uninstalled status now h := by
  apply hp.ensures
  intro r now t ht
  have hall : ¬Installed (h ++ t) := by simp [hh, not_installed ht]
  rcases r with _ | e | a
  . exact not_installed_dropLast hall
  . exact not_installed_dropLast hall
  . exact hall

theorem asPart_installedLast {p : Drive Unit} (hp : p.Within Call.Unbooked) (hh : ¬Installed h)
    : (asPart part p).Ensures installedLast status now h := by
  have began : ¬Installed (h ++ [⟨.mark (.begins part), now, now, some ()⟩]) := by
    simp [hh, installed_singleton]
  have marked {h : List Event} (e : Event) (hh : ¬Installed h)
      : ¬Installed (h ++ [e]).dropLast := by
    rwa [List.dropLast_concat]
  rw [ensures_asPart]
  apply hp.ensures
  intro r now' t ht
  have hall : ¬Installed (h ++ [⟨.mark (.begins part), now, now, some ()⟩] ++ t) := by
    rw [installed_append]
    exact not_or.mpr ⟨began, not_installed ht⟩
  rcases r with _ | e | a
  . exact not_installed_dropLast hall
  . exact marked _ hall
  . exact marked _ hall

theorem ofExcept_installedLast {f : α → Drive Unit} (hh : ¬Installed h)
    (hf : ∀ a, (f a).Ensures installedLast status now h)
    : (ofExcept r >>= f).Ensures installedLast status now h := by
  rw [ensures_bind, ensures_ofExcept]
  cases r with
  | error e => exact not_installed_dropLast hh
  | ok a => exact hf a

theorem install_installedLast (s : Strategy) (hh : ¬Installed h)
    : s.install.Ensures installedLast status now h := by
  have outside {α : Type} {p : Drive α} {status : BoardStatus} {now : Nat} {h : List Event}
      (hp : p.Within Footprint.outside.Covers) (hh : ¬Installed h)
      : p.Ensures uninstalled status now h :=
    ensures_uninstalled (hp.unbooked (by simp [Footprint.outside]) (by simp [Footprint.outside])) hh
  unfold install
  split
  . apply (outside s.recoveryReset_within hh).andThen
    intro reset _ _ _ hh
    apply (outside s.locateBuild_within hh).andThen
    intro dir _ _ _ hh
    have recovery := (s.enterRecovery_within reset).unbooked (by simp) (by simp)
    apply (ensures_uninstalled recovery hh).andThen
    intro _ _ _ _ hh
    apply ofExcept_installedLast hh
    intro plan
    split
    . apply asPart_installedLast _ hh
      exact (s.writer.sendParts_within plan).unbooked (by simp) (by simp)
    . exact not_installed_dropLast hh
  . apply (outside s.locateBuild_within hh).andThen
    intro dir _ _ _ hh
    apply ofExcept_installedLast hh
    intro plan
    apply asPart_installedLast _ hh
    exact (s.writer.writeCard_within plan).unbooked (by simp [Writer.writeLines]) (by simp)

theorem install_attempted (s : Strategy) (ha : Attempted h) (hd : During .bootstrap h)
    (hh : ¬Installed h)
    : s.install.Ensures (fun _ _ _ h' => Attempted h') status now h := by
  have within : s.install.Ensures
      (fun _ _ _ h' => ∃ t, h' = h ++ t ∧ ∀ e ∈ t, installFootprint.Covers e.call)
      status now h :=
    s.install_within.ensures fun _ _ t ht => ⟨t, rfl, ht⟩
  apply ((s.install_installedLast hh).and within).mono
  rintro r _ _ _ ⟨hlast, t, rfl, ht⟩
  have unmarked {m : Mark} {e : Event} (he : e ∈ t) (hm : m.part = .bootstrap)
      : e.call ≠ .mark m := by
    intro hcall
    have covers := ht e he
    simp [hcall, installFootprint, Footprint.Covers, hm] at covers
  have hlast : ¬Installed (h ++ t).dropLast := by
    rcases r with _ | e | a <;> exact hlast
  constructor
  . have begun : ¬Begun .bootstrap t := by
      rintro ⟨e, he, hbegins⟩
      exact unmarked he rfl hbegins
    rw [attempts_append, attempts_eq_zero begun]
    exact ha.once
  . apply ha.confined.append
    rintro before e after rfl _
    constructor
    . apply hd.append
      intro x hx success
      exact unmarked (by simp [hx]) rfl
    . intro installed
      apply hlast
      rw [← List.append_assoc, List.dropLast_append_of_ne_nil (by simp), installed_append]
      exact .inl installed

theorem bootstrap_attempted (s : Strategy) (hh : ∀ e ∈ h, e.call.Idle)
    : s.bootstrap.Ensures (fun _ _ _ h' => Attempted h' ∧ Begun .bootstrap h') status now h := by
  have began : Begun .bootstrap (h ++ [⟨.mark (.begins .bootstrap), now, now, some ()⟩]) := by
    simp [Begun]
  have attempted : Attempted (h ++ [⟨.mark (.begins .bootstrap), now, now, some ()⟩]) := by
    constructor
    . rw [attempts_append, attempts_eq_zero (not_begun_of_idle hh)]
      simp [attempts]
    . apply (Attempted.of_idle hh).confined.concat
      simp [Confined, Call.Installs, Mark.part]
  have during : During .bootstrap (h ++ [⟨.mark (.begins .bootstrap), now, now, some ()⟩]) := by
    refine ⟨began, ?_⟩
    intro e he success hends
    rcases List.mem_append.mp he with he | he
    . exact (hh e he).right _ hends rfl
    . simp_all
  have untouched : ¬Installed (h ++ [⟨.mark (.begins .bootstrap), now, now, some ()⟩]) := by
    simp [not_installed_of_not_installs fun e he => (hh e he).left, installed_singleton]
  rw [bootstrap, ensures_asPart]
  have keeps : (modify fun status => { status with bootstrapped := true } : Drive Unit).Keeps
      fun h' => Attempted h' ∧ Begun .bootstrap h' := keeps_modify
  have installs := (s.install_attempted attempted during untouched).and
    (keeps_begun s.install status now _ began)
  apply (installs.then_keeps fun _ => keeps).mono
  rintro r _ _ h' ⟨attempted, begun⟩
  cases r with
  | none => exact ⟨attempted, begun⟩
  | some r =>
    refine ⟨attempted.append ?_ ?_, begun_append.mpr (.inl begun)⟩
    . simp [Call.Installs, Mark.part]
    . simp [Begun]

section

variable {s : Strategy} {bootstrapped : Bool}

theorem ensures_quiet {p : Drive α} (hp : p.Within Call.Quiet)
    (ha : AttemptedAtStart s bootstrapped h)
    : p.Ensures (fun _ _ _ h' => AttemptedAtStart s bootstrapped h') status now h := by
  apply hp.ensures
  intro r now t ht
  exact ha.append ht

theorem prepare_attempted (hstate : status.state ≠ .bootstrapped) (hh : ∀ e ∈ h, e.call.Idle)
    (hstart : Begun .start h)
    : (s.prepare s.toBootstrapped).Ensures
        (fun _ _ _ h' => AttemptedAtStart s status.bootstrapped h') status now h := by
  rw [prepare, ensures_bind, ensures_state, Post.andThen_ok]
  split
  . next hasked =>
    have asked : status.bootstrapped = false ∧ s.options.doBootstrap = true := by
      simpa using hasked
    apply ensures_reach_post fun _ _ _ => id
    . intro heq
      exact absurd heq hstate
    . intro _
      apply ((s.bootstrap_attempted hh).and (keeps_begun s.bootstrap _ _ _ hstart)).mono
      rintro r _ _ h' ⟨⟨attempted, begun⟩, started⟩
      exact ⟨attempted, iff_of_true begun ⟨started, asked.right, asked.left⟩⟩
  . next hunasked =>
    have unasked : ¬(s.options.doBootstrap = true ∧ status.bootstrapped = false) := by
      simpa [and_comm] using hunasked
    apply ensures_quiet s.prepareBoot_quiet
    refine ⟨.of_idle hh, iff_of_false (not_begun_of_idle hh) ?_⟩
    rintro ⟨_, asked⟩
    exact unasked asked

theorem start_attempted (hstate : status.state ≠ .bootstrapped) (hh : ∀ e ∈ h, e.call.Quiet)
    : (s.start s.toBootstrapped).Ensures
        (fun _ _ _ h' => AttemptedAtStart s status.bootstrapped h') status now h := by
  have idle : ∀ e ∈ h ++ [⟨.mark (.begins .start), now, now, some ()⟩], e.call.Idle := by
    intro e he
    rcases List.mem_append.mp he with he | he
    . exact (hh e he).left
    . rw [List.mem_singleton.mp he]
      exact idle_mark_start rfl
  have begun : Begun .start (h ++ [⟨.mark (.begins .start), now, now, some ()⟩]) := by
    simp [Begun]
  have powered : (if s.options.useSend then pure () else s.powerUp : Drive Unit).Keeps
      (AttemptedAtStart s status.bootstrapped) := by
    intro status now h ha
    split
    . exact ha
    . exact ensures_quiet s.powerUp_quiet ha
  rw [start, ensures_asPart]
  apply ((prepare_attempted hstate idle begun).then_keeps fun _ => powered).mono
  intro r _ now h ha
  cases r with
  | none => exact ha
  | some r =>
    apply ha.append
    simpa [Call.Quiet] using idle_mark_start rfl

theorem toOff_quiet (hh : ∀ e ∈ h, e.call.Quiet)
    : toOff.Ensures
        (.either
          (fun _ after _ h' =>
            after.state = .off ∧ after.bootstrapped = status.bootstrapped ∧
              ∀ e ∈ h', e.call.Quiet)
          fun _ _ h' => ∀ e ∈ h', e.call.Quiet)
        status now h := by
  apply ensures_reach
  . intro hstate
    exact ⟨hstate, rfl, hh⟩
  . intro _
    apply powerOff_quiet.ensures
    intro r now t ht
    have quiet : ∀ e ∈ h ++ t, e.call.Quiet := List.forall_mem_append.mpr ⟨hh, ht⟩
    rcases r with _ | e | a
    . exact quiet
    . exact quiet
    . exact ⟨rfl, rfl, quiet⟩

theorem toStarted_attempted (hh : ∀ e ∈ h, e.call.Quiet)
    : s.toStarted.Ensures (fun _ _ _ h' => AttemptedAtStart s status.bootstrapped h')
        status now h := by
  apply ensures_reach_post fun _ _ _ => id
  . intro _
    exact .of_quiet hh
  . intro _
    rw [ensures_bind]
    apply (toOff_quiet hh).mono
    intro r after now h hr
    rcases r with _ | e | a
    . exact .of_quiet hr
    . exact .of_quiet hr
    . obtain ⟨hoff, hkept, hquiet⟩ := hr
      rw [← hkept]
      exact start_attempted (by simp [hoff]) hquiet

theorem toBootloader_attempted
    : s.toBootloader.Ensures (fun _ _ _ h' => AttemptedAtStart s status.bootstrapped h')
        status now [] := by
  apply ensures_reach_post fun _ _ _ => id
  . intro _
    exact .of_quiet (by simp)
  . intro _
    rw [ensures_bind, ensures_clock, Post.andThen_ok]
    apply (toStarted_attempted (by simp)).then_keeps
    intro _
    apply keeps_bind
    . intro _ _ _ ha
      exact ensures_quiet (s.interrupt_quiet now) ha
    . intro report
      exact keeps_modify

theorem toShell_attempted
    : s.toShell.Ensures (fun _ _ _ h' => AttemptedAtStart s status.bootstrapped h')
        status now [] := by
  apply ensures_reach_post fun _ _ _ => id
  . intro _
    exact .of_quiet (by simp)
  . intro _
    apply toBootloader_attempted.then_keeps
    intro _ _ _ _ ha
    exact ensures_quiet s.bootToShell_quiet ha

theorem drive_attempted (htarget : target ≠ .bootstrapped)
    : (s.drive target).Ensures (fun _ _ _ h' => AttemptedAtStart s status.bootstrapped h')
        status now [] := by
  cases target with
  | unknown => exact .of_quiet (by simp)
  | off =>
    apply (toOff_quiet (by simp)).mono
    intro r _ _ h hr
    rcases r with _ | e | a
    . exact .of_quiet hr
    . exact .of_quiet hr
    . exact .of_quiet hr.right.right
  | bootstrapped => contradiction
  | started => exact toStarted_attempted (by simp)
  | bootloader => exact toBootloader_attempted
  | shell => exact toShell_attempted

theorem toBootstrapped_attempted (s : Strategy)
    : s.toBootstrapped.Ensures (fun _ _ _ h' => Attempted h') status now [] := by
  apply ensures_reach_post fun _ _ _ => id
  . intro _
    exact .of_idle (by simp)
  . intro _
    apply (s.bootstrap_attempted (by simp)).mono
    intro _ _ _ _ hr
    exact hr.left

theorem perform_attempted
    : (s.perform request).Ensures
        (fun _ _ _ t =>
          Attempted t ∧
            (request.target ≠ .bootstrapped → AttemptedAtStart s status.bootstrapped t))
        status now [] := by
  cases request with
  | transition target =>
    have driven : (s.drive target).Ensures
        (fun _ _ _ t =>
          Attempted t ∧ (target ≠ .bootstrapped → AttemptedAtStart s status.bootstrapped t))
        status now [] := by
      by_cases htarget : target = .bootstrapped
      . subst htarget
        apply s.toBootstrapped_attempted.mono
        intro _ _ _ _ ha
        exact ⟨ha, fun hne => absurd rfl hne⟩
      . apply (drive_attempted htarget).mono
        intro _ _ _ _ ha
        exact ⟨ha.toAttempted, fun _ => ha⟩
    apply ensures_transition.mpr
    apply driven.mono
    intro r _ _ t ha
    rcases r with _ | e | a <;> exact ha
  | force target =>
    have attached : (attach target).Ensures
        (fun _ _ _ t => AttemptedAtStart s status.bootstrapped t) status now [] :=
      ensures_quiet (attach_quiet target) (.of_quiet (by simp))
    apply (attached.then_keeps fun _ => keeps_modify).mono
    intro _ _ _ _ ha
    exact ⟨ha.toAttempted, fun _ => ha⟩

end

theorem perform_booked (s : Strategy) (request : Request)
    : (s.perform request).Ensures (fun _ after _ t => Booked status after t) status now [] := by
  cases request with
  | transition target =>
    apply ensures_transition.mpr
    apply (s.drive_booked target).mono
    intro r after now t hr
    rcases r with _ | e | a
    . exact hr
    . exact hr.withState
    . exact hr
  | force target =>
    rw [perform, force, ensures_bind]
    apply (attach_opened .nil).mono
    intro r after now t hr
    rcases r with _ | e | a
    . exact hr.booked
    . exact hr.booked
    . exact hr.right.booked.withState

end Strategy

namespace Session

variable {s : Strategy}

theorem bootstrapped_iff (session : Session s turns status now)
    : status.bootstrapped = true ↔ Installed (Turn.events turns) := by
  induction session with
  | fresh => simp [BoardStatus.fresh, Turn.events, Installed]
  | @request turns before ended now ω w session request lab later ih =>
    have booked : Booked before (s.turn request lab w before now).after
        (s.turn request lab w before now).trace :=
      Strategy.ensures_turn (s.perform_booked request) lab w
    rw [Turn.events_concat, installed_append, ← ih]
    exact booked.bootstrapped

theorem split (session : Session s turns status now) (hsplit : turns = earlier ++ turn :: later)
    : ∃ (ω : Type) (before : BoardStatus) (ended : Nat), Session s earlier before ended ∧
        ∃ (request : Request) (lab : Lab ω) (w : ω) (now : Nat),
          turn = s.turn request lab w before now := by
  induction session generalizing later with
  | fresh => simp at hsplit
  | @request turns before ended now ω w session request lab hlater ih =>
    cases later using List.reverseRecOn with
    | nil =>
      obtain ⟨rfl, hturn⟩ := List.append_inj' hsplit rfl
      have hlast := List.singleton_inj.mp hturn
      exact ⟨ω, before, ended, session, request, lab, w, now, hlast.symm⟩
    | append_singleton rest last =>
      rw [← List.cons_append, ← List.append_assoc] at hsplit
      exact ih (List.append_inj' hsplit rfl).left

end Session

theorem Turn.installations_le_one {asked : Turn → Bool}
    (hturn : ∀ earlier turn later, turns = earlier ++ turn :: later → asked turn = true →
      installations turn.trace ≤ 1 ∧
        (Installed (Turn.events earlier) → installations turn.trace = 0))
    : installations (Turn.events (turns.filter asked)) ≤ 1 := by
  induction turns using List.reverseRecOn with
  | nil => simp [Turn.events, installations]
  | append_singleton turns turn ih =>
    have hearlier : installations (Turn.events (turns.filter asked)) ≤ 1 := by
      apply ih
      rintro earlier x later rfl
      exact hturn earlier x (later ++ [turn]) (by simp)
    rw [List.filter_append]
    by_cases hasked : asked turn = true
    . obtain ⟨hone, hnone⟩ := hturn turns turn [] rfl hasked
      rw [List.filter_cons_of_pos hasked, List.filter_nil, Turn.events_concat, installations_append]
      by_cases hinstalled : Installed (Turn.events turns)
      . rw [hnone hinstalled]
        exact hearlier
      . have none : installations (Turn.events (turns.filter asked)) = 0 := by
          rw [installations_eq_zero_iff]
          rintro ⟨e, he, hcall⟩
          obtain ⟨x, hx, hex⟩ := List.mem_flatMap.mp he
          have hx := (List.mem_filter.mp hx).left
          exact hinstalled ⟨e, List.mem_flatMap.mpr ⟨x, hx, hex⟩, hcall⟩
        rw [none, Nat.zero_add]
        exact hone
    . simpa [hasked] using hearlier

namespace Strategy

/--
An image that was written or sent is not installed again just because the board is started. Every
request makes at most one attempt to install it and does nothing for that outside of the attempt. A
request for another state than `bootstrapped` makes an attempt exactly if the board is started, the
image is to be installed and none was installed by earlier requests. So a failed attempt is repeated
by the next start, and all these requests together install the image at most once.
-/
theorem session_installs_once (s : Strategy) (session : Session s turns status now)
    : (∀ turn ∈ turns, attempts turn.trace ≤ 1 ∧
          ∀ before e after, turn.trace = before ++ e :: after → e.call.Installs →
            During .bootstrap before ∧ ¬Installed before) ∧
        (∀ earlier turn later, turns = earlier ++ turn :: later →
          turn.request.target ≠ .bootstrapped →
            (Begun .bootstrap turn.trace ↔
              Begun .start turn.trace ∧ s.options.doBootstrap = true ∧
                ¬Installed (Turn.events earlier)) ∧
            (Installed (Turn.events earlier) → ∀ e ∈ turn.trace, ¬e.call.Installs)) ∧
        installations (Turn.events (turns.filter (·.request.target ≠ .bootstrapped))) ≤ 1 := by
  have hturns : ∀ earlier turn later, turns = earlier ++ turn :: later →
      Attempted turn.trace ∧ (turn.request.target ≠ .bootstrapped →
        ∃ bootstrapped, (bootstrapped = true ↔ Installed (Turn.events earlier)) ∧
          AttemptedAtStart s bootstrapped turn.trace) := by
    intro earlier turn later hsplit
    obtain ⟨ω, status, ended, hearlier, request, lab, w, now, rfl⟩ := session.split hsplit
    obtain ⟨attempted, atStart⟩ : Attempted _ ∧ _ := ensures_turn perform_attempted lab w
    exact ⟨attempted, fun htarget => ⟨_, hearlier.bootstrapped_iff, atStart htarget⟩⟩
  have hinstalled : ∀ earlier turn later, turns = earlier ++ turn :: later →
      turn.request.target ≠ .bootstrapped → Installed (Turn.events earlier) →
      ∀ e ∈ turn.trace, ¬e.call.Installs := by
    intro earlier turn later hsplit htarget hearlier
    obtain ⟨bootstrapped, hiff, atStart⟩ := (hturns earlier turn later hsplit).right htarget
    apply not_installs_of_not_begun atStart.confined
    intro begun
    have unset := (atStart.begun.mp begun).right.right
    simp [hiff.mpr hearlier] at unset
  refine ⟨?_, ?_, ?_⟩
  . intro turn hturn
    obtain ⟨earlier, later, hsplit⟩ := List.append_of_mem hturn
    have attempted := (hturns earlier turn later hsplit).left
    exact ⟨attempted.once, attempted.confined⟩
  . intro earlier turn later hsplit htarget
    refine ⟨?_, hinstalled earlier turn later hsplit htarget⟩
    obtain ⟨bootstrapped, hiff, atStart⟩ := (hturns earlier turn later hsplit).right htarget
    rw [atStart.begun, ← hiff, Bool.not_eq_true]
  . apply Turn.installations_le_one
    intro earlier turn later hsplit hasked
    constructor
    . exact installations_le_one (hturns earlier turn later hsplit).left.confined
    . intro hearlier
      apply installations_eq_zero_iff.mpr
      apply not_installed_of_not_installs
      exact hinstalled earlier turn later hsplit (of_decide_eq_true hasked) hearlier

namespace reflashing

def board : Strategy :=
  wired { StrategyOptions.forBoard "bananapi" with doBootstrap := true } .sunxi

def writingFails : DeviceCall → Bool
  | .writeImage _ _ => true
  | _ => false

def failed : Turn :=
  board.turn (.transition .started) (.prompt writingFails) () .fresh 0

def flashed : Turn :=
  board.turn (.transition .started) (.prompt fun _ => false) () failed.after 100000

def stopped : Turn :=
  board.turn (.transition .off) (.prompt fun _ => false) () flashed.after 200000

def restarted : Turn :=
  board.turn (.transition .started) (.prompt fun _ => false) () stopped.after 300000

theorem session_restarted
    : Session board [failed, flashed, stopped, restarted] restarted.after restarted.ended := by
  have session₁ : Session board ([] ++ [failed]) failed.after failed.ended :=
    .request .fresh _ _ (Nat.le_refl 0)
  have session₂ : Session board ([failed] ++ [flashed]) flashed.after flashed.ended :=
    .request session₁ _ _ (by decide)
  have session₃ : Session board ([failed, flashed] ++ [stopped]) stopped.after stopped.ended :=
    .request session₂ _ _ (by decide)
  exact .request session₃ _ _ (by decide)

end reflashing

theorem reflashing_restarted_spared
    : Session reflashing.board
          [reflashing.failed, reflashing.flashed, reflashing.stopped, reflashing.restarted]
          reflashing.restarted.after reflashing.restarted.ended ∧
        attempts reflashing.failed.trace = 1 ∧ installations reflashing.failed.trace = 0 ∧
        attempts reflashing.flashed.trace = 1 ∧ installations reflashing.flashed.trace = 1 ∧
        reflashing.restarted.result = some (.ok ()) ∧
        ∀ e ∈ reflashing.restarted.trace, ¬e.call.Installs := by
  have once := session_installs_once reflashing.board reflashing.session_restarted
  have installed : Installed
      (Turn.events [reflashing.failed, reflashing.flashed, reflashing.stopped]) := by
    by_contra untouched
    have none := installations_eq_zero_iff.mpr untouched
    have one : installations
        (Turn.events [reflashing.failed, reflashing.flashed, reflashing.stopped]) = 1 := by
      rfl
    omega
  have spared := once.right.left
    [reflashing.failed, reflashing.flashed, reflashing.stopped] reflashing.restarted [] rfl
    (by decide)
  refine ⟨reflashing.session_restarted, ?_, ?_, ?_, ?_, ?_, spared.right installed⟩
  all_goals rfl

end Strategy

end BringUp
