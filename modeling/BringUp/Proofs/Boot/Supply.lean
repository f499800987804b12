import BringUp.Proofs.Boot.Drive
import BringUp.Proofs.Lab.Trace

/-!
This module contains the power of a board, as far as the calls that succeeded tell. The main
statement is when a board that is reported to be started is powered.
-/

namespace BringUp

open Program

inductive Supply where
  | on
  | off
deriving DecidableEq

def BootState.supply? : BootState → Option Supply
  | .unknown | .bootstrapped => none
  | .off => some .off
  | .started | .bootloader | .shell => some .on

namespace Strategy

/--
What a call makes of the power. A reset line that is switched by the same thing as the power is
released by switching that on.
-/
def supplies? (s : Strategy) : DeviceCall → Option Supply
  | .power .on | .power .cycle => some .on
  | .power .off => some .off
  | .reset false .cold => if s.reset.any s.sharesPower then some .on else none
  | _ => none

def supply (s : Strategy) (t : List Event) : Option Supply :=
  Trace.last s.supplies? t

variable {s : Strategy} {status : BoardStatus}

@[simp]
theorem supply_nil : s.supply [] = none :=
  rfl

theorem supply_append : s.supply (h ++ t) = (s.supply t).or (s.supply h) :=
  Trace.last_append

theorem supply_device_cons {c : DeviceCall} {v : c.Value} {start : Nat}
    : s.supply (⟨.device c, start, stop, no_index (some (.ok v))⟩ :: t) =
        (s.supply t).or (s.supplies? c) :=
  Trace.last_cons

theorem supply_sleep_cons {start : Nat} {r : Option Unit}
    : s.supply (⟨.sleep ms, start, stop, r⟩ :: t) = s.supply t := by
  rw [supply, Trace.last_cons]
  exact Option.or_none

abbrev supplied (s : Strategy) (status : BoardStatus) (x : Option Supply)
    : Post BoardStatus Error α :=
  .either (fun _ after _ h => after = status ∧ s.supply h = x) fun _ _ _ => True

theorem powerOff_supply (s : Strategy)
    : powerOff.Ensures (s.supplied status (some .off)) status now h := by
  simp [powerOff, supply_append, supply_device_cons, supplies?]

theorem enterRecovery_supply {reset : ResetLine}
    : (s.enterRecovery reset).Ensures (s.supplied status (some .on)) status now h := by
  unfold enterRecovery requestRecovery
  split <;> simp [supply_append, supply_device_cons, supply_sleep_cons, supplies?]

theorem powerUp_supply
    : s.powerUp.Ensures (s.supplied status (some .on)) status now h := by
  unfold powerUp
  cases hreset : s.reset with
  | none => simp [supply_append, supply_device_cons, supplies?]
  | some reset =>
    -- With a line of its own the power is cycled, else releasing the line switches it on.
    cases hshares : s.sharesPower reset
    all_goals
      simp [supply_append, supply_device_cons, supplies?, hreset, hshares]

def Idle (s : Strategy) (c : Call) : Prop :=
  Trace.Unset s.supplies? c ∧ c ≠ .mark (.begins .start)

theorem idle_of_covers {f : Footprint} (hc : f.Covers c) (hp : .power ∉ f.devices)
    (hr : .reset ∉ f.devices) (hs : .start ∉ f.parts)
    : s.Idle c := by
  constructor
  . cases c with
    | device c =>
      show s.supplies? c = none
      unfold supplies?
      split <;> simp_all [Footprint.Covers, DeviceCall.device]
    | interrupt limit => rfl
    | host c => trivial
    | sleep ms => trivial
    | clock => trivial
    | mark m => trivial
  . rintro rfl
    exact hs hc

theorem within_idle {α : Type} {f : Footprint} {p : Drive α} (hw : p.Within f.Covers)
    (hp : .power ∉ f.devices) (hr : .reset ∉ f.devices) (hs : .start ∉ f.parts)
    : p.Within s.Idle :=
  hw.mono fun _ hc => idle_of_covers hc hp hr hs

theorem supply_idle (ht : ∀ e ∈ t, s.Idle e.call) : s.supply t = none :=
  Trace.last_eq_none fun e he => (ht e he).left

theorem supply_append_idle (ht : ∀ e ∈ t, s.Idle e.call) : s.supply (h ++ t) = s.supply h :=
  Trace.last_append_unset fun e he => (ht e he).left

theorem ensures_idle {α : Type} {p : Drive α} (hp : p.Within s.Idle)
    : p.Ensures (s.supplied status (s.supply h)) status now h := by
  apply hp.ensures
  intro r now t ht
  rcases r with _ | e | a
  . trivial
  . trivial
  . exact ⟨rfl, supply_append_idle ht⟩

theorem supply_outside (s : Strategy) {α : Type} {p : Drive α}
    (hp : p.Within Footprint.outside.Covers)
    : p.Ensures (s.supplied status (s.supply h)) status now h :=
  ensures_idle (within_idle hp (by simp [Footprint.outside]) (by simp [Footprint.outside])
    (by simp [Footprint.outside]))

theorem install_supply
    : s.install.Ensures (s.supplied status (if s.options.useSend then some .on else s.supply h))
        status now h := by
  unfold install
  split
  . apply (supply_outside s s.recoveryReset_within).andThen
    rintro reset _ now h ⟨rfl, _⟩
    apply (supply_outside s s.locateBuild_within).andThen
    rintro dir _ now h ⟨rfl, _⟩
    apply enterRecovery_supply.andThen
    rintro _ _ now h ⟨rfl, on⟩
    rw [← on]
    exact ensures_idle (within_idle (s.writer.send_within dir) (by simp) (by simp) (by simp))
  . apply (supply_outside s s.locateBuild_within).andThen
    rintro dir _ now h' ⟨rfl, located⟩
    rw [← located]
    exact ensures_idle (within_idle (s.writer.write_within dir) (by simp [Writer.writeLines])
      (by simp [Writer.writeLines]) (by simp))

theorem supply_mark_cons {start : Nat} {r : Option Unit}
    : s.supply (⟨.mark m, start, stop, r⟩ :: t) = s.supply t := by
  rw [supply, Trace.last_cons]
  exact Option.or_none

theorem asPart_supply {α : Type} {p : Drive α} {Q : α → BoardStatus → Option Supply → Prop}
    (hp : ∀ h', s.supply h' = s.supply h →
      p.Ensures (.either (fun a after _ h => Q a after (s.supply h)) fun _ _ _ => True)
        status now h')
    : (asPart part p).Ensures
        (.either (fun a after _ h => Q a after (s.supply h)) fun _ _ _ => True)
        status now h := by
  apply ensures_asPart_either
  . simp only [supply_append, supply_mark_cons, supply_nil, Option.none_or]
    apply hp
    simp [supply_append, supply_mark_cons]
  . intros
    trivial

theorem bootstrap_supply
    : s.bootstrap.Ensures
        (.either
          (fun _ _ _ h' => s.supply h' = if s.options.useSend then some .on else s.supply h)
          fun _ _ _ => True)
        status now h := by
  apply asPart_supply (Q := fun _ _ x => x = if s.options.useSend then some .on else s.supply h)
  intro h' hh
  apply install_supply.andThen
  rintro _ _ now h'' ⟨rfl, installed⟩
  rw [hh] at installed
  exact installed

theorem prepare_supply (hoff : status.state = .off)
    : (s.prepare s.toBootstrapped).Ensures
        (.either
          (fun _ _ _ h' =>
            s.supply h' =
              if !status.bootstrapped && s.options.doBootstrap && s.options.useSend then some .on
              else s.supply h)
          fun _ _ _ => True)
        status now h := by
  rw [prepare, ensures_bind, ensures_state, Post.andThen_ok]
  split
  . next hboot =>
    rw [hboot, Bool.true_and]
    apply ensures_reach
    -- A board that is off is not where it would be with the image.
    . intro hin
      rw [hoff] at hin
      cases hin
    . intro _
      exact bootstrap_supply
  . next hboot =>
    simp only [hboot, Bool.false_and]
    have idle : s.writer.prepareBoot.Within s.Idle :=
      within_idle s.writer.prepareBoot_within (by simp) (by simp) (by simp)
    apply (ensures_idle idle).mono_value
    intro _ _ _ _ kept
    exact kept.right

def startSupply (s : Strategy) (bootstrapped : Bool) (supply : Option Supply) : Option Supply :=
  if s.options.useSend && (bootstrapped || !s.options.doBootstrap) then supply else some .on

theorem start_supply (hoff : status.state = .off)
    : (s.start s.toBootstrapped).Ensures
        (.either
          (fun _ _ _ h' => s.supply h' = s.startSupply status.bootstrapped (s.supply h))
          fun _ _ _ => True)
        status now h := by
  apply asPart_supply (Q := fun _ _ x => x = s.startSupply status.bootstrapped (s.supply h))
  intro h' hh
  apply (prepare_supply hoff).andThen
  intro _ status' now h'' prepared
  rw [hh] at prepared
  split
  . next hsend =>
    rw [hsend, Bool.and_true] at prepared
    show s.supply h'' = _
    rw [prepared, startSupply, hsend, Bool.true_and]
    cases status.bootstrapped <;> cases s.options.doBootstrap <;> rfl
  . next hsend =>
    simp only [startSupply, hsend, Bool.false_and]
    apply powerUp_supply.mono_value
    intro _ _ _ _ up
    exact up.right

theorem toOff_supply (s : Strategy)
    : toOff.Ensures
        (.either
          (fun _ after _ h' =>
            after = { status with state := .off } ∧
              s.supply h' = if status.state = .off then s.supply h else some .off)
          fun _ _ _ => True)
        status now h := by
  apply ensures_reach
  . rintro hin
    simp [← hin]
  . intro hnot
    apply (powerOff_supply s).mono_value
    rintro _ after now h' ⟨rfl, off⟩
    simp [hnot, off]

def restartSupply (s : Strategy) (status : BoardStatus) (h : List Event) : Option Supply :=
  s.startSupply status.bootstrapped (if status.state = .off then s.supply h else some .off)

variable {prior : List Event}

theorem toStarted_supply (ht : ∀ e ∈ t, s.Idle e.call)
    : s.toStarted.Ensures
        (.either
          (fun _ _ _ t' => Trace.Begun .start t' →
            s.supply (prior ++ t') = s.restartSupply status prior)
          fun _ _ _ => True)
        status now t := by
  apply ensures_reach
  . rintro _ ⟨e, he, hbegins⟩
    exact absurd hbegins (ht e he).right
  . intro _
    -- The events before this request count as well, as a board that is off may have been powered.
    have started : (toOff >>= fun _ => s.start s.toBootstrapped).Ensures
        (.either (fun _ _ _ h => s.supply h = s.restartSupply status prior) fun _ _ _ => True)
        status now (prior ++ t) := by
      apply (toOff_supply s).andThen
      rintro _ _ now h ⟨rfl, off⟩
      rw [supply_append_idle ht] at off
      rw [restartSupply, ← off]
      exact start_supply rfl
    apply (ensures_append.mp started).mono
    intro r after now t' hr
    rcases r with _ | e | a
    . trivial
    . trivial
    . exact fun _ => hr

theorem ensures_started {α : Type} {p : Drive α} {x : Option Supply} (hp : p.Within s.Idle)
    (ht : Trace.Begun .start t → s.supply (prior ++ t) = x)
    : p.Ensures
        (.either (fun _ _ _ t' => Trace.Begun .start t' → s.supply (prior ++ t') = x)
          fun _ _ _ => True)
        status now t := by
  apply hp.ensures
  intro r now u hu
  rcases r with _ | e | a
  . trivial
  . trivial
  -- If a start has begun it was before `p`, which does nothing to the power it has left.
  . rintro begun
    rw [← List.append_assoc, supply_append_idle hu]
    apply ht
    apply (Trace.begun_append.mp begun).resolve_right
    rintro ⟨e, he, hbegins⟩
    exact (hu e he).right hbegins

abbrev restarted (s : Strategy) (status : BoardStatus) (prior : List Event)
    : Post BoardStatus Error Unit :=
  .either
    (fun _ _ _ t => Trace.Begun .start t → s.supply (prior ++ t) = s.restartSupply status prior)
    fun _ _ _ => True

theorem toBootloader_supply
    : s.toBootloader.Ensures (s.restarted status prior) status now [] := by
  apply ensures_reach
  . rintro _ ⟨e, he, _⟩
    cases he
  . intro _
    rw [ensures_bind, ensures_clock, Post.andThen_ok]
    apply (toStarted_supply (by simp [Idle, Trace.Unset])).andThen
    intro _ _ _ _ started
    have idle : (s.interrupt now).Within s.Idle :=
      within_idle (s.interrupt_within now) (by simp) (by simp) (by simp)
    apply (ensures_started idle started).andThen
    intro _ _ _ _ started
    exact started

theorem toShell_supply
    : s.toShell.Ensures (s.restarted status prior) status now [] := by
  apply ensures_reach
  . rintro _ ⟨e, he, _⟩
    cases he
  . intro _
    apply toBootloader_supply.andThen
    intro _ _ _ _ started
    exact ensures_started (within_idle s.bootToShell_within (by simp) (by simp) (by simp)) started

theorem transition_restarted (htarget : target.supply? = some .on)
    : (s.transition target).Ensures (s.restarted status prior) status now [] := by
  apply ensures_transition_value
  cases target with
  | unknown => cases htarget
  | off => cases htarget
  | bootstrapped => cases htarget
  | started => exact toStarted_supply (by simp)
  | bootloader => exact toBootloader_supply
  | shell => exact toShell_supply

theorem restartSupply_eq_on_iff
    : s.restartSupply status prior = some .on ↔
        s.options.useSend = false ∨ (status.bootstrapped = false ∧ s.options.doBootstrap = true) ∨
          (status.state = .off ∧ s.supply prior = some .on) := by
  unfold restartSupply startSupply
  cases s.options.useSend <;> cases status.bootstrapped <;> cases s.options.doBootstrap
  all_goals
    by_cases hoff : status.state = .off <;> simp [hoff]

/--
A board that is reported to be started is powered afterwards, unless the image is sent and this
start has not sent it. A board that was on is then off.
-/
theorem transition_supply_on_iff (s : Strategy) (target : BootState)
    (htarget : target.supply? = some .on) (lab : Lab ω) (w : ω) (status : BoardStatus) (now : Nat)
    (prior : List Event)
    : let turn := s.turn (.transition target) lab w status now
      turn.result = some (.ok ()) → Trace.Begun .start turn.trace →
        (s.supply (prior ++ turn.trace) = some .on ↔
          s.options.useSend = false ∨
            (status.bootstrapped = false ∧ s.options.doBootstrap = true) ∨
            (status.state = .off ∧ s.supply prior = some .on)) := by
  intro turn hok hbegun
  have hrestarted : (s.perform (.transition target)).Ensures (s.restarted status prior)
      status now [] :=
    transition_restarted htarget
  have hsupply := ensures_turn hrestarted lab w
  rw [show (s.turn (.transition target) lab w status now).result = _ from hok] at hsupply
  rw [show s.supply (prior ++ turn.trace) = _ from hsupply hbegun]
  exact restartSupply_eq_on_iff

theorem wired_supply_on_iff
    : let s := wired (.forBoard "rpi_3") .rpi3
      let turn := s.turn (.transition .shell) (.prompt fun _ => false) () .fresh 0
      turn.result = some (.ok ()) ∧ Trace.Begun .start turn.trace ∧
        (s.supply ([] ++ turn.trace) = some .on ↔
          s.options.useSend = false ∨ (false = false ∧ s.options.doBootstrap = true) ∨
            (BootState.unknown = .off ∧ s.supply [] = some .on)) := by
  have hbegun : Trace.Begun .start ((wired (.forBoard "rpi_3") .rpi3).turn (.transition .shell)
      (.prompt fun _ => false) () .fresh 0).trace := by
    unfold Trace.Begun
    decide
  exact ⟨rfl, hbegun, transition_supply_on_iff _ .shell rfl _ () .fresh 0 [] rfl hbegun⟩

def sending : Strategy :=
  wired { StrategyOptions.forBoard "bananapi" with doBootstrap := true, doSend := true } .sunxi

namespace sending

def started : Turn :=
  sending.turn (.transition .started) (.prompt fun _ => false) () .fresh 0

def stopped : Turn :=
  sending.turn (.transition .off) (.prompt fun _ => false) () started.after 1000

def restarted : Turn :=
  sending.turn (.transition .started) (.prompt fun _ => false) () stopped.after 2000

end sending

/--
Once the image was sent, a board that was off is reported to be started although it is still off.
-/
theorem sending_restarted_off
    : Session sending [sending.started, sending.stopped] sending.stopped.after
          sending.stopped.ended ∧
        sending.stopped.ended ≤ 2000 ∧
        sending.restarted.result = some (.ok ()) ∧
        Trace.Begun .start sending.restarted.trace ∧
        sending.restarted.after.state = .started ∧
        sending.supply
            (Turn.events [sending.started, sending.stopped] ++ sending.restarted.trace) =
          some .off := by
  have started : Session sending ([] ++ [sending.started]) sending.started.after
      sending.started.ended :=
    .request .fresh _ _ (Nat.le_refl 0)
  have stopped : Session sending ([sending.started] ++ [sending.stopped]) sending.stopped.after
      sending.stopped.ended :=
    .request started _ _ (by decide)
  have begun : Trace.Begun .start sending.restarted.trace := by
    unfold Trace.Begun
    decide
  exact ⟨stopped, by decide, rfl, begun, rfl, rfl⟩

end Strategy

end BringUp
