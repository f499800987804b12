import BringUp.Proofs.Boot.Drive
import BringUp.Proofs.Image.Card

/-!
This module contains that the card is shared safely as long as a strategy is used. The main
statement is that the lab uses the card only while it is attached to the lab, that a board is let
boot only while it is attached to the board, and that every write hands it back, whatever fails.
-/

namespace BringUp

open Program Trace

namespace Strategy

variable {s : Strategy} {status : BoardStatus} {settle : Nat} {x : Option MuxMode}

theorem within_steady {α : Type} {f : Footprint} {p : Drive α} (hp : p.Within f.Covers)
    (hmux : .sdmux ∉ f.devices) (hstorage : .storage ∉ f.devices) (hpower : .power ∉ f.devices)
    (hreset : .reset ∉ f.devices)
    : p.Within (Call.SteadyAt x) := by
  apply hp.mono
  intro c hc
  apply steadyAt_of_covers hc hmux
  . intro hmem
    contradiction
  . rintro (hmem | hmem) <;> contradiction

theorem powerOff_steady : powerOff.Within (Call.SteadyAt x) := by
  simp [powerOff, Call.SteadyAt, Unset, DeviceCall.muxMode?, Call.AllowedAt, DeviceCall.device]

theorem enterRecovery_steady {reset : ResetLine}
    : (s.enterRecovery reset).Within (Call.SteadyAt x) := by
  simp [enterRecovery, requestRecovery, sleep, Call.SteadyAt, Unset, DeviceCall.muxMode?,
    Call.AllowedAt, DeviceCall.device]

theorem powerUp_steady : s.powerUp.Within (Call.SteadyAt (some .device)) := by
  apply s.powerUp_within.mono
  intro c hc
  exact steadyAt_of_covers hc (by simp) (by simp) (by simp)

abbrev carding (settle : Nat) : Post BoardStatus Error α :=
  .either (fun _ _ _ h => CardKept settle h) fun _ _ h => CardKept settle h

abbrev handing (s : Strategy) : Post BoardStatus Error α :=
  .either
    (fun _ _ _ h =>
      CardKept s.writer.options.settleDelay h ∧
        (s.options.useSend = false → card h = some .device))
    fun _ _ h => CardKept s.writer.options.settleDelay h

theorem ensures_carding {α : Type} {p : Drive α} (hp : p.Within (Call.SteadyAt (card h)))
    (hk : CardKept settle h)
    : p.Ensures
        (.either (fun _ after _ h' => after = status ∧ CardKept settle h')
          fun _ _ h' => CardKept settle h')
        status now h := by
  apply (hk.ensures_steady hp).mono
  intro r _ _ _ hr
  rcases r with _ | e | a
  . exact hr.right.right
  . exact hr.right.right
  . exact ⟨hr.left, hr.right.right⟩

theorem cardKept_mark (hk : CardKept settle h) {r : Option Unit}
    : CardKept settle (h ++ [⟨.mark m, now, now, r⟩]) :=
  hk.append_steady (by simp [steadyAt_mark])

section

variable (hmux : s.writer.sdmux = true) (hk : CardKept s.writer.options.settleDelay h)

include hmux hk

theorem install_cardKept
    : s.install.Ensures s.handing status now h := by
  have outside {α : Type} {p : Drive α} {x : Option MuxMode}
      (hp : p.Within Footprint.outside.Covers)
      : p.Within (Call.SteadyAt x) :=
    within_steady hp (by simp [Footprint.outside]) (by simp [Footprint.outside])
      (by simp [Footprint.outside]) (by simp [Footprint.outside])
  unfold install
  split
  . next hsend =>
    apply (ensures_carding (outside s.recoveryReset_within) hk).andThen
    rintro reset _ _ _ ⟨_, hk⟩
    apply (ensures_carding (outside s.locateBuild_within) hk).andThen
    rintro dir _ _ _ ⟨_, hk⟩
    apply (ensures_carding enterRecovery_steady hk).andThen
    rintro _ _ _ _ ⟨_, hk⟩
    have steady {x : Option MuxMode} : (s.writer.send dir).Within (Call.SteadyAt x) :=
      within_steady (s.writer.send_within dir) (by simp) (by simp) (by simp) (by simp)
    apply (ensures_carding steady hk).mono_value
    rintro _ _ _ _ ⟨_, hk⟩
    refine ⟨hk, fun hwrite => ?_⟩
    rw [hsend] at hwrite
    cases hwrite
  . apply (ensures_carding (outside s.locateBuild_within) hk).andThen
    rintro dir _ _ _ ⟨_, hk⟩
    apply (s.writer.write_cardKept dir hmux hk).mono_either
    . rintro _ _ _ _ ⟨_, hcard, hk⟩
      exact ⟨hk, fun _ => hcard⟩
    . rintro _ _ _ ⟨_, hk⟩
      exact hk

theorem bootstrap_cardKept
    : s.bootstrap.Ensures s.handing status now h := by
  apply ensures_asPart_either
  . apply (install_cardKept hmux (cardKept_mark hk)).andThen
    rintro _ _ _ h ⟨hk, hcard⟩
    refine ⟨cardKept_mark hk, fun hwrite => ?_⟩
    rw [← hcard hwrite]
    exact card_append_steady (m := none) (by simp [steadyAt_mark])
  . intro _ _ _ hk
    exact cardKept_mark hk

theorem prepare_cardKept (hoff : status.state = .off)
    : (s.prepare s.toBootstrapped).Ensures s.handing status now h := by
  rw [prepare, ensures_bind, ensures_state, Post.andThen_ok]
  split
  . apply ensures_reach
    . intro hin
      rw [hoff] at hin
      cases hin
    . intro _
      exact bootstrap_cardKept hmux hk
  . apply (s.writer.prepareBoot_cardKept hmux hk).mono_either
    . rintro _ _ _ _ ⟨_, hcard, hk⟩
      exact ⟨hk, fun _ => hcard⟩
    . rintro _ _ _ ⟨_, hk⟩
      exact hk

theorem start_cardKept (hoff : status.state = .off)
    : (s.start s.toBootstrapped).Ensures (carding s.writer.options.settleDelay) status now h := by
  apply ensures_asPart_either
  . apply (prepare_cardKept hmux (cardKept_mark hk) hoff).andThen
    rintro _ _ _ h ⟨hk, hcard⟩
    split
    . exact cardKept_mark hk
    . next hwrite =>
      -- The image is not sent, so the card has just been handed to the board.
      have steady : s.powerUp.Within (Call.SteadyAt (card h)) := by
        rw [hcard (by simpa using hwrite)]
        exact powerUp_steady
      apply (ensures_carding steady hk).mono_value
      rintro _ _ _ _ ⟨_, hk⟩
      exact cardKept_mark hk
  . intro _ _ _ hk
    exact cardKept_mark hk

omit hmux in
theorem toOff_cardKept
    : toOff.Ensures
        (.either
          (fun _ after _ h' => after.state = .off ∧ CardKept s.writer.options.settleDelay h')
          fun _ _ h' => CardKept s.writer.options.settleDelay h')
        status now h := by
  apply ensures_reach
  . intro hin
    exact ⟨hin, hk⟩
  . intro _
    apply (ensures_carding powerOff_steady hk).mono_value
    rintro _ _ _ _ ⟨_, hk⟩
    exact ⟨rfl, hk⟩

theorem toStarted_cardKept
    : s.toStarted.Ensures (carding s.writer.options.settleDelay) status now h := by
  apply ensures_reach
  . intro _
    exact hk
  . intro _
    apply (toOff_cardKept hk).andThen
    rintro _ _ _ _ ⟨hoff, hk⟩
    exact start_cardKept hmux hk hoff

theorem toBootloader_cardKept
    : s.toBootloader.Ensures (carding s.writer.options.settleDelay) status now h := by
  apply ensures_reach
  . intro _
    exact hk
  . intro _
    rw [ensures_bind, ensures_clock, Post.andThen_ok]
    have clock : CardKept s.writer.options.settleDelay (h ++ [⟨.clock, now, now, some now⟩]) :=
      hk.append_steady (by simp [Call.SteadyAt, Unset, Call.AllowedAt])
    apply (toStarted_cardKept hmux clock).andThen
    intro _ _ _ h hk
    have steady : (s.interrupt now).Within (Call.SteadyAt (card h)) :=
      within_steady (s.interrupt_within now) (by simp) (by simp) (by simp) (by simp)
    apply (ensures_carding steady hk).andThen
    rintro _ _ _ _ ⟨_, hk⟩
    exact hk

theorem toShell_cardKept
    : s.toShell.Ensures (carding s.writer.options.settleDelay) status now h := by
  apply ensures_reach
  . intro _
    exact hk
  . intro _
    apply (toBootloader_cardKept hmux hk).andThen
    intro _ _ _ h hk
    have steady : s.bootToShell.Within (Call.SteadyAt (card h)) :=
      within_steady s.bootToShell_within (by simp) (by simp) (by simp) (by simp)
    apply (ensures_carding steady hk).mono_value
    rintro _ _ _ _ ⟨_, hk⟩
    exact hk

theorem drive_cardKept (target : BootState)
    : (s.drive target).Ensures (carding s.writer.options.settleDelay) status now h := by
  cases target with
  | unknown => exact hk
  | off =>
    apply (toOff_cardKept hk).mono_value
    rintro _ _ _ _ ⟨_, hk⟩
    exact hk
  | bootstrapped =>
    apply ensures_reach
    . intro _
      exact hk
    . intro _
      apply (bootstrap_cardKept hmux hk).mono_value
      rintro _ _ _ _ ⟨hk, _⟩
      exact hk
  | started => exact toStarted_cardKept hmux hk
  | bootloader => exact toBootloader_cardKept hmux hk
  | shell => exact toShell_cardKept hmux hk

theorem perform_cardKept (request : Request)
    : (s.perform request).Ensures (fun _ _ _ h' => CardKept s.writer.options.settleDelay h')
        status now h := by
  cases request with
  | transition target =>
    apply ensures_transition.mpr
    apply (drive_cardKept hmux hk target).mono
    intro r _ _ _ hr
    rcases r with _ | e | a
    . exact hr
    . exact hr
    . exact hr
  | force target =>
    have steady : (attach target).Within (Call.SteadyAt (card h)) := by
      cases target <;> simp [attach, Call.SteadyAt, Unset, DeviceCall.muxMode?, Call.AllowedAt,
        DeviceCall.device]
    rw [perform, force, ensures_bind]
    apply (ensures_carding steady hk).mono
    intro r _ _ _ hr
    rcases r with _ | e | a
    . exact hr
    . exact hr
    . exact hr.right

end

/--
As long as a strategy is used, whatever is asked for and whatever fails, the lab uses the card only
while it is attached to the lab, the board is let boot only while it is attached to the board, and
every write that attaches the card to the lab hands it back at its end, once the last call on the
storage or the emulator has settled.
-/
theorem session_cardKept (s : Strategy) (hmux : s.writer.sdmux = true)
    (session : Session s turns status now)
    : CardKept s.writer.options.settleDelay (Turn.events turns) := by
  induction session with
  | fresh => exact .nil
  | @request turns before ended now ω w session request lab later ih =>
    -- Nothing is assumed of the state between two requests, so any request may follow any other.
    rw [Turn.events_concat]
    exact (perform_cardKept hmux ih request).run lab w

namespace carrying

def board : Strategy :=
  wired { StrategyOptions.forBoard "bananapi" with doBootstrap := true } .sunxi

def ready : Turn :=
  board.turn (.transition .bootloader) (.prompt fun _ => false) () .fresh 0

end carrying

theorem carrying_ready_cardKept
    : carrying.board.writer.sdmux = true ∧
        Session carrying.board [carrying.ready] carrying.ready.after carrying.ready.ended ∧
        carrying.ready.result = some (.ok ()) ∧
        CardKept 1000 (Turn.events [carrying.ready]) := by
  have session : Session carrying.board ([] ++ [carrying.ready]) carrying.ready.after
      carrying.ready.ended :=
    .request .fresh _ _ (Nat.le_refl 0)
  exact ⟨rfl, session, rfl, session_cardKept carrying.board rfl session⟩

end Strategy

end BringUp
