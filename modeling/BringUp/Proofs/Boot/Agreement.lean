import BringUp.Proofs.Boot.Supply

/-!
This module contains when the state that is kept of a board agrees with its power. The main
statement is that a board whose image is written is powered as its state tells, unless the last
transition that did anything to the power has failed: it has kept the state from before.
-/

namespace BringUp

open Program

namespace Strategy

variable {s : Strategy} {before after status : BoardStatus}

/--
Some events have left the power as the state afterwards tells. If nothing was done to the power, the
state tells the same as before.
-/
def Agreed (s : Strategy) (before after : BoardStatus) (t : List Event) : Prop :=
  s.supply t = after.state.supply? ∨
    (s.supply t = none ∧ after.state.supply? = before.state.supply?)

def Kept (s : Strategy) (before after : BoardStatus) (t : List Event) : Prop :=
  s.supply t = none →
    after.state.supply? = none ∨ after.state.supply? = before.state.supply?

theorem Agreed.kept (ha : s.Agreed before after t) : s.Kept before after t := by
  intro hnone
  rcases ha with heq | ⟨_, heq⟩
  . exact .inl (heq.symm.trans hnone)
  . exact .inr heq

theorem Kept.append (hk : s.Kept before after h) : s.Kept before after (h ++ t) := by
  intro hnone
  rw [supply_append, Option.or_eq_none_iff] at hnone
  exact hk hnone.right

theorem Agreed.of_idle (ht : ∀ e ∈ t, s.Idle e.call) : s.Agreed before before t :=
  .inr ⟨supply_idle ht, rfl⟩

theorem Agreed.append_idle (ha : s.Agreed before after h) (ht : ∀ e ∈ t, s.Idle e.call)
    : s.Agreed before after (h ++ t) := by
  rw [Agreed, supply_append_idle ht]
  exact ha

theorem Agreed.congr (ha : s.Agreed before status t)
    (heq : after.state.supply? = status.state.supply?)
    : s.Agreed before after t := by
  rw [Agreed, heq]
  exact ha

abbrev agreeing (s : Strategy) (before : BoardStatus) : Post BoardStatus Error Unit :=
  .either (fun _ after _ t => s.Agreed before after t) fun after _ t => s.Kept before after t

abbrev keeping (s : Strategy) (before : BoardStatus) : Post BoardStatus Error α :=
  .either (fun _ after _ t => s.Kept before after t) fun after _ t => s.Kept before after t

theorem ensures_kept {α : Type} {p : Drive α} {K : Call → Prop} (hp : p.Within K)
    (hk : s.Kept before status h)
    : p.Ensures
        (.either (fun _ after _ h' => after = status ∧ s.Kept before status h')
          fun after _ h' => s.Kept before after h')
        status now h := by
  apply hp.ensures
  intro r now t _
  rcases r with _ | e | a
  . exact hk.append
  . exact hk.append
  . exact ⟨rfl, hk.append⟩

theorem ensures_agreed {α : Type} {p : Drive α} (hp : p.Within s.Idle)
    (ha : s.Agreed before status h)
    : p.Ensures
        (.either (fun _ after _ h' => after = status ∧ s.Agreed before status h')
          fun after _ h' => s.Kept before after h')
        status now h := by
  apply hp.ensures
  intro r now t ht
  rcases r with _ | e | a
  . exact ha.kept.append
  . exact ha.kept.append
  . exact ⟨rfl, ha.append_idle ht⟩

theorem toOff_agreed (ht : ∀ e ∈ t, s.Idle e.call)
    : toOff.Ensures
        (.either (fun _ after _ t' => after.state = .off ∧ s.Agreed before after t')
          fun after _ t' => s.Kept before after t')
        before now t := by
  apply ensures_reach
  . intro hin
    exact ⟨hin, .of_idle ht⟩
  . intro _
    apply ((powerOff_supply s).and_either
      (ensures_kept powerOff_within (Agreed.of_idle ht).kept)).mono_either
    . rintro _ _ _ _ ⟨⟨_, off⟩, _⟩
      exact ⟨rfl, .inl off⟩
    . rintro _ _ _ ⟨_, kept⟩
      exact kept

theorem asPart_kept {α : Type} {p : Drive α} (hk : s.Kept before status h)
    (hp : ∀ h, s.Kept before status h →
      p.Ensures (s.keeping before) status now h)
    : (asPart part p).Ensures (s.keeping before) status now h := by
  apply ensures_asPart_either
  . apply (hp _ hk.append).mono_value
    intro _ _ _ _ hk
    exact hk.append
  . intro _ _ _ hk
    exact hk.append

theorem bootstrap_kept (hk : s.Kept before status h)
    : s.bootstrap.Ensures (s.keeping before) status now h := by
  apply asPart_kept hk
  intro h hk
  apply (ensures_kept s.install_within hk).andThen
  rintro _ _ _ _ ⟨rfl, hk⟩
  exact hk

theorem prepare_kept (hk : s.Kept before status h)
    : (s.prepare s.toBootstrapped).Ensures (s.keeping before) status now h := by
  rw [prepare, ensures_bind, ensures_state, Post.andThen_ok]
  split
  . apply ensures_reach
    . intro _
      exact hk
    . intro _
      -- That the image is on the board tells nothing of the power.
      apply (bootstrap_kept hk).mono_value
      intro _ _ _ _ _ _
      exact .inl rfl
  . apply (ensures_kept s.writer.prepareBoot_within hk).mono_value
    rintro _ _ _ _ ⟨rfl, hk⟩
    exact hk

theorem start_kept (hk : s.Kept before status h)
    : (s.start s.toBootstrapped).Ensures (s.keeping before) status now h := by
  apply asPart_kept hk
  intro h hk
  apply (prepare_kept hk).andThen
  intro _ status now h hk
  split
  . exact hk
  . apply (ensures_kept s.powerUp_within hk).mono_value
    rintro _ _ _ _ ⟨rfl, hk⟩
    exact hk

theorem reached_agreed (target : BootState)
    (hdrive : (s.drive target).Ensures (s.agreeing before) status now t)
    : (s.drive target).Ensures
        (.either (fun _ after _ t' => after.state = target ∧ s.Agreed before after t')
          fun after _ t' => s.Kept before after t')
        status now t := by
  apply ((s.drive_state target).and_either hdrive).mono_either
  . intro _ _ _ _ reached
    exact reached
  . rintro _ _ _ ⟨_, kept⟩
    exact kept

section

variable (hsend : s.options.useSend = false)

include hsend

theorem toStarted_agreed (ht : ∀ e ∈ t, s.Idle e.call)
    : s.toStarted.Ensures (s.agreeing before) before now t := by
  apply ensures_reach
  . intro hin
    exact .of_idle ht
  . intro _
    apply (toOff_agreed ht).andThen
    rintro _ status now t ⟨off, agreed⟩
    apply ((start_supply off).and_either (start_kept agreed.kept)).mono_either
    . rintro _ _ _ _ ⟨started, _⟩
      rw [startSupply, hsend] at started
      exact .inl started
    . rintro _ _ _ ⟨_, kept⟩
      exact kept

theorem toBootstrapped_agreed
    : s.toBootstrapped.Ensures (s.agreeing before) before now [] := by
  have nothing : s.Kept before before [] := Agreed.kept (.of_idle (by simp))
  apply ensures_reach
  . intro _
    exact .of_idle (by simp)
  . intro _
    apply (bootstrap_supply.and_either (bootstrap_kept nothing)).mono_either
    . rintro _ _ _ _ ⟨installed, _⟩
      rw [hsend] at installed
      exact .inl installed
    . rintro _ _ _ ⟨_, kept⟩
      exact kept

theorem toBootloader_agreed
    : s.toBootloader.Ensures (s.agreeing before) before now [] := by
  apply ensures_reach
  . intro _
    exact .of_idle (by simp)
  . intro _
    rw [ensures_bind, ensures_clock, Post.andThen_ok]
    have clock : ∀ e ∈ ([] ++ [⟨.clock, now, now, some now⟩] : List Event), s.Idle e.call := by
      simp [Idle, Trace.Unset]
    apply (reached_agreed .started (toStarted_agreed hsend clock)).andThen
    rintro _ status now' t ⟨started, agreed⟩
    have idle : (s.interrupt now).Within s.Idle :=
      within_idle (s.interrupt_within now) (by simp) (by simp) (by simp)
    apply (ensures_agreed idle agreed).andThen
    rintro _ _ _ _ ⟨rfl, agreed⟩
    exact agreed.congr (by rw [started]; rfl)

theorem toShell_agreed
    : s.toShell.Ensures (s.agreeing before) before now [] := by
  apply ensures_reach
  . intro hin
    exact .of_idle (by simp)
  . intro _
    apply (reached_agreed .bootloader (toBootloader_agreed hsend)).andThen
    rintro _ status now t ⟨ready, agreed⟩
    have idle : s.bootToShell.Within s.Idle :=
      within_idle s.bootToShell_within (by simp) (by simp) (by simp)
    apply (ensures_agreed idle agreed).mono_value
    rintro _ _ _ _ ⟨rfl, agreed⟩
    exact agreed.congr (by rw [ready]; rfl)

theorem drive_agreed (target : BootState)
    : (s.drive target).Ensures (s.agreeing before) before now [] := by
  have nothing : s.Agreed before before [] := .of_idle (by simp)
  cases target with
  | unknown => exact nothing.kept
  | off =>
    apply (toOff_agreed (by simp)).mono_value
    rintro _ _ _ _ ⟨_, agreed⟩
    exact agreed
  | bootstrapped => exact toBootstrapped_agreed hsend
  | started => exact toStarted_agreed hsend (by simp)
  | bootloader => exact toBootloader_agreed hsend
  | shell => exact toShell_agreed hsend

theorem transition_agreed (target : BootState)
    : (s.transition target).Ensures (s.agreeing before) before now [] := by
  apply ensures_transition.mpr
  apply (drive_agreed hsend target).mono
  intro r after now t hr
  rcases r with _ | e | a
  . exact hr
  . intro _
    exact .inr rfl
  . exact hr

end

theorem turn_agreed (hsend : s.options.useSend = false) (target : BootState) (lab : Lab ω) (w : ω)
    (before : BoardStatus) (now : Nat)
    : let turn := s.turn (.transition target) lab w before now
      s.Kept before turn.after turn.trace ∧
        (turn.result = some (.ok ()) → s.Agreed before turn.after turn.trace) := by
  have hperform : (s.perform (.transition target)).Ensures
      (fun r after _ t =>
        s.Kept before after t ∧ (r = some (.ok ()) → s.Agreed before after t))
      before now [] := by
    apply (transition_agreed hsend target).mono
    intro r after now t hr
    rcases r with _ | e | ⟨⟨⟩⟩
    . simpa using hr
    . simpa using hr
    . exact ⟨hr.kept, fun _ => hr⟩
  exact ensures_turn hperform lab w

def PoweredAs (s : Strategy) (status : BoardStatus) (h : List Event) : Prop :=
  ∀ x, status.state.supply? = some x → s.supply h = some x

theorem Kept.poweredAs (hk : s.Kept before after t) (hnone : s.supply t = none)
    (hprior : s.PoweredAs before prior)
    : s.PoweredAs after (prior ++ t) := by
  intro x hx
  rw [supply_append, hnone, Option.none_or]
  apply hprior
  rcases hk hnone with hunknown | hsame
  . rw [hx] at hunknown
    cases hunknown
  . rw [← hsame, hx]

theorem Agreed.poweredAs (ha : s.Agreed before after t) (hsome : s.supply t = some y)
    : s.PoweredAs after (prior ++ t) := by
  intro x hx
  rcases ha with heq | ⟨hnone, _⟩
  . rw [supply_append, heq, hx, Option.some_or]
  . rw [hsome] at hnone
    cases hnone

def lastSwitched (s : Strategy) (turns : List Turn) : Option Turn :=
  turns.reverse.find? fun turn => (s.supply turn.trace).isSome

theorem session_poweredAs (hsend : s.options.useSend = false)
    (session : Session s turns status now)
    (htransitions : ∀ turn ∈ turns, ∃ target, turn.request = .transition target)
    (hlast : ∀ turn, s.lastSwitched turns = some turn → turn.result = some (.ok ()))
    : s.PoweredAs status (Turn.events turns) := by
  induction session with
  | fresh =>
    intro x hx
    cases hx
  | @request turns before ended now ω w session request lab later ih =>
    have hrequest := htransitions (s.turn request lab w before now) (by simp)
    obtain ⟨target, rfl⟩ : ∃ target, request = .transition target := hrequest
    obtain ⟨kept, agreed⟩ := turn_agreed hsend target lab w before now
    rw [Turn.events_concat]
    -- A turn that did nothing to the power passes on what held before, also if it has failed.
    cases hsupply : s.supply (s.turn (.transition target) lab w before now).trace with
    | none =>
      apply kept.poweredAs hsupply
      apply ih
      . intro turn hturn
        exact htransitions turn (by simp [hturn])
      . intro turn hturn
        apply hlast
        simpa [lastSwitched, hsupply] using hturn
    | some x =>
      apply (agreed _).poweredAs hsupply
      apply hlast
      simp [lastSwitched, hsupply]

/--
A board whose image is written is powered as its state tells, provided that the last transition that
did anything to the power has succeeded. To ask for that state again does nothing and leaves it so.
-/
theorem session_power_agrees (s : Strategy) (hsend : s.options.useSend = false)
    (session : Session s turns status now)
    (htransitions : ∀ turn ∈ turns, ∃ target, turn.request = .transition target)
    (hlast : ∀ turn, s.lastSwitched turns = some turn → turn.result = some (.ok ()))
    : (status.state = .off → s.supply (Turn.events turns) = some .off) ∧
        (status.state = .started ∨ status.state = .bootloader ∨ status.state = .shell →
          s.supply (Turn.events turns) = some .on) ∧
        (status.state ≠ .unknown → ∀ {ω : Type} (lab : Lab ω) (w : ω) (later : Nat),
          let turn := s.turn (.transition status.state) lab w status later
          turn.result = some (.ok ()) ∧ turn.after = status ∧ turn.trace = []) := by
  have powered := session_poweredAs hsend session htransitions hlast
  refine ⟨?_, ?_, ?_⟩
  . intro hoff
    apply powered
    rw [hoff]
    rfl
  . intro hon
    apply powered
    rcases hon with hon | hon | hon
    . rw [hon]
      rfl
    . rw [hon]
      rfl
    . rw [hon]
      rfl
  . intro hstate ω lab w later
    rw [turn_same s lab w status later hstate]
    exact ⟨rfl, rfl, rfl⟩

namespace relapsing

def board : Strategy := wired (.forBoard "rpi_3") .rpi3

def ready : Turn :=
  board.turn (.transition .bootloader) (.prompt fun _ => false) () .fresh 0

def consoleFails : DeviceCall → Bool
  | .activate .console => true
  | _ => false

def failed : Turn :=
  board.turn (.transition .started) (.prompt consoleFails) () ready.after 1000

theorem session_ready : Session board [ready] ready.after ready.ended := by
  have session : Session board ([] ++ [ready]) ready.after ready.ended :=
    .request .fresh _ _ (Nat.le_refl 0)
  exact session

end relapsing

theorem relapsing_ready_on
    : relapsing.board.options.useSend = false ∧
        (∀ turn ∈ [relapsing.ready], ∃ target, turn.request = .transition target) ∧
        (∀ turn, relapsing.board.lastSwitched [relapsing.ready] = some turn →
          turn.result = some (.ok ())) ∧
        relapsing.ready.after.state = .bootloader ∧
        relapsing.board.supply (Turn.events [relapsing.ready]) = some .on := by
  have htransitions : ∀ turn ∈ [relapsing.ready], ∃ target, turn.request = .transition target := by
    rw [List.forall_mem_singleton]
    exact ⟨.bootloader, rfl⟩
  have hlast : ∀ turn, relapsing.board.lastSwitched [relapsing.ready] = some turn →
      turn.result = some (.ok ()) := by
    intro turn hturn
    have hready : relapsing.board.lastSwitched [relapsing.ready] = some relapsing.ready := rfl
    rw [hready] at hturn
    cases hturn
    rfl
  have agrees := session_power_agrees relapsing.board rfl relapsing.session_ready htransitions hlast
  exact ⟨rfl, htransitions, hlast, rfl, agrees.right.left (.inr (.inl rfl))⟩

/--
A board is off although its state tells that the boot loader is up: the transition that switched it
off has failed after that.
-/
theorem relapsing_failed_off
    : Session relapsing.board [relapsing.ready, relapsing.failed] relapsing.failed.after
          relapsing.failed.ended ∧
        relapsing.board.options.useSend = false ∧
        (∀ turn ∈ [relapsing.ready, relapsing.failed],
          ∃ target, turn.request = .transition target) ∧
        relapsing.failed.result = some (.error (.capability "lab" "failure")) ∧
        relapsing.failed.after.state = .bootloader ∧
        relapsing.board.supply (Turn.events [relapsing.ready, relapsing.failed]) = some .off := by
  have session : Session relapsing.board ([relapsing.ready] ++ [relapsing.failed])
      relapsing.failed.after relapsing.failed.ended :=
    .request relapsing.session_ready _ _ (by decide)
  have htransitions : ∀ turn ∈ [relapsing.ready, relapsing.failed],
      ∃ target, turn.request = .transition target := by
    rw [List.forall_mem_cons, List.forall_mem_singleton]
    exact ⟨⟨.bootloader, rfl⟩, ⟨.started, rfl⟩⟩
  exact ⟨session, rfl, htransitions, rfl, rfl, rfl⟩

end Strategy

end BringUp
