import BringUp.Proofs.Boot.Installation
import BringUp.Proofs.Build.Health
import BringUp.Proofs.Image.Health

/-!
This module contains how transitions end in healthy labs, where no call fails. The main statement is
that nothing that has happened before keeps a transition from succeeding then: it depends only on
how the board is configured whether an image can be installed, and everything else succeeds.
-/

namespace BringUp

open Program Trace

def BootState.startsFor (state : BootState) : BootState → Bool
  | .unknown | .off | .bootstrapped => false
  | .started => state ≠ .started
  | .bootloader => state ∉ [.started, .bootloader]
  | .shell => state ∉ [.started, .bootloader, .shell]

def Trace.StartedIff (P : Promise) (starts : Prop) (t : List Event) : Prop :=
  (∀ e ∈ t, e.Keeps P) → (Begun .start t ↔ starts)

theorem Trace.StartedIff.of_quiet (hh : ∀ e ∈ h, e.call.Quiet) (hstarts : ¬starts)
    : StartedIff P starts h :=
  fun _ => iff_of_false (not_started_of_quiet hh) hstarts

theorem Trace.StartedIff.append (hh : StartedIff P starts h) (ht : ∀ e ∈ t, e.call.Quiet)
    : StartedIff P starts (h ++ t) := by
  intro hkept
  rw [← hh fun e he => hkept e (List.mem_append_left _ he), begun_append]
  simp [not_started_of_quiet ht]

namespace Strategy

/--
What is promised in a healthy lab: no call on a line fails, the boot loader prompt shows in time, a
shell command succeeds if it is the one that tells whether the system is up, and the tools work.
-/
def Healthy (s : Strategy) : Promise
  | .device (.shellRun command), r =>
    ∃ output, r = .ok output ∧ (command = s.options.readyCommand → output.success = true)
  | .device _, r => ∃ v, r = .ok v
  | .interrupt _, r => r = some (.ok ())
  | .host c, r => s.provider.Works s.options.board c r
  | .sleep _, _ | .clock, _ | .mark _, _ => True

def installs (s : Strategy) (status : BoardStatus) (target : BootState) : Bool :=
  if target = .bootstrapped then status.state ≠ .bootstrapped
  else status.state.startsFor target && s.options.doBootstrap && !status.bootstrapped

def installObstacle? (s : Strategy) (origin : BootState) : Option Error :=
  if s.options.useSend ∧ (s.reset = none ∨ s.recovery = false) then
    some (.noTransitionPath origin .bootstrapped
      "sending over USB needs reset and recovery capabilities")
  else if s.options.board.isEmpty then some .emptyBoard
  else if s.options.useSend then s.writer.sendObstacle?
  else s.writer.writeObstacle?

/--
What keeps a target from being reached if no call fails. Before a board is started it is switched
off.
-/
def obstacle? (s : Strategy) (status : BoardStatus) (target : BootState) : Option Error :=
  if target = .unknown then some (.invalidTransition .unknown)
  else if s.installs status target then
    s.installObstacle? (if target = .bootstrapped then status.state else .off)
  else none

def startObstacle? (s : Strategy) (status : BoardStatus) : Option Error :=
  if s.options.doBootstrap && !status.bootstrapped then s.installObstacle? .off else none

theorem healthy_responsive (s : Strategy) : s.Healthy.Responsive := by
  intro c r hr
  cases c with
  | shellRun command =>
    obtain ⟨output, hok, _⟩ := hr
    exact ⟨output, hok⟩
  | _ => exact hr

section

variable {s : Strategy} {status : BoardStatus}

theorem obstacle?_bootstrapped
    : s.obstacle? status .bootstrapped =
        if status.state = .bootstrapped then none else s.installObstacle? status.state := by
  simp [obstacle?, installs]

theorem obstacle?_started
    : s.obstacle? status .started =
        if status.state = .started then none else s.startObstacle? status := by
  cases hstate : status.state <;>
    simp [obstacle?, installs, startObstacle?, BootState.startsFor, hstate]

theorem obstacle?_bootloader
    : s.obstacle? status .bootloader =
        if status.state = .bootloader then none else s.obstacle? status .started := by
  cases hstate : status.state <;> simp [obstacle?, installs, BootState.startsFor, hstate]

theorem obstacle?_shell
    : s.obstacle? status .shell =
        if status.state = .shell then none else s.obstacle? status .bootloader := by
  cases hstate : status.state <;> simp [obstacle?, installs, BootState.startsFor, hstate]

theorem endsWith_reach (target : BootState) {step : Drive Unit}
    (hstep : status.state ≠ target → step.EndsWith P err? status)
    : (reach target step).EndsWith P (if status.state = target then none else err?) status := by
  rw [reach, EndsWith, yields_bind, yields_state, onValue_ok]
  split
  . rfl
  . next hne => exact (hstep hne).andThen fun _ _ => rfl

theorem ends_powerOff : powerOff.Ends s.Healthy (.ok ()) status := by
  apply yields_device_bind s.healthy_responsive
  intro _
  apply yields_device_bind s.healthy_responsive
  intro _
  exact yields_device_value s.healthy_responsive fun _ => ⟨rfl, rfl⟩

theorem yields_toOff
    : toOff.Yields s.Healthy (fun r after => r = .ok () ∧ after = { status with state := .off })
        status := by
  rw [toOff, reach, yields_bind, yields_state, onValue_ok]
  split
  . next hoff => exact ⟨rfl, by rw [← hoff]⟩
  . exact ends_powerOff.bind ⟨rfl, rfl⟩

theorem ends_locateBuild (hboard : s.options.board.isEmpty = false)
    : s.locateBuild.Ends s.Healthy (.ok (s.provider.buildPath s.options.board)) status := by
  rw [locateBuild, if_neg (by simp [hboard])]
  split
  . have built : (s.provider.build ⟨s.options.board, s.options.commit,
        s.options.patch.map .file, false⟩ : Drive BuildResult).Ends s.Healthy
        (.ok ⟨s.provider.buildPath s.options.board, s.provider.binmanIndir⟩) status :=
      ProviderOptions.ends_build (fun _ _ => id) rfl hboard (by simp)
    exact built.bind ⟨rfl, rfl⟩
  . exact ⟨rfl, rfl⟩

theorem endsWith_requestRecovery : requestRecovery.EndsWith s.Healthy none status := by
  apply yields_device_bind s.healthy_responsive
  intro _
  exact yields_device_value s.healthy_responsive fun _ => rfl

theorem endsWith_enterRecovery {reset : ResetLine}
    : (s.enterRecovery reset).EndsWith s.Healthy none status := by
  have released {status : BoardStatus}
      : (do
          device (.activate .console)
          device (.reset false .warm)
          sleep s.options.recoverySettle
          device (.recovery false) : Drive Unit).EndsWith s.Healthy none status := by
    apply yields_device_bind s.healthy_responsive
    intro _
    apply yields_device_bind s.healthy_responsive
    intro _
    rw [sleep, yields_bind, yields_ask]
    intro _ _
    exact yields_device_value s.healthy_responsive fun _ => rfl
  apply yields_device_bind s.healthy_responsive
  intro _
  apply yields_device_bind s.healthy_responsive
  intro _
  apply yields_device_bind s.healthy_responsive
  intro _
  dsimp only
  split
  . apply endsWith_requestRecovery.bind
    intro _ _
    apply yields_device_bind s.healthy_responsive
    intro _
    exact released
  . apply yields_device_bind s.healthy_responsive
    intro _
    exact endsWith_requestRecovery.bind fun _ _ => released

theorem endsWith_install
    : s.install.EndsWith s.Healthy (s.installObstacle? status.state) status := by
  unfold install installObstacle?
  have unnamed {α : Type} {f : String → Drive α} (hboard : s.options.board.isEmpty = true)
      : (s.locateBuild >>= f).EndsWith s.Healthy (some .emptyBoard) status := by
    rw [locateBuild, if_pos hboard]
    rfl
  cases husend : s.options.useSend with
  | false =>
    cases hboard : s.options.board.isEmpty with
    | true => simpa using unnamed hboard
    | false =>
      simp only [reduceCtorEq, false_and, if_false]
      exact (ends_locateBuild hboard).bind (Writer.endsWith_write s.healthy_responsive)
  | true =>
    simp only [true_and, if_true]
    unfold recoveryReset
    split
    . next reset hreset hrecovery =>
      cases hboard : s.options.board.isEmpty with
      | true => simpa [hreset, hrecovery] using unnamed hboard
      | false =>
        simp only [hreset, hrecovery, reduceCtorEq, or_self, if_false]
        apply (ends_locateBuild hboard).bind
        apply endsWith_enterRecovery.bind
        intro _ _
        exact Writer.endsWith_send s.healthy_responsive
    . next hunbound =>
      have missing : s.reset = none ∨ s.recovery = false := by
        by_contra hbound
        obtain ⟨hreset, hrecovery⟩ := not_or.mp hbound
        obtain ⟨reset, hreset⟩ := Option.ne_none_iff_exists'.mp hreset
        exact hunbound reset hreset (Bool.not_eq_false _ |>.mp hrecovery)
      rw [if_pos missing]
      rfl

theorem endsWith_bootstrap
    : s.bootstrap.EndsWith s.Healthy (s.installObstacle? status.state) status := by
  apply yields_asPart
  exact endsWith_install.andThen fun _ _ => rfl

theorem endsWith_powerUp : s.powerUp.EndsWith s.Healthy none status := by
  have released : (device (.reset false .cold) : Drive Unit).EndsWith s.Healthy none status :=
    yields_device_value s.healthy_responsive fun _ => rfl
  apply yields_device_bind s.healthy_responsive
  intro _
  split
  . apply yields_device_bind s.healthy_responsive
    intro _
    exact yields_device_value s.healthy_responsive fun _ => rfl
  . apply yields_device_bind s.healthy_responsive
    intro _
    apply yields_device_bind s.healthy_responsive
    intro _
    dsimp only
    split
    . apply yields_device_bind s.healthy_responsive
      intro _
      apply yields_device_bind s.healthy_responsive
      intro _
      exact released
    . exact released

theorem endsWith_prepare (hoff : status.state = .off)
    : (s.prepare s.toBootstrapped).EndsWith s.Healthy (s.startObstacle? status) status := by
  rw [prepare, EndsWith, yields_bind, yields_state, onValue_ok, startObstacle?, Bool.and_comm]
  split
  . have reached := endsWith_reach .bootstrapped fun _ => @endsWith_bootstrap s status
    rwa [hoff, if_neg (by decide)] at reached
  . exact Writer.endsWith_prepareBoot s.healthy_responsive

theorem endsWith_start (hoff : status.state = .off)
    : (s.start s.toBootstrapped).EndsWith s.Healthy (s.startObstacle? status) status := by
  apply yields_asPart
  apply (endsWith_prepare hoff).andThen
  intro _ _
  split
  . rfl
  . exact endsWith_powerUp

theorem endsWith_toStarted
    : s.toStarted.EndsWith s.Healthy (s.obstacle? status .started) status := by
  rw [obstacle?_started]
  apply endsWith_reach _
  intro _
  rw [EndsWith, yields_bind]
  apply yields_toOff.mono
  rintro _ _ ⟨rfl, rfl⟩
  exact endsWith_start rfl

theorem endsWith_interrupt
    : (s.interrupt startedAt).EndsWith s.Healthy none status := by
  simp only [interrupt, clock, EndsWith, yields_bind, yields_ask, onValue_ok]
  rintro _ _ _ rfl
  apply yields_device_bind s.healthy_responsive
  intro _
  apply yields_device_bind s.healthy_responsive
  intro _ _ _
  rfl

theorem endsWith_bootToShell : s.bootToShell.EndsWith s.Healthy none status := by
  apply yields_device_bind s.healthy_responsive
  intro _
  apply yields_device_bind s.healthy_responsive
  intro _
  apply yields_device_bind s.healthy_responsive
  intro _
  rw [yields_bind, yields_device]
  rintro _ ⟨output, rfl, hsuccess⟩
  rw [onValue_ok, if_pos (hsuccess rfl)]
  rfl

theorem endsWith_toBootloader
    : s.toBootloader.EndsWith s.Healthy (s.obstacle? status .bootloader) status := by
  rw [obstacle?_bootloader]
  apply endsWith_reach _
  intro _
  rw [EndsWith, clock, yields_bind]
  intro startedAt _
  apply endsWith_toStarted.andThen
  intro _ _
  apply endsWith_interrupt.andThen
  intro _ _
  rfl

theorem endsWith_toShell
    : s.toShell.EndsWith s.Healthy (s.obstacle? status .shell) status := by
  rw [obstacle?_shell]
  apply endsWith_reach _
  intro _
  exact endsWith_toBootloader.andThen fun _ _ => endsWith_bootToShell

theorem endsWith_drive
    : (s.drive target).EndsWith s.Healthy (s.obstacle? status target) status := by
  cases target with
  | unknown => rfl
  | off =>
    apply yields_toOff.mono
    rintro _ _ ⟨rfl, _⟩
    simp [obstacle?, installs, BootState.startsFor, errorOf]
  | bootstrapped =>
    rw [obstacle?_bootstrapped]
    exact endsWith_reach _ fun _ => endsWith_bootstrap
  | started => exact endsWith_toStarted
  | bootloader => exact endsWith_toBootloader
  | shell => exact endsWith_toShell

theorem endsWith_transition
    : (s.transition target).EndsWith s.Healthy (s.obstacle? status target) status := by
  rw [transition, EndsWith, yields_bind, yields_state, onValue_ok]
  apply endsWith_drive.attempt_bind
  rintro (e | _) _ hr
  . exact hr
  . exact hr

theorem toStarted_startedIff (hh : ∀ e ∈ h, e.call.Quiet)
    : s.toStarted.Ensures (fun _ _ _ h' => StartedIff s.Healthy (status.state ≠ .started) h')
        status now h := by
  apply ensures_reach_post fun _ _ _ => id
  . intro hstarted
    exact .of_quiet hh (not_not_intro hstarted)
  . intro hne
    rw [ensures_bind]
    apply (yields_toOff (s := s)).ensures.mono
    intro r after now h hr
    rcases r with _ | e | a
    . intro hkept
      obtain ⟨_, hnone, _⟩ := hr hkept
      cases hnone
    . intro hkept
      obtain ⟨_, heq, rfl, _⟩ := hr hkept
      cases heq
    . rw [Post.andThen_ok, start, ensures_asPart]
      apply ((keeps_begun _ : Program.Keeps (Begun .start) _) _ _ _ (by simp [Begun])).mono
      intro r _ _ h hbegun
      cases r with
      | none => exact fun _ => iff_of_true hbegun hne
      | some r => exact fun _ => iff_of_true (begun_append.mpr (.inl hbegun)) hne

theorem toBootloader_startedIff
    : s.toBootloader.Ensures
        (fun _ _ _ t => StartedIff s.Healthy (status.state ∉ [.started, .bootloader]) t)
        status now [] := by
  apply ensures_reach_post fun _ _ _ => id
  . intro hbootloader
    exact .of_quiet (by simp) (by simp [hbootloader])
  . intro hne
    have same : status.state ∉ [.started, .bootloader] ↔ status.state ≠ .started := by simp [hne]
    simp only [same]
    rw [ensures_bind, ensures_clock, Post.andThen_ok]
    apply (toStarted_startedIff (by simp)).then_keeps
    intro _
    apply keeps_bind
    . exact (s.interrupt_quiet now).keeps fun _ _ hh ht => hh.append ht
    . intro report
      exact keeps_modify

theorem toShell_startedIff
    : s.toShell.Ensures
        (fun _ _ _ t => StartedIff s.Healthy (status.state ∉ [.started, .bootloader, .shell]) t)
        status now [] := by
  apply ensures_reach_post fun _ _ _ => id
  . intro hshell
    exact .of_quiet (by simp) (by simp [hshell])
  . intro hne
    have same : status.state ∉ [.started, .bootloader, .shell] ↔
        status.state ∉ [.started, .bootloader] := by simp [hne]
    simp only [same]
    apply toBootloader_startedIff.then_keeps
    intro _
    exact s.bootToShell_quiet.keeps fun _ _ hh ht => hh.append ht

theorem drive_startedIff (htarget : target ≠ .bootstrapped)
    : (s.drive target).Ensures
        (fun _ _ _ t => StartedIff s.Healthy (status.state.startsFor target = true) t)
        status now [] := by
  cases target with
  | unknown => exact .of_quiet (by simp) (by simp [BootState.startsFor])
  | off =>
    apply (toOff_quiet (by simp)).mono
    intro r _ _ h hr
    apply StartedIff.of_quiet _ (by simp [BootState.startsFor])
    rcases r with _ | e | a
    . exact hr
    . exact hr
    . exact hr.right.right
  | bootstrapped => contradiction
  | started => simpa [drive, BootState.startsFor] using toStarted_startedIff (h := []) (by simp)
  | bootloader => simpa [drive, BootState.startsFor] using toBootloader_startedIff
  | shell => simpa [drive, BootState.startsFor] using toShell_startedIff

theorem toBootstrapped_begun
    : s.toBootstrapped.Ensures
        (fun _ _ _ t => Begun .bootstrap t ↔ status.state ≠ .bootstrapped) status now [] := by
  apply ensures_reach_post fun _ _ _ => id
  . intro hstate
    simp [Begun, hstate]
  . intro hne
    apply (s.bootstrap_attempted (by simp)).mono
    intro _ _ _ _ hr
    exact iff_of_true hr.right hne

theorem drive_begun
    : (s.drive target).Ensures
        (fun _ _ _ t =>
          (∀ e ∈ t, e.Keeps s.Healthy) → (Begun .bootstrap t ↔ s.installs status target = true))
        status now [] := by
  by_cases htarget : target = .bootstrapped
  . subst htarget
    apply toBootstrapped_begun.mono
    intro _ _ _ t hbegun _
    simpa [installs] using hbegun
  . apply ((drive_attempted htarget).and (drive_startedIff htarget)).mono
    rintro _ _ _ t ⟨attempted, started⟩ hkept
    simp [attempted.begun, started hkept, installs, htarget, and_assoc]

end

/--
No history gets a strategy stuck. Whatever is known about a board by now, a transition in a lab
where nothing fails comes to an end, and the only errors are that no board can be driven to
`unknown` and, if the image is installed on the way, what keeps it from being installed as
configured. The conditions for the latter are checked in the order of `installObstacle?`.
-/
theorem transition_recovers (s : Strategy) (target : BootState) (status : BoardStatus)
    (lab : Lab ω) (w : ω) (now : Nat)
    (hkept : ∀ e ∈ (s.turn (.transition target) lab w status now).trace, e.Keeps s.Healthy)
    : (s.turn (.transition target) lab w status now).result.map errorOf =
          some (s.obstacle? status target) ∧
        (Begun .bootstrap (s.turn (.transition target) lab w status now).trace ↔
          s.installs status target = true) := by
  have ended : (s.perform (.transition target)).Ensures
      (fun r _ _ t =>
        (∀ e ∈ t, e.Keeps s.Healthy) →
          ∃ v, r = some v ∧ errorOf v = s.obstacle? status target)
      status now [] :=
    endsWith_transition.ensures
  have begun : (s.perform (.transition target)).Ensures
      (fun _ _ _ t =>
        (∀ e ∈ t, e.Keeps s.Healthy) → (Begun .bootstrap t ↔ s.installs status target = true))
      status now [] := by
    apply ensures_transition.mpr
    apply drive_begun.mono
    intro r _ _ t hbegun
    rcases r with _ | e | a <;> exact hbegun
  constructor
  . obtain ⟨r, hresult, herror⟩ := ensures_turn ended lab w hkept
    simp [hresult, herror]
  . exact ensures_turn begun lab w hkept

theorem prompt_healthy (s : Strategy) (c : Call)
    : ((Lab.prompt fun _ => false).answer () now c).delay ≠ none ∧
        s.Healthy c ((Lab.prompt fun _ => false).answer () now c).reply := by
  cases c with
  | device c =>
    refine ⟨by simp [Lab.answer, Lab.prompt], ?_⟩
    cases c with
    | shellRun command => exact ⟨_, rfl, fun _ => rfl⟩
    | _ => exact ⟨_, rfl⟩
  | host c =>
    refine ⟨by simp [Lab.answer, Lab.prompt], ?_⟩
    cases c with
    | run command =>
      refine ⟨_, rfl, rfl, ?_⟩
      simp [ToolOutput.markedLine?, ToolOutput.combined, Text.lines, Text.lines.go]
    | createDirs path => rfl
    | isPopulated path => exact fun _ => rfl
    | isDirectory path => exact fun _ => rfl
    | _ => trivial
  | interrupt limit => simp [Lab.answer, Lab.prompt, Healthy]
  | sleep ms => simp [Lab.answer, Healthy]
  | clock => simp [Lab.answer, Healthy]
  | mark m => simp [Lab.answer, Healthy]

namespace ailing

def board : Strategy :=
  wired
    { StrategyOptions.forBoard "bananapi" with
        doBootstrap := true, doBuild := true, commit := some "v2024.07" }
    .sunxi

def failed : Turn :=
  board.turn (.transition .started) (.prompt (· = .deactivate .storage)) () .fresh 0

def healed : Turn :=
  board.turn (.transition .shell) (.prompt fun _ => false) () failed.after failed.ended

end ailing

theorem ailing_healed_recovers
    : (∀ e ∈ ailing.healed.trace, e.Keeps ailing.board.Healthy) ∧
        ailing.failed.result ≠ some (.ok ()) ∧ ailing.healed.result.map errorOf = some none ∧
        Begun .bootstrap ailing.healed.trace := by
  have kept : ∀ e ∈ ailing.healed.trace, e.Keeps ailing.board.Healthy :=
    run_keeps (fun _ _ => ailing.board.prompt_healthy) _ _ _ _
  obtain ⟨recovered, begun⟩ := transition_recovers ailing.board .shell _ _ _ _ kept
  exact ⟨kept, by decide, recovered, begun.mpr rfl⟩

end Strategy

end BringUp
