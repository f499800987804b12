import BringUp.Proofs.Boot.Installation
import BringUp.Proofs.Build.FailStop
import BringUp.Proofs.Image.FailStop

/-!
This module contains which failures a transition stops at. The main statement is that after its
first failure a transition only cleans up, and that the error it ends with is the one of that
failure.
-/

namespace BringUp

open Program Trace Faults

def DeviceCall.plain : DeviceCall → Bool
  | .activate d | .deactivate d => d ∉ [.storage, .sdmux, .emulator, .usbLoader]
  | .recovery enable => enable
  | .power _ | .reset _ _ | .consoleOutput | .bootloaderOutput | .bootloaderVersion | .boot _
  | .awaitBoot => true
  | .shellRun _ | .mux _ | .writeImage _ _ | .writeFiles _ _ | .emulate _ | .load _ _
  | .execute => false

def InterruptFails : Option (Except Error Unit) → Error → Prop
  | some (.ok ()), _ => False
  | some (.error e), err =>
    if e.isInterruptTimeout then ∃ elapsed output, err = .interruptTimeout elapsed output
    else err = e
  | none, err => ∃ elapsed output, err = .interruptTimeout elapsed output

def Call.Spares : Call → Prop
  | .device c => c.device ∉ [.storage, .emulator, .usbLoader]
  | .mark m => m.part ∉ [.write, .send]
  | _ => True

theorem Call.Idle.spares (hc : Call.Idle c) : Call.Spares c := by
  unfold Spares
  split
  . exact hc.left
  . exact hc.left
  . trivial

theorem Footprint.Covers.spares {f : Footprint} (hc : f.Covers c)
    (hdevices : .storage ∉ f.devices ∧ .emulator ∉ f.devices ∧ .usbLoader ∉ f.devices)
    (hparts : f.parts = [])
    : c.Spares := by
  unfold Call.Spares
  split
  . intro hmem
    simp_all [Covers]
    rcases hmem with hmem | hmem | hmem <;> simp_all
  . simp_all [Covers]
  . trivial

namespace Trace

theorem written_eq_zero (ht : ∀ e ∈ t, e.call.Spares) : written t = 0 := by
  apply completed_eq_zero rfl
  intro e he c hcall
  have spares := ht e he
  rw [hcall] at spares
  unfold DeviceCall.completesPart
  split <;> simp_all [Call.Spares, DeviceCall.device]

theorem loaded_eq_zero (ht : ∀ e ∈ t, e.call.Spares) : loaded t = 0 := by
  apply completed_eq_zero rfl
  intro e he c hcall
  have spares := ht e he
  rw [hcall] at spares
  unfold DeviceCall.loadsPart
  split <;> simp_all [Call.Spares, DeviceCall.device]

end Trace

namespace Strategy

def buildRequest (s : Strategy) : BuildRequest :=
  ⟨s.options.board, s.options.commit, s.options.patch.map .file, false⟩

def imageDir (s : Strategy) : String := s.provider.buildPath s.options.board

def writePlan (s : Strategy) : List PlannedWrite :=
  match s.writer.planWrite s.imageDir with
  | .ok plan => plan
  | .error _ => []

def sendPlan (s : Strategy) : List PlannedSend :=
  match s.writer.planSend s.imageDir with
  | .ok plan => plan
  | .error _ => []

def locatedError? (s : Strategy) : Option Error :=
  if s.options.useSend then none else errorOf (s.writer.planWrite s.imageDir)

def locateError? (s : Strategy) : Option Error :=
  if s.options.board.isEmpty then some .emptyBoard
  else if s.options.doBuild then none
  else s.locatedError?

/--
The state of the board when an attempt to install the image begins. It is off by then if it is being
started, and else it is in the state that the transition began with.
-/
def attemptOrigin (origin : BootState) (before : List Event) : BootState :=
  if before.any fun e => e.call = .mark (.begins .start) then .off else origin

def bootstrapError? (s : Strategy) (origin : BootState) (before : List Event) : Option Error :=
  if s.options.useSend ∧ (s.reset = none ∨ s.recovery = false) then
    some (.noTransitionPath (attemptOrigin origin before) .bootstrapped
      "sending over USB needs reset and recovery capabilities")
  else s.locateError?

def sendError? (s : Strategy) : Option Error :=
  match s.writer.planSend s.imageDir with
  | .ok _ =>
    if s.writer.usbLoader then none
    else some (.capability "usb-loader" s!"method {s.writer.method.name} sends over USB")
  | .error e => some e

def deviceError? (s : Strategy) (before : List Event)
    : (c : DeviceCall) → Except Error c.Value → Option Error
  | .recovery false, .ok _ => s.sendError?
  | .shellRun command, .ok output =>
    if output.success then none
    else
      some (.shellCommandFailed command output.exitStatus ("\n".intercalate output.stdout))
  | c, r =>
    if c.device = .usbLoader then s.writer.sendError? s.sendPlan before c r
    else s.writer.writeError? s.writePlan before c r

/--
Whether an event of a transition is a failure: a call that fails, or one after which a check fails.
The transition began with the state `origin`.
-/
def Fails (s : Strategy) (origin : BootState) (before : List Event) : Event → Error → Prop
  | ⟨.device c, _, _, some r⟩, err => s.deviceError? before c r = some err
  | ⟨.interrupt _, _, _, some r⟩, err => InterruptFails r err
  | ⟨.host c, _, _, some r⟩, err =>
    s.provider.Fails s.buildRequest before c r err ∨
      s.provider.Completes c r ∧ s.locatedError? = some err
  | ⟨.mark (.begins .bootstrap), _, _, some ()⟩, err => s.bootstrapError? origin before = some err
  | ⟨.mark (.begins .write), _, _, some ()⟩, err =>
    s.writer.sdmux = false ∧ s.writer.openError? s.writePlan = some err
  | _, _ => False

def faults (s : Strategy) (origin : BootState) : Faults where
  Fails := s.Fails origin
  risky hf := by
    revert hf
    unfold Fails
    split
    . exact fun _ => trivial
    . exact fun _ => trivial
    . next c _ _ r =>
      cases c <;> simp [Call.Risky, ProviderOptions.Fails, ProviderOptions.Completes]
    . exact fun _ => trivial
    . exact fun _ => trivial
    . exact False.elim
  replied hf := by
    revert hf
    unfold Fails
    split
    all_goals simp

section

variable {s : Strategy} {origin : BootState}

theorem heeded_build : s.provider.Heeded s.buildRequest s.locatedError? (s.faults origin) where
  fails := Iff.rfl

theorem deviceError?_write {r : Except Error c.Value} (hc : c.device ∈ Writer.writeLines)
    : s.deviceError? before c r = s.writer.writeError? s.writePlan before c r := by
  have hsend : c.device ≠ .usbLoader := by
    intro heq
    simp [heq, Writer.writeLines] at hc
  unfold deviceError?
  split
  . simp [DeviceCall.device, Writer.writeLines] at hc
  . simp [DeviceCall.device, Writer.writeLines] at hc
  . rw [if_neg hsend]

theorem deviceError?_send {r : Except Error c.Value} (hc : c.device = .usbLoader)
    : s.deviceError? before c r = s.writer.sendError? s.sendPlan before c r := by
  unfold deviceError?
  split
  . cases hc
  . cases hc
  . rw [if_pos hc]

theorem heeds_write : s.writer.HeedsWrite s.writePlan (s.faults origin) where
  fails hc := by
    rw [← s.deviceError?_write hc]
    rfl
  fails_begins := Iff.rfl

theorem heeds_send : s.writer.HeedsSend s.sendPlan (s.faults origin) where
  fails hc := by
    rw [← s.deviceError?_send hc]
    rfl

theorem stops_plain (hc : c.plain = true)
    : (s.faults origin).Stops (device c : Program σ Error (no_index c.Value)) := by
  apply stops_device
  intro before start stop r err
  have same : s.deviceError? before c r = errorOf r := by
    cases c with
    | activate d =>
      cases d <;> first | contradiction | cases r <;> rfl
    | recovery enable =>
      cases enable <;> first | contradiction | cases r <;> rfl
    | deactivate d =>
      cases d <;> first | contradiction | cases r <;> rfl
    | _ => first | contradiction | cases r <;> rfl
  change s.deviceError? before c r = some err ↔ r = .error err
  rw [same]
  cases r <;> simp [errorOf]

theorem powerOff_stops : (s.faults origin).Stops powerOff := by
  apply stops_bind (stops_plain rfl)
  intro _
  apply stops_bind (stops_plain rfl)
  intro _
  exact stops_plain rfl

theorem prepareBoot_stops : (s.faults origin).Stops (s.writer.prepareBoot : Drive Unit) := by
  unfold Writer.prepareBoot
  split
  . exact heeds_write.stops_device (by decide) rfl fun _ _ => rfl
  . exact stops_pure

theorem powerUp_stops : (s.faults origin).Stops s.powerUp := by
  unfold powerUp
  apply stops_bind (stops_plain rfl)
  intro _
  split
  . exact stops_bind (stops_plain rfl) fun _ => stops_plain rfl
  . apply stops_bind (stops_plain rfl)
    intro _
    apply stops_bind (stops_plain rfl)
    intro _
    split
    . apply stops_bind (stops_plain rfl)
      intro _
      exact stops_bind (stops_plain rfl) fun _ => stops_plain rfl
    . exact stops_plain rfl

theorem readReport_stops : (s.faults origin).Stops (readReport startedAt) := by
  apply stops_bind (stops_plain rfl)
  intro _
  apply stops_bind (stops_plain rfl)
  intro version
  exact stops_bind stops_clock fun _ => stops_pure

theorem timedOut_stops (hh : (s.faults origin).Clean h) (he : e.TimedOut)
    (hfails : ∀ elapsed output, s.Fails origin h e (.interruptTimeout elapsed output))
    : (timedOut began : Drive α).Ensures ((s.faults origin).stopping fun _ => none)
        status now (h ++ [e]) := by
  have drained (elapsed : Duration) (output : String) {u : List Event}
      (hu : ∀ x ∈ u, Repairs h e x.call)
      : (s.faults origin).Stopped (.interruptTimeout elapsed output) (h ++ e :: u) :=
    ⟨h, e, u, rfl, hh, hfails elapsed output, hu⟩
  have read {output : String} {x : Event} {now : Nat} (hx : x.call = .device .consoleOutput)
      : (do
          let now ← clock
          raise (.interruptTimeout (.ofMillis (now - began)) output) : Drive α).Ensures
          ((s.faults origin).stopping fun _ => none) status now (h ++ [e] ++ [x]) := by
    rw [ensures_bind, ensures_clock]
    have stopped := drained (.ofMillis (now - began)) output
      (u := [x, ⟨.clock, now, now, some now⟩]) (by simpa [hx, Repairs] using he)
    simpa using stopped
  rw [timedOut, ensures_bind, drainConsole, ensures_bind, ensures_attempt, ensures_device]
  constructor
  . have stopped := drained (.ofMillis 0) "" (u := [⟨.device .consoleOutput, now, now, none⟩])
      (by simpa [Repairs] using he)
    exact .inr ⟨_, by simpa using stopped⟩
  . intro stop r _
    cases r with
    | error x => exact read rfl
    | ok bytes => exact read rfl

theorem interrupt_stops (startedAt : Nat) : (s.faults origin).Stops (s.interrupt startedAt) := by
  unfold interrupt
  apply stops_bind stops_clock
  intro began status now h hh
  rw [ensures_bind, ensures_interrupt]
  intro stop r _
  rw [Post.andThen_ok]
  rcases r with _ | e | ⟨⟨⟩⟩
  . apply timedOut_stops hh (e := ⟨.interrupt _, now, stop, some none⟩) trivial
    intro elapsed output
    exact ⟨elapsed, output, rfl⟩
  . dsimp only
    by_cases hlate : e.isInterruptTimeout = true
    . rw [if_pos hlate]
      apply timedOut_stops hh (e := ⟨.interrupt _, now, stop, some (some (.error e))⟩) hlate
      intro elapsed output
      simp [Fails, InterruptFails, hlate]
    . rw [if_neg hlate]
      apply hh.fails
      simp [faults, Fails, InterruptFails, hlate]
  . apply readReport_stops
    exact hh.concat fun _ => id

theorem bootToShell_stops : (s.faults origin).Stops s.bootToShell := by
  apply stops_bind (stops_plain rfl)
  intro _
  apply stops_bind (stops_plain rfl)
  intro _
  apply stops_bind (stops_plain rfl)
  intro _ status now h hh
  rw [ensures_bind, ensures_device]
  refine ⟨.inl hh.unreplied, ?_⟩
  intro stop r _
  cases r with
  | error e => exact hh.fails rfl
  | ok output =>
    rw [Post.andThen_ok]
    split
    . next hsuccess =>
      apply hh.concat
      simp [faults, Fails, deviceError?, hsuccess]
    . next hfailure =>
      apply hh.fails
      simp [faults, Fails, deviceError?, hfailure]

abbrev spared (value : α → BoardStatus → Prop) : Post BoardStatus Error α :=
  .either (fun a after _ h => value a after ∧ ∀ e ∈ h, e.call.Spares) fun _ _ _ => True

theorem ensures_spared {p : Drive α} {f : Footprint} (hp : p.Within f.Covers)
    (hdevices : .storage ∉ f.devices ∧ .emulator ∉ f.devices ∧ .usbLoader ∉ f.devices)
    (hparts : f.parts = []) (hh : ∀ e ∈ h, e.call.Spares)
    : p.Ensures (spared fun _ after => after = status) status now h := by
  apply hp.ensures
  intro r now t ht
  rcases r with _ | e | a
  . trivial
  . trivial
  . refine ⟨rfl, List.forall_mem_append.mpr ⟨hh, ?_⟩⟩
    intro e he
    exact (ht e he).spares hdevices hparts

theorem locateBuild_dir
    : s.locateBuild.Ensures (.either (fun dir _ _ _ => dir = s.imageDir) fun _ _ _ => True)
        status now h := by
  unfold locateBuild
  split
  . trivial
  . split
    . rw [ensures_bind]
      apply ProviderOptions.build_path.mono
      intro r _ _ _ hr
      rcases r with _ | e | result
      . trivial
      . trivial
      . exact hr
    . rfl

theorem locateBuild_stops (hh : (s.faults origin).Checked s.locateError? h)
    (hfirst : ∀ e ∈ h, ∀ command, e.call ≠ .host (.run command))
    : s.locateBuild.Ensures ((s.faults origin).stopping fun _ => s.locatedError?) status now h := by
  unfold locateBuild
  unfold locateError? at hh
  split
  . next hempty =>
    rw [if_pos hempty] at hh
    exact hh
  . next hboard =>
    rw [if_neg hboard] at hh
    split
    . next hbuild =>
      rw [if_pos hbuild] at hh
      have built : (s.provider.build s.buildRequest : Drive BuildResult).Ensures
          ((s.faults origin).stopping fun _ => s.locatedError?) status now h := by
        apply heeded_build.build_stops hh (Bool.not_eq_true _ |>.mp hboard)
        intro e he
        exact hfirst e he _
      apply stopping_bind built
      intro result status now h hh
      exact hh
    . next hbuild =>
      rw [if_neg hbuild] at hh
      exact hh

theorem enterRecovery_stops {line : ResetLine} (hh : (s.faults origin).Clean h)
    : (s.enterRecovery line).Ensures ((s.faults origin).stopping fun _ => s.sendError?)
        status now h := by
  have plain {c : DeviceCall} {f : c.Value → Drive Unit} {status : BoardStatus} {now : Nat}
      {h : List Event} (hc : c.plain = true) (hh : (s.faults origin).Clean h)
      (hf : ∀ a status now h, (s.faults origin).Clean h →
        (f a).Ensures ((s.faults origin).stopping fun _ => s.sendError?) status now h)
      : (Bind.bind (α := no_index c.Value) (device c) f).Ensures
          ((s.faults origin).stopping fun _ => s.sendError?) status now h :=
    stopping_bind (stops_plain hc status now h hh) hf
  have settle {status : BoardStatus} {now : Nat} {h : List Event} (hh : (s.faults origin).Clean h)
      : (do
          device (.activate .console)
          device (.reset false .warm)
          sleep s.options.recoverySettle
          device (.recovery false) : Drive Unit).Ensures
          ((s.faults origin).stopping fun _ => s.sendError?) status now h := by
    apply plain rfl hh
    intro _ status now h hh
    apply plain rfl hh
    intro _ status now h hh
    apply stopping_bind (stops_sleep status now h hh)
    intro _ status now h hh
    have hh : (s.faults origin).Clean h := hh
    rw [ensures_device]
    refine ⟨.inl hh.unreplied, ?_⟩
    intro stop r _
    cases r with
    | error e => exact hh.fails rfl
    | ok v => exact hh.checked fun _ => Iff.rfl
  unfold enterRecovery requestRecovery
  -- Both orders come to the same from where the console is activated.
  apply plain rfl hh
  intro _ status now h hh
  apply plain rfl hh
  intro _ status now h hh
  apply plain rfl hh
  intro _ status now h hh
  split
  all_goals
    simp only [bind_assoc]
    apply plain rfl hh
    intro _ status now h hh
    apply plain rfl hh
    intro _ status now h hh
    apply plain rfl hh
    intro _ status now h hh
    exact settle hh

theorem send_stops (hh : (s.faults origin).Checked s.sendError? h) (hs : ∀ e ∈ h, e.call.Spares)
    : (s.writer.send s.imageDir : Drive Unit).Ensures ((s.faults origin).stopping fun _ => none)
        status now h := by
  unfold Writer.send
  unfold sendError? at hh
  rw [ensures_bind, ensures_ofExcept]
  cases hplan : s.writer.planSend s.imageDir with
  | error e =>
    rw [hplan] at hh
    exact hh
  | ok plan =>
    have same : s.sendPlan = plan := by
      simp [sendPlan, hplan]
    rw [hplan] at hh
    rw [Post.andThen_ok]
    dsimp only at hh
    split
    . next hbound =>
      rw [if_pos hbound] at hh
      apply stopping_asPart
      rw [← same]
      apply heeds_send.send_stops
      . rw [loaded_append, loaded_eq_zero hs]
        rfl
      . exact Clean.harmless hh id
    . next hunbound =>
      rw [if_neg hunbound] at hh
      exact hh

theorem write_stops (hh : (s.faults origin).Checked (errorOf (s.writer.planWrite s.imageDir)) h)
    (hs : ∀ e ∈ h, e.call.Spares)
    : (s.writer.write s.imageDir : Drive Unit).Ensures ((s.faults origin).stopping fun _ => none)
        status now h := by
  unfold Writer.write
  rw [ensures_bind, ensures_ofExcept]
  cases hplan : s.writer.planWrite s.imageDir with
  | error e =>
    rw [hplan] at hh
    exact hh
  | ok plan =>
    have same : s.writePlan = plan := by
      simp [writePlan, hplan]
    rw [hplan] at hh
    rw [Post.andThen_ok, ← same]
    apply heeds_write.write_stops _ (written_eq_zero hs) hh
    intro e he success hends
    have spares := hs e he
    simp [hends, Call.Spares, Mark.part] at spares

theorem sendLocated_stops {line : ResetLine} (hsend : s.options.useSend = true)
    (hh : (s.faults origin).Checked s.locateError? h) (hs : ∀ e ∈ h, e.call.Spares)
    (hfirst : ∀ e ∈ h, ∀ command, e.call ≠ .host (.run command))
    : (do
        let dir ← s.locateBuild
        s.enterRecovery line
        s.writer.send dir : Drive Unit).Ensures ((s.faults origin).stopping fun _ => none)
        status now h := by
  have unchecked : s.locatedError? = none := by
    rw [locatedError?, if_pos hsend]
  have located : s.locateBuild.Ensures (spared fun _ after => after = status) status now h :=
    ensures_spared s.locateBuild_within (by simp [Footprint.outside]) rfl hs
  apply stopping_andThen (locateBuild_stops hh hfirst) (locateBuild_dir.and_either located)
  rintro _ status now h hh ⟨rfl, _, hs⟩
  rw [unchecked] at hh
  have ready : (s.enterRecovery line).Ensures (spared fun _ after => after = status)
      status now h :=
    ensures_spared (s.enterRecovery_within line) (by simp) rfl hs
  apply stopping_andThen (enterRecovery_stops hh) ready
  rintro _ status now h hh ⟨_, hs⟩
  exact send_stops hh hs

theorem writeLocated_stops (hsend : s.options.useSend ≠ true)
    (hh : (s.faults origin).Checked s.locateError? h) (hs : ∀ e ∈ h, e.call.Spares)
    (hfirst : ∀ e ∈ h, ∀ command, e.call ≠ .host (.run command))
    : (do
        let dir ← s.locateBuild
        s.writer.write dir : Drive Unit).Ensures ((s.faults origin).stopping fun _ => none)
        status now h := by
  have checked : s.locatedError? = errorOf (s.writer.planWrite s.imageDir) := by
    rw [locatedError?, if_neg hsend]
  have located : s.locateBuild.Ensures (spared fun _ after => after = status) status now h :=
    ensures_spared s.locateBuild_within (by simp [Footprint.outside]) rfl hs
  apply stopping_andThen (locateBuild_stops hh hfirst) (locateBuild_dir.and_either located)
  rintro _ status now h hh ⟨rfl, _, hs⟩
  rw [checked] at hh
  exact write_stops hh hs

theorem install_stops (hh : (s.faults origin).Checked (s.bootstrapError? origin before) h)
    (hstate : status.state = attemptOrigin origin before)
    (hs : ∀ e ∈ h, e.call.Spares) (hfirst : ∀ e ∈ h, ∀ command, e.call ≠ .host (.run command))
    : s.install.Ensures ((s.faults origin).stopping fun _ => none) status now h := by
  unfold install
  unfold bootstrapError? at hh
  split
  . next hsend =>
    rw [ensures_bind]
    unfold recoveryReset
    -- Whether both are bound was decided by the mark before.
    split
    . next reset hreset hrecovery =>
      rw [if_neg (by simp [hreset, hrecovery])] at hh
      exact sendLocated_stops hsend hh hs hfirst
    . next hunbound =>
      have unbound : s.options.useSend = true ∧ (s.reset = none ∨ s.recovery = false) := by
        refine ⟨hsend, ?_⟩
        by_contra hbound
        obtain ⟨hreset, hrecovery⟩ := not_or.mp hbound
        obtain ⟨line, hline⟩ := Option.ne_none_iff_exists'.mp hreset
        exact hunbound line hline (Bool.not_eq_false _ |>.mp hrecovery)
      rw [if_pos unbound, ← hstate] at hh
      exact hh
  . next hsend =>
    rw [if_neg (by simp [hsend])] at hh
    exact writeLocated_stops hsend hh hs hfirst

theorem bootstrap_stops (hh : (s.faults origin).Clean h)
    (hstate : status.state = attemptOrigin origin h) (hidle : ∀ e ∈ h, e.call.Idle)
    : s.bootstrap.Ensures ((s.faults origin).stopping fun _ => none) status now h := by
  apply stopping_asPart
  have checked : (s.faults origin).Checked (s.bootstrapError? origin h)
      (h ++ [⟨.mark (.begins .bootstrap), now, now, some ()⟩]) :=
    hh.checked fun _ => Iff.rfl
  have spares : ∀ e ∈ h ++ [⟨.mark (.begins .bootstrap), now, now, some ()⟩], e.call.Spares := by
    rw [List.forall_mem_append]
    constructor
    . exact fun e he => (hidle e he).spares
    . simp [Call.Spares, Mark.part]
  have unbuilt : ∀ e ∈ h ++ [⟨.mark (.begins .bootstrap), now, now, some ()⟩],
      ∀ command, e.call ≠ .host (.run command) := by
    rw [List.forall_mem_append]
    constructor
    . intro e he command hcall
      have idle := (hidle e he).left
      simp [hcall, Call.Installs] at idle
    . simp
  apply stopping_bind (install_stops checked hstate spares unbuilt)
  intro _ status now h hh
  exact hh

theorem toOff_stops : (s.faults origin).Stops toOff := by
  intro status now h hh
  apply ensures_reach_post (fun _ _ _ => id) fun _ => hh
  intro _
  exact powerOff_stops status now h hh

theorem start_stops (hh : (s.faults origin).Clean h) (hstate : status.state = .off)
    (hidle : ∀ e ∈ h, e.call.Idle)
    : (s.start s.toBootstrapped).Ensures ((s.faults origin).stopping fun _ => none)
        status now h := by
  have began : (s.faults origin).Clean (h ++ [⟨.mark (.begins .start), now, now, some ()⟩]) :=
    hh.harmless id
  have idle : ∀ e ∈ h ++ [⟨.mark (.begins .start), now, now, some ()⟩], e.call.Idle := by
    rw [List.forall_mem_append]
    refine ⟨hidle, ?_⟩
    simpa using idle_mark_start rfl
  have prepared : (s.prepare s.toBootstrapped).Ensures ((s.faults origin).stopping fun _ => none)
      status now (h ++ [⟨.mark (.begins .start), now, now, some ()⟩]) := by
    rw [prepare, ensures_bind, ensures_state, Post.andThen_ok]
    split
    . apply ensures_reach_post (fun _ _ _ => id) fun _ => began
      intro _
      exact bootstrap_stops began (by simp [attemptOrigin, hstate]) idle
    . exact prepareBoot_stops status now _ began
  apply stopping_asPart
  apply stopping_bind prepared
  intro _ status now h hh
  split
  . exact hh
  . exact powerUp_stops status now h hh

theorem toStarted_stops (hh : (s.faults origin).Clean h) (hquiet : ∀ e ∈ h, e.call.Quiet)
    : s.toStarted.Ensures ((s.faults origin).stopping fun _ => none) status now h := by
  apply ensures_reach_post (fun _ _ _ => id) fun _ => hh
  intro _
  apply stopping_andThen (toOff_stops status now h hh) (toOff_quiet hquiet)
  rintro _ status now h hh ⟨hoff, _, hquiet⟩
  exact start_stops hh hoff fun e he => (hquiet e he).left

theorem toBootloader_stops
    : s.toBootloader.Ensures ((s.faults origin).stopping fun _ => none) status now [] := by
  apply ensures_reach_post (fun _ _ _ => id) fun _ => clean_nil
  intro _
  rw [ensures_bind, ensures_clock, Post.andThen_ok]
  apply stopping_bind (toStarted_stops (clean_nil.harmless id) (by simp))
  intro _ after later h hh
  apply stopping_bind (interrupt_stops now after later h hh)
  intro _ _ _ _ hh
  exact hh

theorem drive_stops (htarget : target ≠ .unknown)
    : (s.drive target).Ensures ((s.faults status.state).stopping fun _ => none) status now [] := by
  cases target with
  | unknown => contradiction
  | off => exact toOff_stops status now [] clean_nil
  | bootstrapped =>
    apply ensures_reach_post (fun _ _ _ => id) fun _ => clean_nil
    intro _
    exact bootstrap_stops clean_nil rfl (by simp)
  | started => exact toStarted_stops clean_nil (by simp)
  | bootloader => exact toBootloader_stops
  | shell =>
    apply ensures_reach_post (fun _ _ _ => id) fun _ => clean_nil
    intro _
    apply stopping_bind toBootloader_stops
    intro _ after later h hh
    exact bootToShell_stops after later h hh

theorem transition_stopping (htarget : target ≠ .unknown)
    : (s.perform (.transition target)).Ensures ((s.faults status.state).stopping fun _ => none)
        status now [] := by
  apply ensures_transition.mpr
  apply (drive_stops htarget).mono
  intro r _ _ _ stopped
  rcases r with _ | e | a
  . exact stopped
  . exact stopped
  . exact stopped

end

theorem mem_of_unreplied {e last : Event} (hsplit : earlier ++ e :: later = front ++ [last])
    (he : e.reply ≠ none) (hlast : last.reply = none)
    : last ∈ later := by
  cases later using List.reverseRecOn with
  | nil =>
    have heq := List.singleton_inj.mp (List.append_inj' hsplit rfl).right
    rw [← heq] at hlast
    exact absurd hlast he
  | append_singleton later x =>
    rw [← List.cons_append, ← List.append_assoc] at hsplit
    have heq := List.singleton_inj.mp (List.append_inj' hsplit rfl).right
    simp [heq]

theorem turn_unknown (s : Strategy) (lab : Lab ω) (w : ω) (before : BoardStatus) (now : Nat)
    : s.turn (.transition .unknown) lab w before now =
        ⟨.transition .unknown, before, some (.error (.invalidTransition .unknown)), before, now,
          []⟩ :=
  rfl

/--
A transition stops at its first failure. After that event, be it a call that fails or one after
which a check fails, nothing is called but what cleans up, and the transition ends with the error of
that failure, unless a call to clean up is never over. If there is no failure the transition ends
with a value, unless a call is never over or the state is none to be driven to.
-/
theorem transition_stops (s : Strategy) (target : BootState) (lab : Lab ω) (w : ω)
    (before : BoardStatus) (now : Nat)
    : let turn := s.turn (.transition target) lab w before now
      (∀ earlier e later, turn.trace = earlier ++ e :: later →
        (s.faults before.state).Clean earlier → (∃ err, s.Fails before.state earlier e err) →
        (∀ x ∈ later, Repairs earlier e x.call) ∧
          ((∃ err, turn.result = some (.error err) ∧ s.Fails before.state earlier e err) ∨
            turn.result = none ∧ ∃ x ∈ later, x.reply = none)) ∧
      ((s.faults before.state).Clean turn.trace →
        turn.result =
            some (if target = .unknown then .error (.invalidTransition .unknown) else .ok ()) ∨
          turn.result = none ∧ ∃ x ∈ turn.trace, x.reply = none) := by
  by_cases htarget : target = .unknown
  . subst htarget
    rw [turn_unknown]
    refine ⟨?_, fun _ => .inl rfl⟩
    intro earlier e later hsplit
    simp at hsplit
  . intro turn
    have stopped : (s.faults before.state).stopping (fun _ => none) turn.result turn.after
        turn.ended turn.trace :=
      ensures_turn (transition_stopping htarget) lab w
    have hung : turn.result = none →
        ∃ front last, turn.trace = front ++ [last] ∧ last.reply = none :=
      ensures_turn (ensures_hung (s.perform (.transition target))) lab w
    rw [if_neg htarget]
    rcases hresult : turn.result with _ | err | ⟨⟨⟩⟩
    -- Given up after a failure, the call that is not over is one that cleans up.
    . rw [hresult] at stopped
      obtain ⟨front, last, htrace, hlast⟩ := hung hresult
      constructor
      . intro earlier e later hsplit hclean ⟨err', hfails⟩
        obtain ⟨err, stopped⟩ := stopped.resolve_left fun clean =>
          clean earlier e later hsplit err' hfails
        rw [hsplit] at stopped
        refine ⟨(stopped.first hclean hfails).right, .inr ⟨rfl, last, ?_, hlast⟩⟩
        exact mem_of_unreplied (hsplit.symm.trans htrace) ((s.faults _).replied hfails) hlast
      . intro _
        exact .inr ⟨rfl, last, by simp [htrace], hlast⟩
    . rw [hresult] at stopped
      have stopped : (s.faults before.state).Stopped err turn.trace := stopped
      constructor
      . intro earlier e later hsplit hclean ⟨err', hfails⟩
        rw [hsplit] at stopped
        obtain ⟨hreported, hrepairs⟩ := stopped.first hclean hfails
        exact ⟨hrepairs, .inl ⟨err, rfl, hreported⟩⟩
      . intro hclean
        exact absurd hclean stopped.not_clean
    . rw [hresult] at stopped
      have clean : (s.faults before.state).Clean turn.trace := stopped
      constructor
      . intro earlier e later hsplit _ ⟨err', hfails⟩
        exact absurd hfails (clean earlier e later hsplit err')
      . intro _
        exact .inl rfl

example
    : let board := wired { StrategyOptions.forBoard "bananapi" with doBootstrap := true } .sunxi
      let turn := board.turn (.transition .bootstrapped) (.prompt DeviceCall.completesPart) ()
        .fresh 0
      turn.result = some (.error (.writeFailed "uboot" "sunxi" "lab: failure")) ∧
        (turn.trace.drop 6).map Event.call =
          [.device (.deactivate .storage), .sleep 1000, .device (.mux .device),
            .mark (.ends .write false), .mark (.ends .bootstrap false)] :=
  ⟨rfl, rfl⟩

end Strategy

end BringUp
