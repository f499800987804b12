import BringUp.Proofs.Boot.Drive
import BringUp.Proofs.Lab.Alike

/-!
This module contains that it does not matter in how many requests a board is taken to a state. The
main statement is that going to a state directly makes the same calls, and ends alike, as going to
an earlier state first.
-/

namespace BringUp

open Program

def BootState.path : List BootState := [off, started, bootloader, shell]

def BoardStatus.SameRecord (status other : BoardStatus) : Prop :=
  status.bootstrapped = other.bootstrapped ∧
    status.report.map BootReport.version = other.report.map BootReport.version

def BoardStatus.SameKnown (status other : BoardStatus) : Prop :=
  status.state = other.state ∧ status.SameRecord other

open BoardStatus

theorem BoardStatus.equivalence_sameRecord : Equivalence SameRecord where
  refl _ := ⟨rfl, rfl⟩
  symm h := ⟨h.left.symm, h.right.symm⟩
  trans h h' := ⟨h.left.trans h'.left, h.right.trans h'.right⟩

namespace Strategy

variable {s : Strategy} {status other : BoardStatus} {V : BoardStatus → BoardStatus → Prop}

abbrev LeadAlike (V : BoardStatus → BoardStatus → Prop) (p : Drive Unit) (status : BoardStatus)
    (q : Drive Unit) (other : BoardStatus) : Prop :=
  Alike (fun _ t _ t' => V t t') SameRecord p status q other

theorem leadAlike_refl (p : Drive Unit) : LeadAlike Eq p status p status := by
  apply (alike_refl equivalence_sameRecord p).mono
  rintro _ t _ _ ⟨_, rfl⟩
  rfl

theorem leadAlike_reach_left {step : Drive Unit} (hnot : status.state ≠ target)
    (h : LeadAlike V (step >>= fun _ => modify fun t => { t with state := target }) status q other)
    : LeadAlike V (reach target step) status q other := by
  apply alike_state_left
  rw [if_neg hnot]
  exact h

theorem leadAlike_reach_right {step : Drive Unit} (hnot : other.state ≠ target)
    (h : LeadAlike V p status (step >>= fun _ => modify fun t => { t with state := target }) other)
    : LeadAlike V p status (reach target step) other := by
  apply alike_state_right
  rw [if_neg hnot]
  exact h

theorem leadAlike_reach_again {step : Drive Unit}
    : LeadAlike Eq (reach target step) status
        (reach target step >>= fun _ => reach target step) status := by
  have twice : LeadAlike Eq (reach target step >>= fun _ => pure ()) status
      (reach target step >>= fun _ => reach target step) status := by
    apply alike_bind (alike_ensures equivalence_sameRecord fun now => reach_state)
    rintro _ t _ _ ⟨_, rfl, hin⟩
    apply alike_state_right
    rw [if_pos hin]
    exact alike_pure rfl
  rw [show (reach target step >>= fun _ => pure ()) = reach target step from bind_pure _] at twice
  exact twice

theorem leadAlike_reach {first step : Drive Unit} (hnot : status.state ≠ target)
    (hfirst : ∀ now, first.Ensures (.either (fun _ t _ _ => t.state ≠ target) fun _ _ _ => True)
      status now [])
    (hV : ∀ t t', V t t' → V { t with state := target } { t' with state := target })
    (hstep : LeadAlike V step status (first >>= fun _ => step) status)
    : LeadAlike V (reach target step) status (first >>= fun _ => reach target step) status := by
  let finish : Drive Unit := modify fun t => { t with state := target }
  have left : LeadAlike V (reach target step) status
      (first >>= fun _ => step >>= fun _ => finish) status := by
    apply leadAlike_reach_left hnot
    rw [← bind_assoc]
    apply alike_bind hstep
    intro _ t _ t' hv
    exact alike_modify (hV t t' hv)
  have right : LeadAlike Eq (first >>= fun _ => step >>= fun _ => finish) status
      (first >>= fun _ => reach target step) status := by
    apply alike_bind (alike_ensures equivalence_sameRecord hfirst)
    rintro _ t _ _ ⟨_, rfl, hne⟩
    exact leadAlike_reach_right hne (leadAlike_refl _)
  apply left.trans equivalence_sameRecord right
  rintro _ t _ t' _ _ hv rfl
  exact hv

theorem ensures_left {a target : BootState} (hne : a ≠ target) (now : Nat)
    : (s.drive a).Ensures (.either (fun _ t _ _ => t.state ≠ target) fun _ _ _ => True)
        status now [] := by
  apply (s.drive_state a).mono_value
  rintro _ t _ _ rfl
  exact hne

theorem toStarted_alike (ha : a = .off ∨ a = .started) (hnot : status.state ≠ .started)
    : LeadAlike Eq s.toStarted status (s.drive a >>= fun _ => s.toStarted) status := by
  rcases ha with rfl | rfl
  . apply leadAlike_reach hnot (ensures_left (by decide))
    . rintro t _ rfl
      rfl
    . rw [← bind_assoc]
      apply alike_bind leadAlike_reach_again
      rintro _ t _ _ rfl
      exact leadAlike_refl _
  . exact leadAlike_reach_again

def catchPrompt (s : Strategy) (startedAt : Nat) : Drive Unit := do
  let report ← s.interrupt startedAt
  modify fun status => { status with report := some report }

theorem interrupt_alike
    : Alike (fun report t report' t' => report.version = report'.version ∧ t = t') SameRecord
        (s.interrupt time) status (s.interrupt time') status := by
  have same {α : Type} (p : Drive α) {t : BoardStatus} : Alike Same SameRecord p t p t :=
    alike_refl equivalence_sameRecord p
  have kept {p : Drive BootReport} {t : BoardStatus}
      : Alike (fun report t report' t' => report.version = report'.version ∧ t = t') SameRecord
          p t p t := by
    apply (same p).mono
    rintro report t _ _ ⟨rfl, rfl⟩
    exact ⟨rfl, rfl⟩
  apply alike_bind (same clock)
  rintro began t _ _ ⟨rfl, rfl⟩
  apply alike_bind (same _)
  rintro r t _ _ ⟨rfl, rfl⟩
  rcases r with _ | e | ⟨⟨⟩⟩
  . exact kept
  . exact kept
  . apply alike_bind (same (device .bootloaderOutput))
    rintro bytes t _ _ ⟨rfl, rfl⟩
    apply alike_bind (same (device .bootloaderVersion))
    rintro version t _ _ ⟨rfl, rfl⟩
    apply alike_bind (same clock)
    rintro now t _ _ ⟨rfl, rfl⟩
    exact alike_pure ⟨rfl, rfl⟩

theorem catchPrompt_alike
    : LeadAlike SameKnown (s.catchPrompt time) status (s.catchPrompt time') status := by
  apply alike_bind interrupt_alike
  rintro report t report' _ ⟨hversion, rfl⟩
  exact alike_modify ⟨rfl, rfl, by simp [hversion]⟩

theorem toBootloader_alike (ha : a = .off ∨ a = .started ∨ a = .bootloader)
    (hnot : status.state ≠ .started ∧ status.state ≠ .bootloader)
    : LeadAlike SameKnown s.toBootloader status (s.drive a >>= fun _ => s.toBootloader)
        status := by
  rcases or_assoc.mpr ha with ha | rfl
  . have hne : a ≠ .bootloader := by
      rcases ha with rfl | rfl <;> decide
    apply leadAlike_reach hnot.right (ensures_left hne)
    . rintro t t' ⟨_, record⟩
      exact ⟨rfl, record⟩
    . apply alike_clock_left
      intro time
      -- The board is started on the way either way, so the clock may be looked at in between.
      have started : LeadAlike Eq (s.toStarted >>= fun _ => s.catchPrompt time) status
          (s.drive a >>= fun _ => s.toStarted >>= fun _ => s.catchPrompt time) status := by
        rw [← bind_assoc]
        apply alike_bind (toStarted_alike ha hnot.left)
        rintro _ t _ _ rfl
        exact leadAlike_refl _
      have caught : LeadAlike SameKnown
          (s.drive a >>= fun _ => s.toStarted >>= fun _ => s.catchPrompt time) status
          (s.drive a >>= fun _ => clock >>= fun time => s.toStarted >>= fun _ => s.catchPrompt time)
          status := by
        apply alike_bind (leadAlike_refl _)
        rintro _ t _ _ rfl
        apply alike_clock_right
        intro time'
        apply alike_bind (leadAlike_refl _)
        rintro _ t _ _ rfl
        exact catchPrompt_alike
      apply started.trans equivalence_sameRecord caught
      rintro _ t _ _ _ t' rfl known
      exact known
  . apply leadAlike_reach_again.mono
    rintro _ t _ _ rfl
    exact ⟨rfl, rfl, rfl⟩

theorem bootToShell_alike (hk : status.SameKnown other)
    : LeadAlike SameKnown s.bootToShell status s.bootToShell other := by
  have call {c : DeviceCall}
      : Alike (fun a t b t' => a = b ∧ t = status ∧ t' = other) SameRecord (device c) status
          (device c) other :=
    alike_device (fun a => ⟨rfl, rfl, rfl⟩) hk.right
  unfold bootToShell
  iterate 3
    apply alike_bind call
    rintro _ _ _ _ ⟨_, rfl, rfl⟩
  apply alike_bind call
  rintro output _ _ _ ⟨rfl, rfl, rfl⟩
  split
  . exact alike_pure hk
  . exact alike_raise hk.right

theorem toShell_alike (ha : a = .off ∨ a = .started ∨ a = .bootloader)
    (hnot : status.state ≠ .started ∧ status.state ≠ .bootloader ∧ status.state ≠ .shell)
    : LeadAlike SameKnown s.toShell status (s.drive a >>= fun _ => s.toShell) status := by
  have hne : a ≠ .shell := by
    rcases ha with rfl | rfl | rfl <;> decide
  apply leadAlike_reach hnot.right.right (ensures_left hne)
  . rintro t t' ⟨_, record⟩
    exact ⟨rfl, record⟩
  . rw [← bind_assoc]
    apply alike_bind (toBootloader_alike ha ⟨hnot.left, hnot.right.left⟩)
    intro _ t _ t' known
    exact bootToShell_alike known

theorem path_cases : ∀ a ∈ BootState.path, ∀ b ∈ BootState.path, a.index < b.index →
    (b = .started ∧ a = .off) ∨ (b = .bootloader ∧ (a = .off ∨ a = .started)) ∨
      (b = .shell ∧ (a = .off ∨ a = .started ∨ a = .bootloader)) := by
  decide

theorem drive_alike (ha : a ∈ BootState.path) (hb : b ∈ BootState.path) (hab : a.index < b.index)
    (hstatus : status.state ∈ [.unknown, .off, .bootstrapped])
    : LeadAlike SameKnown (s.drive b) status (s.drive a >>= fun _ => s.drive b) status := by
  have hnot : status.state ≠ .started ∧ status.state ≠ .bootloader ∧ status.state ≠ .shell := by
    generalize status.state = state at hstatus
    revert state
    decide
  rcases path_cases a ha b hb hab with ⟨rfl, hoff⟩ | ⟨rfl, hbelow⟩ | ⟨rfl, hbelow⟩
  . apply (toStarted_alike (.inl hoff) hnot.left).mono
    rintro _ t _ _ rfl
    exact ⟨rfl, rfl, rfl⟩
  . exact toBootloader_alike (or_assoc.mp (.inl hbelow)) ⟨hnot.left, hnot.right.left⟩
  . exact toShell_alike hbelow hnot

theorem drive_transition_alike (s : Strategy) (target : BootState)
    : LeadAlike Eq (s.drive target) status (s.transition target) status := by
  intro ω lab w now
  -- The state before is looked at first, which is no call.
  change Run.Alike _ _ _ ((Program.bind (s.drive target).attempt _).run lab none status w now)
  rw [run_bind, run_attempt]
  rcases (s.drive target).run lab none status w now with ⟨_ | e | ⟨⟨⟩⟩, after, w', now', t⟩
  . exact ⟨.givenUp ⟨rfl, rfl⟩, rfl, rfl, rfl⟩
  . exact ⟨.error ⟨rfl, rfl⟩, rfl, rfl, congrArg Trace.unclocked (List.append_nil t).symm⟩
  . exact ⟨.value rfl, rfl, rfl, congrArg Trace.unclocked (List.append_nil t).symm⟩

theorem transitions_alike {first second : BootState}
    (hdrive : LeadAlike SameKnown (s.drive second) status
      (s.drive first >>= fun _ => s.drive second) status)
    : LeadAlike SameKnown (s.transition second) status
        (s.transition first >>= fun _ => s.transition second) status := by
  have left : LeadAlike SameKnown (s.transition second) status
      (s.drive first >>= fun _ => s.drive second) status := by
    apply ((drive_transition_alike s second).symm equivalence_sameRecord).trans
      equivalence_sameRecord hdrive
    rintro _ t _ _ _ t' rfl known
    exact known
  have right : LeadAlike Eq (s.drive first >>= fun _ => s.drive second) status
      (s.transition first >>= fun _ => s.transition second) status := by
    apply alike_bind (drive_transition_alike s first)
    rintro _ t _ _ rfl
    exact drive_transition_alike s second
  apply left.trans equivalence_sameRecord right
  rintro _ t _ t' _ _ known rfl
  exact known

/--
To take a board to a state directly and to take it to an earlier state first come to the same. The
calls and their replies are the same and so is the time they take, and either both ways end in the
state or both fail with the same error. What is on record afterwards is the same but for the time it
took to catch the prompt.
-/
theorem transition_stepwise (s : Strategy) (a b : BootState) (ha : a ∈ BootState.path)
    (hb : b ∈ BootState.path) (hab : a.index < b.index) (lab : Lab ω) (w : ω) (status : BoardStatus)
    (now : Nat) (hstatus : status.state ∈ [.unknown, .off, .bootstrapped])
    : let direct := (s.transition b).run lab none status w now
      let stepwise := ((s.transition a).run lab none status w now).andThen
        fun _ => (s.transition b).run lab none
      Trace.unclocked direct.trace = Trace.unclocked stepwise.trace ∧
        direct.now = stepwise.now ∧ direct.lab = stepwise.lab ∧
        direct.result = stepwise.result ∧
        (direct.result = some (.ok ()) → direct.state.state = stepwise.state.state) ∧
        direct.state.SameRecord stepwise.state := by
  have run : (s.transition a >>= fun _ => s.transition b).run lab none status w now =
      ((s.transition a).run lab none status w now).andThen
        fun _ => (s.transition b).run lab none :=
    run_bind ..
  obtain ⟨ends, hlab, hnow, htrace⟩ :=
    transitions_alike (drive_alike ha hb hab hstatus) ω lab w now
  rw [run] at ends hlab hnow htrace
  intro direct stepwise
  refine ⟨htrace, hnow, hlab, ?_⟩
  have ends : EndAlike (fun _ t _ t' => t.SameKnown t') SameRecord direct.result direct.state
      stepwise.result stepwise.state :=
    ends
  generalize direct.result = r at ends
  generalize stepwise.result = r' at ends
  cases ends with
  | value known => exact ⟨rfl, fun _ => known.left, known.right⟩
  | error record => exact ⟨rfl, nofun, record⟩
  | givenUp record => exact ⟨rfl, nofun, record⟩

theorem wired_shell_stepwise
    : let s := wired { StrategyOptions.forBoard "bananapi" with doBootstrap := true } .sunxi
      let lab := Lab.prompt fun _ => false
      let direct := (s.transition .shell).run lab none .fresh () 0
      let stepwise := ((s.transition .started).run lab none .fresh () 0).andThen
        fun _ => (s.transition .shell).run lab none
      (BootState.started ∈ BootState.path ∧ BootState.shell ∈ BootState.path ∧
          BootState.started.index < BootState.shell.index ∧
          BoardStatus.fresh.state ∈ [.unknown, .off, .bootstrapped]) ∧
        direct.result = some (.ok ()) ∧
        Trace.unclocked direct.trace = Trace.unclocked stepwise.trace ∧
        direct.now = stepwise.now ∧ direct.result = stepwise.result := by
  obtain ⟨htrace, hnow, _, hresult, _⟩ :=
    transition_stepwise (wired { StrategyOptions.forBoard "bananapi" with doBootstrap := true }
      .sunxi) .started .shell (by decide) (by decide) (by decide) (.prompt fun _ => false) () .fresh
      0 (by decide)
  exact ⟨⟨by decide, by decide, by decide, by decide⟩, rfl, htrace, hnow, hresult⟩

end Strategy

end BringUp
