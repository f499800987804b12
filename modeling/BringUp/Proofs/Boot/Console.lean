import BringUp.Proofs.Boot.Invariant

/-!
This module contains that the console is watched while a board boots. The main statement is that,
whatever is asked for and whatever fails, a board is let boot only after the console was activated
in the same request, and before it is deactivated again.
-/

namespace BringUp

open Program Trace

def Call.LetsBoot : Call → Prop
  | .device (.reset false _) | .device (.power .cycle) => True
  | _ => False

/--
The console was activated, and nobody has asked to deactivate it since.
-/
def Trace.Watched (t : List Event) : Prop :=
  ∃ before e after, t = before ++ e :: after ∧ e.success? = some (.activate .console) ∧
    ∀ x ∈ after, x.call ≠ .device (.deactivate .console)

def BootWatched (before : List Event) (e : Event) : Prop :=
  e.call.LetsBoot → Watched before

theorem Trace.Watched.append (hw : Watched h)
    (ht : ∀ e ∈ t, e.call ≠ .device (.deactivate .console))
    : Watched (h ++ t) := by
  obtain ⟨before, e, after, rfl, hactivated, hafter⟩ := hw
  refine ⟨before, e, after ++ t, by simp, hactivated, ?_⟩
  intro x hx
  rcases List.mem_append.mp hx with hx | hx
  . exact hafter x hx
  . exact ht x hx

theorem Trace.watched_activated {start stop : Nat}
    : Watched (h ++ [⟨.device (.activate .console), start, stop, some (.ok ())⟩]) :=
  ⟨h, _, [], rfl, rfl, by simp⟩

section

variable {σ ε α : Type}

theorem keeps_of_not_letsBoot {p : Program σ ε α} (hp : p.Within fun c => ¬c.LetsBoot)
    : p.Keeps (Always BootWatched) := by
  apply hp.keeps
  intro h t hh ht
  apply hh.append
  rintro before e after rfl hboots
  exact absurd hboots (ht e (by simp))

theorem keeps_of_covers {f : Footprint} {p : Program σ ε α} (hp : p.Within f.Covers)
    (hpower : .power ∉ f.devices) (hreset : .reset ∉ f.devices)
    : p.Keeps (Always BootWatched) := by
  apply keeps_of_not_letsBoot
  apply hp.mono
  intro c hc
  unfold Call.LetsBoot
  split <;> simp_all [Footprint.Covers, DeviceCall.device]

theorem keeps_activate_bind {f : Unit → Program σ Error α}
    (hf : ∀ u, (f u).Within fun c => c ≠ .device (.deactivate .console))
    : (device (.activate .console) >>= f : Program σ Error α).Keeps (Always BootWatched) := by
  intro s now h hh
  have activated {stop : Nat} {r : Option (Except Error Unit)}
      : Always BootWatched (h ++ [⟨.device (.activate .console), now, stop, r⟩]) :=
    hh.concat (by simp [BootWatched, Call.LetsBoot])
  rw [ensures_bind, ensures_device]
  refine ⟨activated, ?_⟩
  intro stop r _
  cases r with
  | error e => exact activated
  | ok u =>
    apply (hf u).ensures
    intro r now' t ht
    apply activated.append
    rintro before e after rfl _
    apply watched_activated.append
    intro x hx
    exact ht x (by simp [hx])

end

namespace Strategy

theorem powerOff_watched : powerOff.Keeps (Always BootWatched) := by
  apply keeps_of_not_letsBoot
  simp [powerOff, Call.LetsBoot]

theorem enterRecovery_watched (s : Strategy) (reset : ResetLine)
    : (s.enterRecovery reset).Keeps (Always BootWatched) := by
  have quiet {c : DeviceCall} {α : Type} {f : c.Value → Drive α} (hc : ¬(Call.device c).LetsBoot)
      (hf : ∀ v, (f v).Keeps (Always BootWatched))
      : (Bind.bind (α := no_index c.Value) (device c) f).Keeps (Always BootWatched) := by
    apply keeps_bind _ hf
    exact keeps_of_not_letsBoot (within_device.mpr hc)
  unfold enterRecovery requestRecovery
  iterate 3
    apply quiet id
    intro _
  -- In both orders the board is held, and not released before the console is activated.
  split
  all_goals
    simp only [bind_assoc]
    iterate 3
      apply quiet id
      intro _
    apply keeps_activate_bind
    simp [sleep]

theorem powerUp_watched (s : Strategy) : s.powerUp.Keeps (Always BootWatched) := by
  unfold powerUp
  apply keeps_activate_bind
  intro _
  split <;> simp

theorem install_watched (s : Strategy) : s.install.Keeps (Always BootWatched) := by
  have outside {α : Type} {p : Drive α} (hp : p.Within Footprint.outside.Covers)
      : p.Keeps (Always BootWatched) :=
    keeps_of_covers hp (by simp [Footprint.outside]) (by simp [Footprint.outside])
  unfold install
  split
  . apply keeps_bind (outside s.recoveryReset_within)
    intro reset
    apply keeps_bind (outside s.locateBuild_within)
    intro dir
    apply keeps_bind (s.enterRecovery_watched reset)
    intro _
    exact keeps_of_covers (s.writer.send_within dir) (by simp) (by simp)
  . apply keeps_bind (outside s.locateBuild_within)
    intro dir
    exact keeps_of_covers (s.writer.write_within dir) (by simp [Writer.writeLines])
      (by simp [Writer.writeLines])

theorem stepsKeep_watched (s : Strategy) : s.StepsKeep (Always BootWatched) where
  mark _ _ _ hh := hh.concat False.elim
  clock _ _ hh := hh.concat False.elim
  powerOff := powerOff_watched
  install := s.install_watched
  prepareBoot := keeps_of_covers s.writer.prepareBoot_within (by simp) (by simp)
  powerUp := s.powerUp_watched
  interrupt startedAt := keeps_of_covers (s.interrupt_within startedAt) (by simp) (by simp)
  bootToShell := keeps_of_covers s.bootToShell_within (by simp) (by simp)
  attach target := by
    apply keeps_of_not_letsBoot
    cases target <;> simp [attach, Call.LetsBoot]

/--
No boot output is lost: at every event of a request that releases the board from reset or cycles its
power, the console was activated before in the same request, and nobody has asked to deactivate it
in between.
-/
theorem session_boot_watched (s : Strategy) (session : Session s turns status now)
    : ∀ turn ∈ turns, ∀ before e after, turn.trace = before ++ e :: after →
        e.call.LetsBoot → Watched before := by
  intro turn hturn
  exact s.stepsKeep_watched.session always_nil session turn hturn

namespace recovering

def board : Strategy :=
  { wired { StrategyOptions.forBoard "bananapi" with doBootstrap := true, doSend := true } .sunxi
    with reset := some ⟨"reset", true⟩ }

def started : Turn :=
  board.turn (.transition .started) (.prompt fun _ => false) () .fresh 0

end recovering

theorem recovering_started_watched
    : Session recovering.board [recovering.started] recovering.started.after
          recovering.started.ended ∧
        recovering.started.result = some (.ok ()) ∧
        (∃ e ∈ recovering.started.trace, e.call = .device (.reset false .warm)) ∧
        ∀ before e after, recovering.started.trace = before ++ e :: after →
          e.call.LetsBoot → Watched before := by
  have session : Session recovering.board ([] ++ [recovering.started]) recovering.started.after
      recovering.started.ended :=
    .request .fresh _ _ (Nat.le_refl 0)
  have released : ∃ e ∈ recovering.started.trace, e.call = .device (.reset false .warm) := by
    decide
  exact ⟨session, rfl, released,
    session_boot_watched recovering.board session recovering.started (by simp)⟩

end Strategy

end BringUp
