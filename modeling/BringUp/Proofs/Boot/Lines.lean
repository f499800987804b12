import BringUp.Proofs.Boot.Console
import Mathlib.Data.List.Induction

/-!
This module contains in which order the reset and the recovery line are switched. The main statement
is that, whatever is asked for and whatever fails, the power is cycled only while the board is held
in reset, the board is released into its USB download mode only after that was requested, nothing is
sent to it before, and a request that ends well leaves no line switched on.
-/

namespace BringUp

open Program Trace

def Call.Switches : Call → Prop
  | .device (.reset _ _) | .device (.recovery _) => True
  | _ => False

def Call.Calm : Call → Prop
  | .device (.reset _ _) | .device (.recovery _) | .device (.power .cycle) => False
  | .device c => c.device ≠ .usbLoader
  | _ => True

def DeviceCall.undo? : DeviceCall → Option DeviceCall
  | .reset true mode => some (.reset false mode)
  | .recovery true => some (.recovery false)
  | _ => none

/--
The calls that request the USB download mode. Where holding reset keeps USB devices from appearing,
reset is held last.
-/
def ResetLine.request (line : ResetLine) : List DeviceCall :=
  if line.blocksUsb then [.recovery true, .reset true .warm]
  else [.reset true .warm, .recovery true]

theorem Call.Calm.not_switches {c : Call} (hc : c.Calm) : ¬c.Switches := by
  unfold Switches
  split <;> simp_all [Calm]

theorem Call.Calm.not_usbLoader {c : DeviceCall} (hc : (Call.device c).Calm)
    : c.device ≠ .usbLoader := by
  unfold Calm at hc
  split at hc <;> simp_all

@[simp]
theorem calm_activate : (Call.device (.activate d)).Calm ↔ d ≠ .usbLoader :=
  Iff.rfl

@[simp]
theorem calm_deactivate : (Call.device (.deactivate d)).Calm ↔ d ≠ .usbLoader :=
  Iff.rfl

@[simp]
theorem calm_power : (Call.device (.power action)).Calm ↔ action ≠ .cycle := by
  cases action <;> simp [Call.Calm, DeviceCall.device]

theorem DeviceCall.undo?_eq_none {c : DeviceCall} (hc : ¬(Call.device c).Switches)
    : c.undo? = none := by
  unfold undo?
  split <;> simp_all [Call.Switches]

namespace Trace

/--
The calls have succeeded in this order, and since the first of them neither line was switched by any
other call.
-/
inductive InTurn : List DeviceCall → List Event → Prop where
  | nil : InTurn [] t
  | next : InTurn cs t → e.success? = some c → InTurn (cs ++ [c]) (t ++ [e])
  | idle : InTurn cs t → ¬e.call.Switches → InTurn cs (t ++ [e])

/--
Of the calls that switch a line on, all were undone later but those that `owed` would undo.
-/
def Owes (owed : List DeviceCall) (t : List Event) : Prop :=
  ∀ before e after, t = before ++ e :: after → ∀ c d, e.call = .device c → c.undo? = some d →
    d ∈ owed ∨ ∃ x ∈ after, x.success? = some d

variable {h t : List Event} {owed : List DeviceCall}

theorem owes_nil : Owes owed [] := by
  intro before e after hsplit
  simp at hsplit

theorem Owes.concat (ho : Owes owed t)
    (he : ∀ c d, e.call = .device c → c.undo? = some d → d ∈ owed')
    (hsub : ∀ d ∈ owed, d ∈ owed' ∨ e.success? = some d)
    : Owes owed' (t ++ [e]) := by
  intro before x after hsplit c d hcall hundo
  rcases append_eq_append_cons_iff.mp hsplit with ⟨rest, hfirst, rfl⟩ | ⟨front, rfl, hsecond⟩
  . rcases ho before x rest hfirst c d hcall hundo with howed | ⟨y, hy, hundone⟩
    . rcases hsub d howed with howed | hundone
      . exact .inl howed
      . exact .inr ⟨e, by simp, hundone⟩
    . exact .inr ⟨y, by simp [hy], hundone⟩
  . cases front with
    | nil =>
      obtain ⟨rfl, rfl⟩ : e = x ∧ after = [] := by simpa [eq_comm] using hsecond
      exact .inl (he c d hcall hundo)
    | cons y front => simp at hsecond

theorem Owes.idle (ho : Owes owed t) (he : ¬e.call.Switches) : Owes owed (t ++ [e]) := by
  apply ho.concat
  . intro c d hcall hundo
    rw [hcall] at he
    rw [DeviceCall.undo?_eq_none he] at hundo
    cases hundo
  . intro d hd
    exact .inl hd

theorem Owes.undo {c : DeviceCall} {v : c.Value} (ho : Owes owed t) (hc : c.undo? = none)
    (hsub : ∀ d ∈ owed, d ∈ owed' ∨ d = c)
    : Owes owed' (t ++ [⟨.device c, start, stop, some (.ok v)⟩]) := by
  apply ho.concat
  . rintro _ d ⟨⟩ hundo
    rw [hc] at hundo
    cases hundo
  . intro d hd
    rcases hsub d hd with howed | rfl
    . exact .inl howed
    . exact .inr rfl

end Trace

namespace Strategy

/--
Whether a line is switched, the power cycled or the image sent at an event only in its turn. With a
reset line the power is cycled only after the board was held in a cold reset, and never if reset
and power are switched by one thing. A warm reset is released only after the USB download mode was
requested and the console activated, and recovery is disabled once that has settled. The image is
sent only after both.
-/
def Orderly (s : Strategy) (before : List Event) (e : Event) : Prop :=
  match e.call with
  | .device (.power .cycle) =>
    ∀ line, s.reset = some line → s.sharesPower line = false ∧ InTurn [.reset true .cold] before
  | .device (.reset false .warm) =>
    ∃ line, s.reset = some line ∧ InTurn (line.request ++ [.activate .console]) before
  | .device (.recovery false) =>
    ∃ earlier released later, before = earlier ++ released :: later ∧
      released.success? = some (.reset false .warm) ∧ (∀ x ∈ later, ¬x.call.Switches) ∧
      e.start = released.stop + s.options.recoverySettle
  | .device c =>
    c.device = .usbLoader → InTurn [.reset false .warm, .recovery false] before
  | _ => True

structure Switched (s : Strategy) (owed done : List DeviceCall) (h : List Event) : Prop where
  orderly : Always s.Orderly h
  owes : Owes owed h
  inTurn : InTurn done h

variable {s : Strategy} {owed done : List DeviceCall} {h : List Event} {status : BoardStatus}

theorem orderly_of_calm (he : e.call.Calm) : s.Orderly h e := by
  unfold Orderly
  split
  . simp_all [Call.Calm]
  . simp_all [Call.Calm]
  . simp_all [Call.Calm]
  . next hcall =>
    intro husb
    rw [hcall] at he
    exact absurd husb he.not_usbLoader
  . trivial

theorem orderly_of_undo {c : DeviceCall} {r : Option (Except Error c.Value)}
    (hc : c.undo? = some d)
    : s.Orderly h ⟨.device c, began, stop, r⟩ := by
  unfold DeviceCall.undo? at hc
  split at hc
  . simp [Orderly, DeviceCall.device]
  . simp [Orderly, DeviceCall.device]
  . cases hc

theorem Switched.append (hs : Switched s owed done h)
    (ht : ∀ e ∈ t, ¬e.call.Switches ∧ ∀ h, InTurn done h → s.Orderly h e)
    : Switched s owed done (h ++ t) := by
  induction t using List.reverseRecOn with
  | nil => simpa using hs
  | append_singleton t e ih =>
    obtain ⟨ht, he⟩ := List.forall_mem_append.mp ht
    obtain ⟨hidle, horderly⟩ := List.forall_mem_singleton.mp he
    have hs := ih ht
    rw [← List.append_assoc]
    exact ⟨hs.orderly.concat (horderly _ hs.inTurn), hs.owes.idle hidle, hs.inTurn.idle hidle⟩

theorem Switched.append_calm (hs : Switched s owed done h) (ht : ∀ e ∈ t, e.call.Calm)
    : Switched s owed done (h ++ t) :=
  hs.append fun e he => ⟨(ht e he).not_switches, fun _ _ => orderly_of_calm (ht e he)⟩

section

variable {α : Type} {value : α → BoardStatus → Nat → List Event → Prop}

theorem ensures_orderly_bind {c : DeviceCall} {f : c.Value → Drive α} (hs : Always s.Orderly h)
    (hc : ∀ stop r, s.Orderly h ⟨.device c, now, stop, r⟩)
    (hf : ∀ stop v, (f v).Ensures (.either value fun _ _ h' => Always s.Orderly h')
      status stop (h ++ [⟨.device c, now, stop, some (.ok v)⟩]))
    : (Bind.bind (α := no_index c.Value) (device c) f).Ensures
        (.either value fun _ _ h' => Always s.Orderly h') status now h := by
  rw [ensures_device_bind]
  exact ⟨hs.concat (hc _ _), fun stop e _ => hs.concat (hc _ _), fun stop v _ => hf stop v⟩

theorem Switched.calm_bind {c : DeviceCall} {f : c.Value → Drive α} (hs : Switched s owed done h)
    (hc : (Call.device c).Calm)
    (hf : ∀ now v h', Switched s owed done h' →
      (f v).Ensures (.either value fun _ _ h' => Always s.Orderly h') status now h')
    : (Bind.bind (α := no_index c.Value) (device c) f).Ensures
        (.either value fun _ _ h' => Always s.Orderly h') status now h := by
  apply ensures_orderly_bind hs.orderly fun _ _ => orderly_of_calm hc
  intro stop v
  exact hf stop v _ (hs.append_calm (by simpa using hc))

theorem Switched.hold_bind {c : DeviceCall} {f : c.Value → Drive α} (hs : Switched s owed done h)
    (hc : c.undo? = some d)
    (hf : ∀ now v h', Switched s (d :: owed) (done ++ [c]) h' →
      (f v).Ensures (.either value fun _ _ h' => Always s.Orderly h') status now h')
    : (Bind.bind (α := no_index c.Value) (device c) f).Ensures
        (.either value fun _ _ h' => Always s.Orderly h') status now h := by
  apply ensures_orderly_bind hs.orderly fun _ _ => orderly_of_undo hc
  intro stop v
  apply hf
  refine ⟨hs.orderly.concat (orderly_of_undo hc), hs.owes.concat ?_ ?_, hs.inTurn.next rfl⟩
  . rintro c' d' ⟨⟩ hundo
    simp_all
  . intro d' hd
    exact .inl (List.mem_cons_of_mem _ hd)

end

theorem release_switched {line : ResetLine} (hline : s.reset = some line)
    (hs : Switched s owed line.request h)
    (howed : ∀ d ∈ owed, d = .reset false .warm ∨ d = .recovery false)
    : (do
        device (.activate .console)
        device (.reset false .warm)
        sleep s.options.recoverySettle
        device (.recovery false) : Drive Unit).Ensures
        (.either (fun _ _ _ h' => Switched s [] [.reset false .warm, .recovery false] h')
          fun _ _ h' => Always s.Orderly h')
        status now h := by
  apply ensures_orderly_bind hs.orderly fun _ _ => orderly_of_calm (by simp)
  intro attached _
  have watched : Switched s owed (line.request ++ [.activate .console])
      (h ++ [⟨.device (.activate .console), now, attached, some (.ok ())⟩]) :=
    ⟨hs.orderly.concat (orderly_of_calm (by simp)), hs.owes.idle id, hs.inTurn.next rfl⟩
  generalize h ++ [⟨.device (.activate .console), now, attached, some (.ok ())⟩] = h at watched ⊢
  have requested {stop : Nat} {r : Option (Except Error Unit)}
      : s.Orderly h ⟨.device (.reset false .warm), attached, stop, r⟩ :=
    ⟨line, hline, watched.inTurn⟩
  apply ensures_orderly_bind watched.orderly fun _ _ => requested
  intro released _
  have booted : Switched s [.recovery false] [.reset false .warm]
      (h ++ [⟨.device (.reset false .warm), attached, released, some (.ok ())⟩]) := by
    refine ⟨watched.orderly.concat requested, watched.owes.undo rfl ?_,
      InTurn.nil.next rfl⟩
    intro d hd
    rcases howed d hd with rfl | rfl
    . exact .inr rfl
    . simp
  have settled := booted.append_calm
    (t := [⟨.sleep s.options.recoverySettle, released, released + s.options.recoverySettle,
      some ()⟩])
    (by simp [Call.Calm])
  rw [ensures_bind, ensures_sleep, Post.andThen_ok]
  have dropped {stop : Nat} {r : Option (Except Error Unit)}
      : s.Orderly
          (h ++ [⟨.device (.reset false .warm), attached, released, some (.ok ())⟩] ++
            [⟨.sleep s.options.recoverySettle, released, released + s.options.recoverySettle,
              some ()⟩])
          ⟨.device (.recovery false), released + s.options.recoverySettle, stop, r⟩ :=
    ⟨h, _, _, List.append_assoc .., rfl, by simp [Call.Switches], rfl⟩
  rw [ensures_device_either]
  refine ⟨settled.orderly.concat dropped, fun _ _ _ => settled.orderly.concat dropped, ?_⟩
  intro stop _ _
  exact ⟨settled.orderly.concat dropped, settled.owes.undo rfl (by simp), settled.inTurn.next rfl⟩

theorem enterRecovery_switched {line : ResetLine} (hline : s.reset = some line)
    (hs : Switched s [] [] h)
    : (s.enterRecovery line).Ensures
        (.either (fun _ _ _ h' => Switched s [] [.reset false .warm, .recovery false] h')
          fun _ _ h' => Always s.Orderly h')
        status now h := by
  unfold enterRecovery requestRecovery
  apply hs.calm_bind (by simp)
  intro now _ h hs
  apply hs.calm_bind (by simp)
  intro now _ h hs
  apply hs.calm_bind (by simp)
  intro now _ h hs
  split
  . next hblocks =>
    simp only [bind_assoc]
    apply hs.calm_bind (by simp)
    intro now _ h hs
    apply hs.hold_bind rfl
    intro now _ h hs
    apply hs.hold_bind rfl
    intro now _ h hs
    apply release_switched hline
    . rw [ResetLine.request, if_pos hblocks]
      exact hs
    . simp
  . next hblocks =>
    simp only [bind_assoc]
    apply hs.hold_bind rfl
    intro now _ h hs
    apply hs.calm_bind (by simp)
    intro now _ h hs
    apply hs.hold_bind rfl
    intro now _ h hs
    apply release_switched hline
    . rw [ResetLine.request, if_neg hblocks]
      exact hs
    . simp

theorem leads_of_calm {α : Type} {p : Drive α} (hp : p.Within Call.Calm)
    : p.Leads (Switched s [] []) (Always s.Orderly) :=
  hp.leads (fun _ hs => hs.orderly) fun _ _ hs ht => hs.append_calm ht

theorem leads_of_covers {α : Type} {f : Footprint} {p : Drive α} (hp : p.Within f.Covers)
    (hd : ∀ d ∈ f.devices, d ∉ [.power, .reset, .recovery, .usbLoader])
    : p.Leads (Switched s [] []) (Always s.Orderly) := by
  apply leads_of_calm
  apply hp.mono
  intro c hc
  unfold Call.Calm
  split
  . exact absurd hc fun hmem => hd _ hmem (by simp [DeviceCall.device])
  . exact absurd hc fun hmem => hd _ hmem (by simp [DeviceCall.device])
  . exact absurd hc fun hmem => hd _ hmem (by simp [DeviceCall.device])
  . intro husb
    exact hd _ hc (by simp [husb])
  . trivial

theorem send_switched {dir : String}
    (hs : Switched s [] [.reset false .warm, .recovery false] h)
    : (s.writer.send dir).Ensures
        (.either (fun _ _ _ h' => Switched s [] [] h') fun _ _ h' => Always s.Orderly h')
        status now h := by
  apply (s.writer.send_within dir).ensures
  intro r now t ht
  have sent : Switched s [] [.reset false .warm, .recovery false] (h ++ t) := by
    apply hs.append
    intro e he
    have covers := ht e he
    unfold Call.Switches Orderly
    rcases hcall : e.call with c | _ | _ | _ | _ | _
    . rw [hcall] at covers
      cases c <;> simp_all [Footprint.Covers, DeviceCall.device]
    all_goals simp
  rcases r with _ | e | a
  . exact sent.orderly
  . exact sent.orderly
  . exact ⟨sent.orderly, sent.owes, .nil⟩

theorem install_leads (s : Strategy)
    : s.install.Leads (Switched s [] []) (Always s.Orderly) := by
  have outside {α : Type} {p : Drive α} (hp : p.Within Footprint.outside.Covers)
      : p.Leads (Switched s [] []) (Always s.Orderly) :=
    leads_of_covers hp (by simp [Footprint.outside])
  unfold install
  split
  . intro status now h hs
    unfold recoveryReset
    split
    . next line hline _ =>
      change (s.locateBuild >>= _ : Drive Unit).Ensures _ _ _ _
      apply (outside s.locateBuild_within status now h hs).andThen
      intro dir _ _ _ hs
      apply (enterRecovery_switched hline hs).andThen
      intro _ _ _ _ hs
      exact send_switched hs
    . exact hs.orderly
  . apply leads_bind (outside s.locateBuild_within)
    intro dir
    exact leads_of_covers (s.writer.write_within dir) (by simp [Writer.writeLines])

theorem release_cold (hs : Switched s [.reset false .cold] done h)
    : (device (.reset false .cold) : Drive Unit).Ensures
        (.either (fun _ _ _ h' => Switched s [] [] h') fun _ _ h' => Always s.Orderly h')
        status now h := by
  have released {stop : Nat} {r : Option (Except Error Unit)}
      : s.Orderly h ⟨.device (.reset false .cold), now, stop, r⟩ := by
    simp [Orderly, DeviceCall.device]
  rw [ensures_device_either]
  refine ⟨hs.orderly.concat released, fun _ _ _ => hs.orderly.concat released, ?_⟩
  intro stop _ _
  exact ⟨hs.orderly.concat released, hs.owes.undo rfl (by simp), .nil⟩

theorem powerUp_leads (s : Strategy)
    : s.powerUp.Leads (Switched s [] []) (Always s.Orderly) := by
  intro status now h hs
  unfold powerUp
  apply hs.calm_bind (by simp)
  intro now _ h hs
  split
  . next hreset =>
    apply hs.calm_bind (by simp)
    intro now _ h hs
    have cycled {stop : Nat} {r : Option (Except Error Unit)}
        : s.Orderly h ⟨.device (.power .cycle), now, stop, r⟩ := by
      intro line hline
      rw [hreset] at hline
      cases hline
    rw [ensures_device_either]
    refine ⟨hs.orderly.concat cycled, fun _ _ _ => hs.orderly.concat cycled, ?_⟩
    intro stop _ _
    exact ⟨hs.orderly.concat cycled, hs.owes.idle id, .nil⟩
  . next line hline =>
    apply hs.calm_bind (by simp)
    intro now _ h hs
    apply hs.hold_bind rfl
    intro now _ h hs
    split
    . next hown =>
      apply hs.calm_bind (by simp)
      intro now _ h hs
      have cycled {stop : Nat} {r : Option (Except Error Unit)}
          : s.Orderly h ⟨.device (.power .cycle), now, stop, r⟩ := by
        intro line' hline'
        obtain rfl : line = line' := by simpa [hline] using hline'
        exact ⟨by simpa using hown, hs.inTurn⟩
      apply ensures_orderly_bind hs.orderly fun _ _ => cycled
      intro stop _
      exact release_cold ⟨hs.orderly.concat cycled, hs.owes.idle id, hs.inTurn.idle id⟩
    . exact release_cold hs

theorem stepsLead_orderly (s : Strategy) : s.StepsLead (Switched s [] []) (Always s.Orderly) where
  weaken _ hs := hs.orderly
  mark m _ _ hs := hs.append_calm (by simp [Call.Calm])
  markFailed m _ _ hs := hs.concat trivial
  clock _ _ hs := hs.append_calm (by simp [Call.Calm])
  powerOff := leads_of_calm (by simp [powerOff])
  install := s.install_leads
  prepareBoot := leads_of_covers s.writer.prepareBoot_within (by simp)
  powerUp := s.powerUp_leads
  interrupt startedAt := leads_of_covers (s.interrupt_within startedAt) (by simp)
  bootToShell := leads_of_covers s.bootToShell_within (by simp)
  attach target := by
    apply leads_of_calm
    cases target <;> simp [attach]

/--
The reset and the recovery line are switched in their turn: this holds at every event of a request,
whatever is asked for and whatever fails. In a request that ends well all that was switched on is
switched off again.
-/
theorem session_lines_orderly (s : Strategy) (session : Session s turns status now)
    : ∀ turn ∈ turns,
        (∀ before e after, turn.trace = before ++ e :: after → s.Orderly before e) ∧
          (turn.result = some (.ok ()) → ∀ before e after, turn.trace = before ++ e :: after →
            ∀ c d, e.call = .device c → c.undo? = some d → ∃ x ∈ after, x.success? = some d) := by
  intro turn hturn
  obtain ⟨orderly, settled⟩ :=
    s.stepsLead_orderly.session ⟨always_nil, owes_nil, .nil⟩ session turn hturn
  refine ⟨orderly, ?_⟩
  intro hresult before e after hsplit c d hcall hundo
  have undone := (settled hresult).owes before e after hsplit c d hcall hundo
  simpa using undone

theorem recovering_started_orderly
    : Session recovering.board [recovering.started] recovering.started.after
          recovering.started.ended ∧
        recovering.started.result = some (.ok ()) ∧
        (∃ e ∈ recovering.started.trace, e.call = .device .execute) ∧
        (∀ before e after, recovering.started.trace = before ++ e :: after →
          recovering.board.Orderly before e) ∧
        ∀ before e after, recovering.started.trace = before ++ e :: after →
          ∀ c d, e.call = .device c → c.undo? = some d → ∃ x ∈ after, x.success? = some d := by
  have session : Session recovering.board ([] ++ [recovering.started]) recovering.started.after
      recovering.started.ended :=
    .request .fresh _ _ (Nat.le_refl 0)
  have sent : ∃ e ∈ recovering.started.trace, e.call = .device .execute := by
    decide
  obtain ⟨orderly, settled⟩ :=
    session_lines_orderly recovering.board session recovering.started (by simp)
  exact ⟨session, rfl, sent, orderly, settled rfl⟩

end Strategy

end BringUp
