import BringUp.Proofs.Boot.Drive
import BringUp.Proofs.Lab.Invariant

/-!
This module contains what stays true of the events of every request. The main statement is that it
is enough for each single step to keep it, in whatever order the requests run the steps.
-/

namespace BringUp

open Program

namespace Strategy

structure StepsKeep (s : Strategy) (I : List Event → Prop) : Prop where
  mark : ∀ m now h, I h → I (h ++ [⟨.mark m, now, now, some ()⟩])
  clock : ∀ now h, I h → I (h ++ [⟨.clock, now, now, some now⟩])
  powerOff : powerOff.Keeps I
  install : s.install.Keeps I
  prepareBoot : (s.writer.prepareBoot : Drive Unit).Keeps I
  powerUp : s.powerUp.Keeps I
  interrupt : ∀ startedAt, (s.interrupt startedAt).Keeps I
  bootToShell : s.bootToShell.Keeps I
  attach : ∀ target, (attach target).Keeps I

/--
Every step on the way to a state keeps `I` as long as it does not fail, and `J` in any case, and so
does all that is called between the steps.
-/
structure StepsLead (s : Strategy) (I J : List Event → Prop) : Prop where
  weaken : ∀ h, I h → J h
  mark : ∀ m now h, I h → I (h ++ [⟨.mark m, now, now, some ()⟩])
  markFailed : ∀ m now h, J h → J (h ++ [⟨.mark m, now, now, some ()⟩])
  clock : ∀ now h, I h → I (h ++ [⟨.clock, now, now, some now⟩])
  powerOff : powerOff.Leads I J
  install : s.install.Leads I J
  prepareBoot : (s.writer.prepareBoot : Drive Unit).Leads I J
  powerUp : s.powerUp.Leads I J
  interrupt : ∀ startedAt, (s.interrupt startedAt).Leads I J
  bootToShell : s.bootToShell.Leads I J
  attach : ∀ target, (attach target).Leads I J

namespace StepsLead

variable {s : Strategy} {I J : List Event → Prop}

theorem reach {step : Drive Unit} (hstep : step.Leads I J)
    : (reach target step).Leads I J := by
  apply leads_bind leads_state
  intro status
  split
  . exact leads_pure
  . exact leads_bind hstep fun _ => leads_modify

variable (hl : s.StepsLead I J)

include hl

theorem toBootstrapped : s.toBootstrapped.Leads I J := by
  apply reach
  apply leads_asPart _ hl.mark hl.markFailed
  exact leads_bind hl.install fun _ => leads_modify

theorem start : (s.start s.toBootstrapped).Leads I J := by
  apply leads_asPart _ hl.mark hl.markFailed
  apply leads_bind
  . apply leads_bind leads_state
    intro status
    split
    . exact hl.toBootstrapped
    . exact hl.prepareBoot
  . intro _
    split
    . exact leads_pure
    . exact hl.powerUp

theorem toStarted : s.toStarted.Leads I J := by
  apply reach
  apply leads_bind (reach hl.powerOff)
  intro _
  exact hl.start

theorem toBootloader : s.toBootloader.Leads I J := by
  have clock : (Program.clock : Drive Nat).Leads I J := by
    intro status now h hi
    rw [ensures_clock]
    exact hl.clock now h hi
  apply reach
  apply leads_bind clock
  intro startedAt
  apply leads_bind hl.toStarted
  intro _
  exact leads_bind (hl.interrupt startedAt) fun _ => leads_modify

theorem toShell : s.toShell.Leads I J := by
  apply reach
  exact leads_bind hl.toBootloader fun _ => hl.bootToShell

theorem drive (target : BootState) : (s.drive target).Leads I J := by
  cases target with
  | unknown => exact leads_raise hl.weaken
  | off => exact reach hl.powerOff
  | bootstrapped => exact hl.toBootstrapped
  | started => exact hl.toStarted
  | bootloader => exact hl.toBootloader
  | shell => exact hl.toShell

theorem perform (request : Request) : (s.perform request).Leads I J := by
  intro status now h hi
  cases request with
  | transition target =>
    apply ensures_transition.mpr
    apply (hl.drive target status now h hi).mono
    intro r _ _ _ hr
    rcases r with _ | e | a <;> exact hr
  | force target => exact leads_bind (hl.attach target) (fun _ => leads_modify) status now h hi

theorem session (hnil : I []) (session : Session s turns status now)
    : ∀ turn ∈ turns, J turn.trace ∧ (turn.result = some (.ok ()) → I turn.trace) := by
  induction session with
  | fresh => simp
  | @request turns before ended now ω w session request lab later ih =>
    intro turn hturn
    rcases List.mem_append.mp hturn with hearlier | hlast
    . exact ih turn hearlier
    . rw [List.mem_singleton.mp hlast]
      have performed := ensures_turn (hl.perform request before now [] hnil) lab w
      rcases hresult : (s.turn request lab w before now).result with _ | e | ⟨⟨⟩⟩
      . rw [hresult] at performed
        exact ⟨performed, nofun⟩
      . rw [hresult] at performed
        exact ⟨performed, nofun⟩
      . rw [hresult] at performed
        exact ⟨hl.weaken _ performed, fun _ => performed⟩

end StepsLead

namespace StepsKeep

variable {s : Strategy} {I : List Event → Prop}

theorem stepsLead (hk : s.StepsKeep I) : s.StepsLead I I where
  weaken _ := id
  mark := hk.mark
  markFailed := hk.mark
  clock := hk.clock
  powerOff := keeps_iff_leads.mp hk.powerOff
  install := keeps_iff_leads.mp hk.install
  prepareBoot := keeps_iff_leads.mp hk.prepareBoot
  powerUp := keeps_iff_leads.mp hk.powerUp
  interrupt startedAt := keeps_iff_leads.mp (hk.interrupt startedAt)
  bootToShell := keeps_iff_leads.mp hk.bootToShell
  attach target := keeps_iff_leads.mp (hk.attach target)

theorem session (hk : s.StepsKeep I) (hnil : I []) (session : Session s turns status now)
    : ∀ turn ∈ turns, I turn.trace := by
  intro turn hturn
  exact (hk.stepsLead.session hnil session turn hturn).left

end StepsKeep

end Strategy

end BringUp
