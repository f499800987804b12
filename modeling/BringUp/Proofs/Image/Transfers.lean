import BringUp.Image.Writer
import BringUp.Proofs.Lab.Footprint

/-!
This module contains which parts of an image are taken to the board. The main statement is that
writing and sending take the planned parts in order, up to the first that fails.
-/

namespace BringUp

open Program

def DeviceCall.transfers : DeviceCall → Bool
  | .writeImage _ _ | .writeFiles _ _ | .emulate _ | .load _ _ => true
  | _ => false

def Call.transfer? : Call → Option DeviceCall
  | .device c => if c.transfers then some c else none
  | _ => none

def Trace.transfers (t : List Event) : List DeviceCall :=
  t.filterMap fun e => e.call.transfer?

def PlannedWrite.transfer (p : PlannedWrite) : DeviceCall :=
  match p.target with
  | .image t => .writeImage p.source t
  | .files t => .writeFiles [p.source] t
  | .emulator => .emulate p.source

def PlannedSend.transfer (p : PlannedSend) : DeviceCall := .load p.source p.phase

open Trace

@[simp]
theorem Trace.transfers_append : transfers (h ++ t) = transfers h ++ transfers t :=
  List.filterMap_append ..

theorem Trace.transfers_eq_nil (ht : ∀ e ∈ t, e.call.transfer? = none) : transfers t = [] :=
  List.filterMap_eq_nil_iff.mpr ht

/--
Whatever the lab does, a run of the program takes the parts to the board by these calls, in order,
and by all of them if it ends with a value.
-/
def Program.Transfers (calls : List DeviceCall) (p : Program σ ε α) : Prop :=
  ∀ s now, p.Ensures
    (.either (fun _ _ _ t => transfers t = calls) fun _ _ t => transfers t <+: calls)
    s now []

section

variable {σ ε α β : Type} {calls rest : List DeviceCall}

theorem transfers_bind_value {p : Program σ ε α} {f : α → Program σ ε β} {value : α → Prop}
    (hp : p.Transfers calls)
    (hv : ∀ s now, p.Ensures (.either (fun a _ _ _ => value a) fun _ _ _ => True) s now [])
    (hf : ∀ a, value a → (f a).Transfers rest)
    : (p >>= f).Transfers (calls ++ rest) := by
  intro s now
  rw [ensures_bind]
  apply ((hp s now).and (hv s now)).mono
  rintro r s now h ⟨hr, hvalue⟩
  rcases r with _ | e | a
  . exact hr.trans (List.prefix_append ..)
  . exact hr.trans (List.prefix_append ..)
  . rw [Post.andThen_ok, ensures_iff_nil]
    have taken : transfers h = calls := hr
    apply (hf a hvalue s now).mono
    intro r _ _ t ht
    rcases r with _ | e | b
    . simpa [taken] using ht
    . simpa [taken] using ht
    . simpa [taken] using ht

theorem transfers_bind {p : Program σ ε α} {f : α → Program σ ε β} (hp : p.Transfers calls)
    (hf : ∀ a, (f a).Transfers rest)
    : (p >>= f).Transfers (calls ++ rest) :=
  transfers_bind_value hp (fun _ _ => ensures_trivial_either p) fun a (_ : True) => hf a

theorem ensures_idle_transfers {p : Program σ ε α} (hp : p.Within fun c => c.transfer? = none)
    : p.Ensures (fun _ _ _ t => transfers t = transfers h) s now h := by
  apply hp.ensures
  intro _ _ t ht
  rw [transfers_append, transfers_eq_nil ht, List.append_nil]

theorem transfers_of_within {p : Program σ ε α} (hp : p.Within fun c => c.transfer? = none)
    : p.Transfers [] := by
  intro s now
  apply (ensures_idle_transfers hp).mono
  intro r _ _ t ht
  have idle : transfers t = [] := ht
  rcases r with _ | e | a <;> simp [idle]

theorem within_then_transfers {p : Program σ ε α} {f : α → Program σ ε β}
    (hp : p.Within fun c => c.transfer? = none) (hf : ∀ a, (f a).Transfers calls)
    : (p >>= f).Transfers calls :=
  transfers_bind (transfers_of_within hp) hf

theorem transfers_raise {e : ε} : (raise e : Program σ ε α).Transfers calls :=
  fun _ _ => List.nil_prefix ..

theorem transfers_device {c : DeviceCall} (hc : c.transfers = true)
    : Transfers (α := no_index c.Value) (σ := σ) [c] (device c) := by
  intro s now
  have taken (start stop : Nat) (reply : Option (Call.device c).Reply)
      : transfers [⟨.device c, start, stop, reply⟩] = [c] := by
    simp [transfers, Call.transfer?, hc]
  simp [taken]

theorem transfers_mapError {p : Program σ ε α} {f : ε → ε'} (hp : p.Transfers calls)
    : (p.mapError f).Transfers calls := by
  intro s now
  rw [ensures_mapError]
  apply (hp s now).mono
  intro r _ _ _ hr
  rcases r with _ | e | a <;> exact hr

theorem transfers_run {p : Program σ ε α} (hp : p.Transfers calls) (lab : Lab ω) (s : σ) (w : ω)
    (now : Nat)
    : transfers (p.run lab none s w now).trace <+: calls ∧
        ∀ a, (p.run lab none s w now).result = some (.ok a) →
          transfers (p.run lab none s w now).trace = calls := by
  have run := (hp s now).run lab w
  rw [List.nil_append] at run
  generalize (p.run lab none s w now).result = result at run ⊢
  rcases result with _ | e | a
  . exact ⟨run, by simp⟩
  . exact ⟨run, by simp⟩
  . have taken : transfers (p.run lab none s w now).trace = calls := run
    exact ⟨taken ▸ List.prefix_rfl, fun _ _ => taken⟩

theorem transfers_attempt {p : Program σ ε α} {f : Except ε α → Program σ ε' β}
    (hp : p.Transfers calls) (hidle : ∀ r, (f r).Within fun c => c.transfer? = none)
    (hfails : ∀ e s now h,
      (f (.error e)).Ensures (.either (fun _ _ _ _ => False) fun _ _ _ => True) s now h)
    : (p.attempt >>= f).Transfers calls := by
  intro s now
  rw [ensures_bind, ensures_attempt]
  apply (hp s now).mono
  intro r s now h hr
  rcases r with _ | e | a
  . exact hr
  . have tried : transfers h <+: calls := hr
    apply ((hfails e s now h).and (ensures_idle_transfers (hidle (.error e)))).mono
    rintro r _ _ t ⟨failed, idle⟩
    have still : transfers t <+: calls := idle ▸ tried
    rcases r with _ | e | b
    . exact still
    . exact still
    . exact failed.elim
  . have taken : transfers h = calls := hr
    apply (ensures_idle_transfers (hidle (.ok a))).mono
    intro r _ _ t idle
    have still : transfers t = calls := idle.trans taken
    rcases r with _ | e | b
    . exact still ▸ List.prefix_rfl
    . exact still ▸ List.prefix_rfl
    . exact still

theorem transfers_asPart {p : Program σ ε α} (hp : p.Transfers calls)
    : (asPart part p).Transfers calls := by
  apply within_then_transfers
  . simp [mark, Call.transfer?]
  . intro _
    apply transfers_attempt hp
    . intro r
      simp [mark, Call.transfer?]
    . intro e s now h
      simp

theorem transfers_forEach {f : β → Program σ ε Unit} {call : β → DeviceCall} (bs : List β)
    (hf : ∀ b, (f b).Transfers [call b])
    : (forEach f bs).Transfers (bs.map call) := by
  induction bs with
  | nil => exact transfers_of_within trivial
  | cons b bs ih => exact transfers_bind (hf b) fun _ => ih

end

namespace Writer

variable {σ : Type} (w : Writer)

theorem writePart_transfers (p : PlannedWrite)
    : (w.writePart p : Program σ Error Unit).Transfers [p.transfer] := by
  unfold writePart PlannedWrite.transfer
  cases p.target with
  | image t => exact transfers_device rfl
  | files t => exact transfers_device rfl
  | emulator =>
    dsimp only
    split
    . apply within_then_transfers
      . simp [Call.transfer?, DeviceCall.transfers]
      . intro _
        exact transfers_device rfl
    . exact transfers_raise

theorem writeParts_transfers (plan : List PlannedWrite)
    : (w.writeParts plan : Program σ Error Unit).Transfers (plan.map PlannedWrite.transfer) :=
  transfers_forEach plan fun p => transfers_mapError (w.writePart_transfers p)

theorem ensures_firstError (first : Error) (second : Except Error Unit)
    : (ofExcept (firstError (.error first) second) : Program σ Error Unit).Ensures
        (.either (fun _ _ _ _ => False) fun _ _ _ => True) s now h :=
  trivial

theorem writePlan_transfers (plan : List PlannedWrite)
    : (w.writePlan plan : Program σ Error Unit).Transfers (plan.map PlannedWrite.transfer) := by
  unfold writePlan
  split
  . split
    . apply within_then_transfers
      . simp [Call.transfer?, DeviceCall.transfers]
      . intro _
        apply transfers_attempt (w.writeParts_transfers plan)
        . intro r
          simp [Call.transfer?, DeviceCall.transfers]
        . intro e s now h
          apply ensures_last
          intro released s now h
          exact ensures_firstError e released
    . exact transfers_raise
  . exact w.writeParts_transfers plan

theorem writeCard_transfers (plan : List PlannedWrite)
    : (w.writeCard plan : Program σ Error Unit).Transfers (plan.map PlannedWrite.transfer) := by
  unfold writeCard
  split
  . apply transfers_attempt
    . apply within_then_transfers
      . simp [takeCard, Call.transfer?, DeviceCall.transfers]
      . intro _
        exact w.writePlan_transfers plan
    . intro r
      simp [sleep, Call.transfer?, DeviceCall.transfers]
    . intro e s now h
      apply ensures_last
      intro _ s now h
      apply ensures_last
      intro restored s now h
      exact ensures_firstError e restored
  . exact w.writePlan_transfers plan

def writes (dir : String) : List DeviceCall :=
  ((w.planWrite dir).toOption.getD []).map PlannedWrite.transfer

def sends (dir : String) : List DeviceCall :=
  ((w.planSend dir).toOption.getD []).map PlannedSend.transfer

theorem write_transfers (dir : String)
    : (w.write dir : Program σ Error Unit).Transfers (w.writes dir) := by
  unfold write writes
  cases w.planWrite dir with
  | error e => exact transfers_raise
  | ok plan => exact transfers_asPart (w.writeCard_transfers plan)

theorem sendParts_transfers (plan : List PlannedSend)
    : (w.sendParts plan : Program σ Error Unit).Transfers (plan.map PlannedSend.transfer) := by
  have executed : ((device .execute).mapError fun e =>
      .sendFailed "execute" w.method.name e.message : Program σ Error Unit).Transfers [] :=
    transfers_of_within (within_mapError (by simp [Call.transfer?, DeviceCall.transfers]))
  unfold sendParts
  apply within_then_transfers
  . simp [Call.transfer?, DeviceCall.transfers]
  . intro _
    rw [← List.append_nil (plan.map _)]
    apply transfers_bind
    . exact transfers_forEach plan fun p => transfers_mapError (transfers_device rfl)
    . intro _
      exact executed

theorem send_transfers (dir : String)
    : (w.send dir : Program σ Error Unit).Transfers (w.sends dir) := by
  unfold send sends
  cases w.planSend dir with
  | error e => exact transfers_raise
  | ok plan =>
    change Program.Transfers _ (if w.usbLoader then asPart .send (w.sendParts plan) else _)
    split
    . exact transfers_asPart (w.sendParts_transfers plan)
    . exact transfers_raise

end Writer

end BringUp
