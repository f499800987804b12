import BringUp.Proofs.Lab.Footprint
import Mathlib.Data.List.Induction

/-!
This module contains views of a trace: what was set by the last call that succeeded in setting it,
and what holds of every event because of the events before it.
-/

namespace BringUp

def Event.success? : Event → Option DeviceCall
  | ⟨.device c, _, _, some (.ok _)⟩ => some c
  | ⟨.interrupt _, _, _, some (some (.ok ()))⟩ => some (.activate .bootloader)
  | _ => none

namespace Trace

/--
What the last of the successful calls has set, among those that set anything.
-/
def last (setting : DeviceCall → Option β) (t : List Event) : Option β :=
  t.reverse.findSome? fun e => e.success?.bind setting

variable {setting : DeviceCall → Option β} {h t : List Event}

theorem last_cons : last setting (e :: t) = (last setting t).or (e.success?.bind setting) := by
  simp [last, List.findSome?_append]

theorem last_append : last setting (h ++ t) = (last setting t).or (last setting h) := by
  simp [last, List.findSome?_append]

def Unset (setting : DeviceCall → Option β) : Call → Prop
  | .device c => setting c = none
  | .interrupt _ => setting (.activate .bootloader) = none
  | _ => True

theorem last_eq_none (ht : ∀ e ∈ t, Unset setting e.call) : last setting t = none := by
  rw [last, List.findSome?_eq_none_iff]
  intro e he
  have unset := ht e (List.mem_reverse.mp he)
  unfold Event.success?
  split
  . exact unset
  . exact unset
  . rfl

theorem last_append_unset (ht : ∀ e ∈ t, Unset setting e.call)
    : last setting (h ++ t) = last setting h := by
  rw [last_append, last_eq_none ht, Option.none_or]

def Begun (part : Part) (t : List Event) : Prop :=
  ∃ e ∈ t, e.call = .mark (.begins part)

def During (part : Part) (t : List Event) : Prop :=
  Begun part t ∧ ∀ e ∈ t, ∀ success, e.call ≠ .mark (.ends part success)

theorem begun_append : Begun part (h ++ t) ↔ Begun part h ∨ Begun part t := by
  simp [Begun, or_and_right, exists_or]

theorem During.append (hh : During part h)
    (ht : ∀ e ∈ t, ∀ success, e.call ≠ .mark (.ends part success))
    : During part (h ++ t) :=
  ⟨begun_append.mpr (.inl hh.left), List.forall_mem_append.mpr ⟨hh.right, ht⟩⟩

theorem append_eq_append_cons_iff {e : Event}
    : h ++ t = before ++ e :: after ↔
        (∃ rest, h = before ++ e :: rest ∧ after = rest ++ t) ∨
          ∃ front, before = h ++ front ∧ t = front ++ e :: after := by
  rw [List.append_eq_append_iff]
  constructor
  . rintro (⟨front, hbefore, ht⟩ | ⟨rest, hh, hafter⟩)
    . exact .inr ⟨front, hbefore, ht⟩
    . cases rest with
      | nil => exact .inr ⟨[], by simp [hh], by simp [hafter]⟩
      | cons x rest =>
        obtain ⟨rfl, rfl⟩ : e = x ∧ after = rest ++ t := by simpa using hafter
        exact .inl ⟨rest, hh, rfl⟩
  . rintro (⟨rest, rfl, rfl⟩ | ⟨front, rfl, rfl⟩)
    . exact .inr ⟨e :: rest, rfl, rfl⟩
    . exact .inl ⟨front, rfl, rfl⟩

def Always (allowed : List Event → Event → Prop) (t : List Event) : Prop :=
  ∀ before e after, t = before ++ e :: after → allowed before e

variable {allowed : List Event → Event → Prop}

theorem always_nil : Always allowed [] := by
  intro before e after hsplit
  simp at hsplit

theorem Always.append (hh : Always allowed h)
    (ht : ∀ before e after, t = before ++ e :: after → allowed (h ++ before) e)
    : Always allowed (h ++ t) := by
  intro before e after hsplit
  rcases append_eq_append_cons_iff.mp hsplit with ⟨rest, hfirst, _⟩ | ⟨front, rfl, hsecond⟩
  . exact hh before e rest hfirst
  . exact ht front e after hsecond

theorem Always.concat (hh : Always allowed h) (he : allowed h e) : Always allowed (h ++ [e]) := by
  apply hh.append
  intro before e' after hsplit
  have hnil : before = [] ∧ e = e' ∧ after = [] := by
    cases before with
    | nil => simpa [eq_comm] using hsplit
    | cons x before => simp at hsplit
  obtain ⟨rfl, rfl, rfl⟩ := hnil
  simpa using he

theorem countP_le_one {p : Event → Bool}
    (ht : ∀ before e after, t = before ++ e :: after → p e → before.countP p = 0)
    : t.countP p ≤ 1 := by
  induction t using List.reverseRecOn with
  | nil => simp
  | append_singleton t e ih =>
    rw [List.countP_append, List.countP_singleton]
    split
    . next hp => simp [ht t e [] rfl hp]
    . apply ih
      rintro before x after rfl hx
      exact ht before x (after ++ [e]) (by simp) hx

end Trace

end BringUp
