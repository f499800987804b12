import BringUp.Proofs.Lab.Footprint
import BringUp.Proofs.Lab.Trace

/-!
This module contains what a program keeps true of the events, whatever it ends with, and what it
keeps true of them as long as it does not fail. The main statement is that a program keeps what all
its calls keep.
-/

namespace BringUp

namespace Program

/--
Whatever the lab does and however a run of the program ends, `I` holds of the events afterwards if
it held of them before.
-/
def Keeps (I : List Event → Prop) (p : Program σ ε α) : Prop :=
  ∀ s now h, I h → p.Ensures (fun _ _ _ h' => I h') s now h

section

variable {σ ε α β : Type} {I : List Event → Prop}

theorem keeps_modify {f : σ → σ}
    : (modify f : Program σ ε Unit).Keeps I := by
  intro s now h hi
  exact hi

theorem Ensures.then_keeps {p : Program σ ε α} {f : α → Program σ ε β}
    (hp : p.Ensures (fun _ _ _ h => I h) s now h) (hf : ∀ a, (f a).Keeps I)
    : (p >>= f).Ensures (fun _ _ _ h => I h) s now h := by
  rw [ensures_bind]
  apply hp.mono
  intro r s now h hi
  rcases r with _ | e | a
  . exact hi
  . exact hi
  . exact hf a s now h hi

theorem keeps_bind {p : Program σ ε α} {f : α → Program σ ε β} (hp : p.Keeps I)
    (hf : ∀ a, (f a).Keeps I)
    : (p >>= f).Keeps I := by
  intro s now h hi
  exact (hp s now h hi).then_keeps hf

theorem Within.keeps {K : Call → Prop} {p : Program σ ε α} (hp : p.Within K)
    (hi : ∀ h t, I h → (∀ e ∈ t, K e.call) → I (h ++ t))
    : p.Keeps I := by
  intro s now h hh
  apply hp.ensures
  intro r now t ht
  exact hi h t hh ht

end

/--
Whatever the lab does, if `I` held of the events before a run of the program, it holds of them after
a run that ends with a value, and `J` holds of them after any other run.
-/
def Leads (I J : List Event → Prop) (p : Program σ ε α) : Prop :=
  ∀ s now h, I h → p.Ensures (.either (fun _ _ _ h' => I h') fun _ _ h' => J h') s now h

section

variable {σ ε α β : Type} {I J : List Event → Prop}

theorem keeps_iff_leads {p : Program σ ε α}
    : p.Keeps I ↔ p.Leads I I := by
  have same : (Post.either (fun _ _ _ h => I h) fun _ _ h => I h : Post σ ε α) =
      fun _ _ _ h => I h := by
    funext r
    rcases r with _ | e | a <;> rfl
  unfold Keeps Leads
  rw [same]

theorem leads_pure {a : α}
    : (pure a : Program σ ε α).Leads I J := by
  intro s now h hi
  exact hi

theorem leads_raise {e : ε} (hij : ∀ h, I h → J h)
    : (raise e : Program σ ε α).Leads I J := by
  intro s now h hi
  exact hij h hi

theorem leads_state
    : (state : Program σ ε σ).Leads I J := by
  intro s now h hi
  exact hi

theorem leads_modify {f : σ → σ}
    : (modify f : Program σ ε Unit).Leads I J := by
  intro s now h hi
  exact hi

theorem leads_bind {p : Program σ ε α} {f : α → Program σ ε β} (hp : p.Leads I J)
    (hf : ∀ a, (f a).Leads I J)
    : (p >>= f).Leads I J := by
  intro s now h hi
  apply (hp s now h hi).andThen
  intro a s now h hi
  exact hf a s now h hi

theorem leads_asPart {p : Program σ ε α} (hp : p.Leads I J)
    (hi : ∀ m now h, I h → I (h ++ [⟨.mark m, now, now, some ()⟩]))
    (hj : ∀ m now h, J h → J (h ++ [⟨.mark m, now, now, some ()⟩]))
    : (asPart part p).Leads I J := by
  intro s now h hh
  apply ensures_asPart_either
  . apply (hp s now _ (hi _ _ _ hh)).mono_value
    intro _ _ _ _ hh
    exact hi _ _ _ hh
  . intro _ _ _ hh
    exact hj _ _ _ hh

theorem Within.leads {K : Call → Prop} {p : Program σ ε α} (hp : p.Within K)
    (hij : ∀ h, I h → J h) (hi : ∀ h t, I h → (∀ e ∈ t, K e.call) → I (h ++ t))
    : p.Leads I J := by
  intro s now h hh
  apply hp.ensures
  intro r now t ht
  have added := hi h t hh ht
  rcases r with _ | e | a
  . exact hij _ added
  . exact hij _ added
  . exact added

end

end Program

end BringUp
