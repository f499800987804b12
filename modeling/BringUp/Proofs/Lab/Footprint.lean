import BringUp.Proofs.Lab.Ensures

/-!
This module contains what a program may touch of the world. The main statement is that nothing but
such calls is added to the events by a program that keeps within them, and that it leaves the state
alone.
-/

namespace BringUp

structure Footprint where
  devices : List Device
  parts : List Part

def Footprint.Covers (f : Footprint) : Call → Prop
  | .device c => c.device ∈ f.devices
  | .interrupt _ => .bootloader ∈ f.devices
  | .mark m => m.part ∈ f.parts
  | .host _ | .sleep _ | .clock => True

def Footprint.outside : Footprint := ⟨[], []⟩

theorem Footprint.Covers.mono {f g : Footprint} (hc : f.Covers c) (hd : f.devices ⊆ g.devices)
    (hp : f.parts ⊆ g.parts)
    : g.Covers c := by
  cases c with
  | device c => exact hd hc
  | interrupt limit => exact hd hc
  | mark m => exact hp hc
  | host c => trivial
  | sleep ms => trivial
  | clock => trivial

namespace Program

/--
Whether a program makes no calls but those in `K`, and never changes the state.
-/
def Within (K : Call → Prop) : Program σ ε α → Prop
  | .done _ => True
  | .get next => ∀ s, (next s).Within K
  | .set _ _ => False
  | .call c next => K c ∧ ∀ r, (next r).Within K

section

variable {σ ε ε' α β : Type} {K K' : Call → Prop}

theorem Within.mono {p : Program σ ε α} (hp : p.Within K) (hk : ∀ c, K c → K' c)
    : p.Within K' := by
  induction p with
  | done r => trivial
  | get next ih =>
    intro s
    exact ih s (hp s)
  | set s next ih => exact hp.elim
  | call c next ih =>
    constructor
    . exact hk c hp.left
    . intro r
      exact ih r (hp.right r)

theorem within_handle {p : Program σ ε α} {f : Except ε α → Program σ ε' β}
    (hp : p.Within K) (hf : ∀ r, (f r).Within K)
    : (p.handle f).Within K := by
  induction p with
  | done r => exact hf r
  | get next ih =>
    intro s
    exact ih s (hp s)
  | set s next ih => exact hp.elim
  | call c next ih =>
    constructor
    . exact hp.left
    . intro r
      exact ih r (hp.right r)

@[simp]
theorem within_bind {p : Program σ ε α} {f : α → Program σ ε β}
    (hp : p.Within K) (hf : ∀ a, (f a).Within K)
    : (p >>= f).Within K := by
  induction p with
  | done r =>
    cases r with
    | ok a => exact hf a
    | error e => trivial
  | get next ih =>
    intro s
    exact ih s (hp s)
  | set s next ih => exact hp.elim
  | call c next ih =>
    constructor
    . exact hp.left
    . intro r
      exact ih r (hp.right r)

theorem within_forEach {f : α → Program σ ε Unit} {as : List α}
    (hf : ∀ a ∈ as, (f a).Within K)
    : (forEach f as).Within K := by
  induction as with
  | nil => trivial
  | cons a as ih =>
    apply within_bind (hf a (List.mem_cons_self ..))
    intro _
    apply ih
    intro a ha
    exact hf a (List.mem_cons_of_mem _ ha)

@[simp]
theorem within_pure {a : α}
    : (pure a : Program σ ε α).Within K :=
  trivial

@[simp]
theorem within_raise {e : ε}
    : (raise e : Program σ ε α).Within K :=
  trivial

@[simp]
theorem within_ofExcept
    : (ofExcept r : Program σ ε α).Within K :=
  trivial

@[simp]
theorem within_state
    : (state : Program σ ε σ).Within K := by
  intro s
  trivial

@[simp]
theorem within_ask
    : (ask c : Program σ ε (no_index c.Reply)).Within K ↔ K c := by
  simp [ask, Within]

@[simp]
theorem within_device
    : (device c : Program σ Error (no_index c.Value)).Within K ↔ K (.device c) := by
  simp [device, Within]

@[simp]
theorem within_host
    : (host c : Program σ ε (no_index c.Reply)).Within K ↔ K (.host c) := by
  simp [host, Within]

@[simp]
theorem within_attempt {p : Program σ ε α} (hp : p.Within K)
    : (p.attempt : Program σ ε' (Except ε α)).Within K := by
  apply within_handle hp
  intro r
  trivial

@[simp]
theorem within_mapError {p : Program σ ε α} {f : ε → ε'} (hp : p.Within K)
    : (p.mapError f).Within K := by
  apply within_handle hp
  intro r
  cases r <;> trivial

@[simp]
theorem within_map {p : Program σ ε α} {f : α → β}
    : (f <$> p).Within K ↔ p.Within K := by
  induction p with
  | done r => cases r <;> rfl
  | get next ih => exact forall_congr' ih
  | set s next ih => rfl
  | call c next ih => exact and_congr_right fun _ => forall_congr' ih

@[simp]
theorem within_ite [Decidable c] {p q : Program σ ε α}
    : (if c then p else q).Within K ↔ (c → p.Within K) ∧ (¬c → q.Within K) := by
  split <;> simp_all

@[simp]
theorem within_ask_bind {f : c.Reply → Program σ ε α}
    : (Bind.bind (α := no_index c.Reply) (ask c) f).Within K ↔ K c ∧ ∀ r, (f r).Within K :=
  Iff.rfl

@[simp]
theorem within_device_bind {f : c.Value → Program σ Error α}
    : (Bind.bind (α := no_index c.Value) (device c) f).Within K ↔
        K (.device c) ∧ ∀ v, (f v).Within K := by
  constructor
  . intro hw
    exact ⟨hw.left, fun v => hw.right (.ok v)⟩
  . intro hw
    refine ⟨hw.left, fun r => ?_⟩
    cases r with
    | ok v => exact hw.right v
    | error e => trivial

theorem within_asPart {p : Program σ ε α} (hp : p.Within K) (hb : K (.mark (.begins part)))
    (he : ∀ success, K (.mark (.ends part success)))
    : (asPart part p).Within K := by
  apply within_bind (within_ask.mpr hb)
  intro _
  apply within_bind (within_attempt hp)
  intro r
  apply within_bind (within_ask.mpr (he _))
  intro _
  apply within_ofExcept

end

theorem Within.ensures {p : Program σ ε α} {Q : Post σ ε α} (hp : p.Within K)
    (hq : ∀ r now t, (∀ e ∈ t, K e.call) → Q r s now (h ++ t))
    : p.Ensures Q s now h := by
  induction p generalizing now h with
  | done r => simpa [Ensures] using hq (some r) now []
  | get next ih => exact ih s (hp s) hq
  | set s next ih => exact hp.elim
  | call c next ih =>
    constructor
    . intro _
      apply hq
      simpa using hp.left
    . intro stop r _
      apply ih r (hp.right r)
      intro r' now' t ht
      rw [List.append_assoc]
      apply hq
      simpa using ⟨hp.left, ht⟩

end Program

end BringUp
