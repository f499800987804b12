import BringUp.Proofs.Lab.FailStop

/-!
This module contains what programs do in healthy labs, where calls are replied to as is promised.
The main statement is that it is enough to go through the program call by call, with all replies
that keep the promise, to know how each run in such a lab ends. In particular it does end.
-/

namespace BringUp

abbrev Promise := (c : Call) → c.Reply → Prop

def Promise.Responsive (P : Promise) : Prop :=
  ∀ c r, P (.device c) r → ∃ v, r = .ok v

def Event.Keeps (P : Promise) (e : Event) : Prop :=
  ∃ r, e.reply = some r ∧ P e.call r

namespace Program

/--
If the replies keep the promise, a run from state `s` ends so that the postcondition holds of its
result and of the state then.
-/
def Yields (P : Promise) : Program σ ε α → (Except ε α → σ → Prop) → σ → Prop
  | .done r, Q, s => Q r s
  | .get next, Q, s => (next s).Yields P Q s
  | .set s next, Q, _ => next.Yields P Q s
  | .call c next, Q, s => ∀ r, P c r → (next r).Yields P Q s

def onValue (P : Promise) (f : α → Program σ ε β) (Q : Except ε β → σ → Prop)
    : Except ε α → σ → Prop
  | .ok a => (f a).Yields P Q
  | .error e => Q (.error e)

section

variable {σ ε ε' α β : Type} {P : Promise}

@[simp]
theorem onValue_ok {f : α → Program σ ε β} {Q : Except ε β → σ → Prop}
    : onValue P f Q (.ok a) = (f a).Yields P Q :=
  rfl

@[simp]
theorem onValue_error {f : α → Program σ ε β} {Q : Except ε β → σ → Prop}
    : onValue P f Q (.error e) = Q (.error e) :=
  rfl

theorem Yields.mono {p : Program σ ε α} {Q Q' : Except ε α → σ → Prop} (hp : p.Yields P Q s)
    (hq : ∀ r s, Q r s → Q' r s)
    : p.Yields P Q' s := by
  induction p generalizing s with
  | done r => exact hq r s hp
  | get next ih => exact ih s hp
  | set s next ih => exact ih hp
  | call c next ih =>
    intro r hr
    exact ih r (hp r hr)

theorem yields_bind' {p : Program σ ε α} {f : α → Program σ ε β} {Q : Except ε β → σ → Prop}
    : (p.bind f).Yields P Q s ↔ p.Yields P (onValue P f Q) s := by
  induction p generalizing s with
  | done r => cases r <;> rfl
  | get next ih => exact ih s
  | set s next ih => exact ih
  | call c next ih => exact forall_congr' fun r => imp_congr_right fun _ => ih r

@[simp]
theorem yields_bind {p : Program σ ε α} {f : α → Program σ ε β} {Q : Except ε β → σ → Prop}
    : (p >>= f).Yields P Q s ↔ p.Yields P (onValue P f Q) s :=
  yields_bind'

theorem yields_handle {p : Program σ ε α} {f : Except ε α → Program σ ε' β}
    {Q : Except ε' β → σ → Prop}
    : (p.handle f).Yields P Q s ↔ p.Yields P (fun r => (f r).Yields P Q) s := by
  induction p generalizing s with
  | done r => rfl
  | get next ih => exact ih s
  | set s next ih => exact ih
  | call c next ih => exact forall_congr' fun r => imp_congr_right fun _ => ih r

@[simp]
theorem yields_pure {a : α} {Q : Except ε α → σ → Prop}
    : (pure a : Program σ ε α).Yields P Q s ↔ Q (.ok a) s :=
  Iff.rfl

@[simp]
theorem yields_raise {e : ε} {Q : Except ε α → σ → Prop}
    : (raise e : Program σ ε α).Yields P Q s ↔ Q (.error e) s :=
  Iff.rfl

@[simp]
theorem yields_ofExcept {Q : Except ε α → σ → Prop}
    : (ofExcept r : Program σ ε α).Yields P Q s ↔ Q r s :=
  Iff.rfl

@[simp]
theorem yields_state {Q : Except ε σ → σ → Prop}
    : (state : Program σ ε σ).Yields P Q s ↔ Q (.ok s) s :=
  Iff.rfl

@[simp]
theorem yields_modify {f : σ → σ} {Q : Except ε Unit → σ → Prop}
    : (modify f : Program σ ε Unit).Yields P Q s ↔ Q (.ok ()) (f s) :=
  Iff.rfl

@[simp]
theorem yields_ask {c : Call} {Q : Except ε c.Reply → σ → Prop}
    : Yields (α := no_index c.Reply) P (ask c) Q s ↔ ∀ r, P c r → Q (.ok r) s :=
  Iff.rfl

@[simp]
theorem yields_device {c : DeviceCall} {Q : Except Error c.Value → σ → Prop}
    : Yields (α := no_index c.Value) P (device c) Q s ↔ ∀ r, P (.device c) r → Q r s :=
  Iff.rfl

@[simp]
theorem yields_host {c : HostCall} {Q : Except ε c.Reply → σ → Prop}
    : Yields (α := no_index c.Reply) P (host c) Q s ↔ ∀ r, P (.host c) r → Q (.ok r) s :=
  Iff.rfl

@[simp]
theorem yields_attempt {p : Program σ ε α} {Q : Except ε' (Except ε α) → σ → Prop}
    : (p.attempt : Program σ ε' (Except ε α)).Yields P Q s ↔
        p.Yields P (fun r => Q (.ok r)) s :=
  yields_handle

theorem yields_mapError {p : Program σ ε α} {f : ε → ε'} {Q : Except ε' α → σ → Prop}
    : (p.mapError f).Yields P Q s ↔ p.Yields P (fun r => Q (r.mapError f)) s := by
  rw [mapError, yields_handle]
  apply Iff.of_eq
  congr 1
  funext r
  cases r <;> rfl

theorem yields_asPart {p : Program σ ε α} {Q : Except ε α → σ → Prop} (hp : p.Yields P Q s)
    : (asPart part p).Yields P Q s := by
  simp only [asPart, mark, yields_bind, yields_ask, onValue_ok, yields_attempt]
  intro _ _
  apply hp.mono
  intro r s hq _ _
  exact hq

theorem yields_device_value {c : DeviceCall} {Q : Except Error c.Value → σ → Prop}
    (hP : P.Responsive) (hq : ∀ v, Q (.ok v) s)
    : Yields (α := no_index c.Value) P (Program.device c) Q s := by
  intro r hr
  obtain ⟨v, rfl⟩ := hP c r hr
  exact hq v

theorem yields_device_bind {c : DeviceCall} {f : c.Value → Program σ Error α}
    {Q : Except Error α → σ → Prop} (hP : P.Responsive) (hf : ∀ v, (f v).Yields P Q s)
    : (Bind.bind (α := no_index c.Value) (Program.device c) f).Yields P Q s := by
  rw [yields_bind]
  exact yields_device_value hP hf

end

section

variable {σ ε ε' α β : Type} {P : Promise}

abbrev Ends (P : Promise) (p : Program σ ε α) (r : Except ε α) (s : σ) : Prop :=
  p.Yields P (fun r' s' => r' = r ∧ s' = s) s

abbrev EndsWith (P : Promise) (p : Program σ ε α) (err? : Option ε) (s : σ) : Prop :=
  p.Yields P (fun r _ => errorOf r = err?) s

theorem Ends.bind {p : Program σ ε α} {f : α → Program σ ε β} {Q : Except ε β → σ → Prop}
    (hp : p.Ends P (.ok a) s) (hf : (f a).Yields P Q s)
    : (p >>= f).Yields P Q s := by
  rw [yields_bind]
  apply hp.mono
  rintro r s ⟨rfl, rfl⟩
  exact hf

theorem EndsWith.bind {p : Program σ ε α} {f : α → Program σ ε β}
    (hp : p.EndsWith P first s) (hf : ∀ a s, (f a).EndsWith P second s)
    : (p >>= f).EndsWith P (first.or second) s := by
  rw [EndsWith, yields_bind]
  apply hp.mono
  rintro (e | a) s rfl
  . rfl
  . exact hf a s

theorem EndsWith.andThen {p : Program σ ε α} {f : α → Program σ ε β}
    (hp : p.EndsWith P err? s) (hf : ∀ a s, (f a).EndsWith P none s)
    : (p >>= f).EndsWith P err? s := by
  have both := hp.bind hf
  rwa [Option.or_none] at both

theorem EndsWith.attempt_bind {p : Program σ ε α} {f : Except ε α → Program σ ε' β}
    (hp : p.EndsWith P err? s) (hf : ∀ r s, errorOf r = err? → (f r).EndsWith P err?' s)
    : (p.attempt >>= f).EndsWith P err?' s := by
  rw [EndsWith, yields_bind, yields_attempt]
  apply hp.mono
  intro r s hr
  exact hf r s hr

theorem ends_forEach {f : α → Program σ ε Unit} {as : List α}
    (hf : ∀ a ∈ as, (f a).Ends P (.ok ()) s)
    : (forEach f as).Ends P (.ok ()) s := by
  induction as with
  | nil => exact ⟨rfl, rfl⟩
  | cons a as ih =>
    apply (hf a (List.mem_cons_self ..)).bind
    apply ih
    intro b hb
    exact hf b (List.mem_cons_of_mem _ hb)

end

section

variable {σ ε α : Type} {P : Promise} {p : Program σ ε α} {Q : Except ε α → σ → Prop}

theorem Yields.ensures (hp : p.Yields P Q s)
    : p.Ensures
        (fun r s _ h => (∀ e ∈ h, e.Keeps P) → ∃ v, r = some v ∧ Q v s)
        s now h := by
  -- After a reply that breaks the promise nothing is left to show, as no event is ever taken back.
  induction p generalizing s now h with
  | done r =>
    intro _
    exact ⟨r, rfl, hp⟩
  | get next ih => exact ih s hp
  | set s next ih => exact ih hp
  | call c next ih =>
    constructor
    . intro _ hkept
      obtain ⟨r, hr, _⟩ := hkept _ (List.mem_append_right _ (List.mem_singleton_self _))
      cases hr
    . intro stop r _
      by_cases hr : P c r
      . exact ih r (hp r hr)
      . rw [ensures_iff_nil]
        apply (ensures_trivial (next r)).mono
        intro v s now t _ hkept
        obtain ⟨r', heq, hr'⟩ := hkept ⟨c, _, stop, some r⟩
          (List.mem_append_left _ (List.mem_append_right _ (List.mem_singleton_self _)))
        cases heq
        exact absurd hr' hr

theorem run_keeps {lab : Lab ω}
    (hlab : ∀ w now c, (lab.answer w now c).delay ≠ none ∧ P c (lab.answer w now c).reply)
    (p : Program σ ε α) (s : σ) (w : ω) (now : Nat)
    : ∀ e ∈ (p.run lab none s w now).trace, e.Keeps P := by
  induction p generalizing s w now with
  | done r => simp [run]
  | get next ih => exact ih s s w now
  | set s' next ih => exact ih s' w now
  | call c next ih =>
    obtain ⟨hd, hr⟩ := hlab w now c
    obtain ⟨d, hd⟩ := Option.ne_none_iff_exists'.mp hd
    simp only [run, hd, finish?, List.mem_cons, forall_eq_or_imp]
    constructor
    . exact ⟨_, rfl, hr⟩
    . apply ih

end

end Program

end BringUp
