import BringUp.Proofs.Lab.Ensures

/-!
This module contains a relation between runs that make the same calls but look at the clock at
different moments. The main statement is that it is enough to compare two programs part by part.
-/

namespace BringUp

def Trace.unclocked (t : List Event) : List Event :=
  t.filter fun e => e.call ≠ .clock

@[simp]
theorem Trace.unclocked_append (h t : List Event)
    : unclocked (h ++ t) = unclocked h ++ unclocked t := by
  simp [unclocked]

inductive EndAlike (V : α → σ → β → σ → Prop) (F : σ → σ → Prop)
    : Option (Except ε α) → σ → Option (Except ε β) → σ → Prop where
  | value (h : V a s b s') : EndAlike V F (some (.ok a)) s (some (.ok b)) s'
  | error (h : F s s') : EndAlike V F (some (.error e)) s (some (.error e)) s'
  | givenUp (h : F s s') : EndAlike V F none s none s'

structure Run.Alike (V : α → σ → β → σ → Prop) (F : σ → σ → Prop) (r : Run σ ω ε α)
    (r' : Run σ ω ε β) : Prop where
  ends : EndAlike V F r.result r.state r'.result r'.state
  lab : r.lab = r'.lab
  now : r.now = r'.now
  trace : Trace.unclocked r.trace = Trace.unclocked r'.trace

namespace Program

variable {σ ε α β γ δ : Type} {V : α → σ → β → σ → Prop} {F : σ → σ → Prop}
variable {p : Program σ ε α} {q : Program σ ε β} {s s' : σ}

/--
In every lab, a program run from state `s` and another one run from `s'` do alike.
-/
def Alike (V : α → σ → β → σ → Prop) (F : σ → σ → Prop) (p : Program σ ε α) (s : σ)
    (q : Program σ ε β) (s' : σ) : Prop :=
  ∀ (ω : Type) (lab : Lab ω) (w : ω) (now : Nat),
    (p.run lab none s w now).Alike V F (q.run lab none s' w now)

def Same (a : α) (s : σ) (b : α) (s' : σ) : Prop := a = b ∧ s = s'

theorem Alike.mono {V' : α → σ → β → σ → Prop} (h : Alike V F p s q s')
    (hv : ∀ a t b t', V a t b t' → V' a t b t')
    : Alike V' F p s q s' := by
  intro ω lab w now
  obtain ⟨ends, hlab, hnow, htrace⟩ := h ω lab w now
  refine ⟨?_, hlab, hnow, htrace⟩
  generalize (p.run lab none s w now).result = r at ends
  generalize (q.run lab none s' w now).result = r' at ends
  cases ends with
  | value h => exact .value (hv _ _ _ _ h)
  | error h => exact .error h
  | givenUp h => exact .givenUp h

theorem alike_bind {V' : γ → σ → δ → σ → Prop} {f : α → Program σ ε γ} {g : β → Program σ ε δ}
    (hpq : Alike V F p s q s') (hfg : ∀ a t b t', V a t b t' → Alike V' F (f a) t (g b) t')
    : Alike V' F (p >>= f) s (q >>= g) s' := by
  intro ω lab w now
  have hp : (p >>= f).run lab none s w now =
      (p.run lab none s w now).andThen fun a => (f a).run lab none :=
    run_bind ..
  have hq : (q >>= g).run lab none s' w now =
      (q.run lab none s' w now).andThen fun b => (g b).run lab none :=
    run_bind ..
  obtain ⟨ends, hlab, hnow, htrace⟩ := hpq ω lab w now
  rw [hp, hq]
  generalize p.run lab none s w now = r at ends hlab hnow htrace
  generalize q.run lab none s' w now = r' at ends hlab hnow htrace
  obtain ⟨result, t, x, time, h⟩ := r
  obtain ⟨result', t', x', time', h'⟩ := r'
  dsimp only at ends hlab hnow htrace
  subst hlab hnow
  cases ends with
  | value hv =>
    obtain ⟨ends', hlab', hnow', htrace'⟩ := hfg _ _ _ _ hv _ lab x time
    refine ⟨ends', hlab', hnow', ?_⟩
    simp only [Run.andThen, Trace.unclocked_append, htrace, htrace']
  | error hf => exact ⟨.error hf, rfl, rfl, htrace⟩
  | givenUp hf => exact ⟨.givenUp hf, rfl, rfl, htrace⟩

theorem alike_pure (h : V a s b s')
    : Alike V F (pure a : Program σ ε α) s (pure b : Program σ ε β) s' := by
  intro ω lab w now
  exact ⟨.value h, rfl, rfl, rfl⟩

theorem alike_raise {e : ε} (h : F s s')
    : Alike V F (raise e : Program σ ε α) s (raise e : Program σ ε β) s' := by
  intro ω lab w now
  exact ⟨.error h, rfl, rfl, rfl⟩

theorem alike_modify {V : Unit → σ → Unit → σ → Prop} {f g : σ → σ} (h : V () (f s) () (g s'))
    : Alike V F (modify f : Program σ ε Unit) s (modify g : Program σ ε Unit) s' := by
  intro ω lab w now
  exact ⟨.value h, rfl, rfl, rfl⟩

theorem alike_state_left {f : σ → Program σ ε α} (h : Alike V F (f s) s q s')
    : Alike V F (state >>= f) s q s' := by
  intro ω lab w now
  exact h ω lab w now

theorem alike_state_right {f : σ → Program σ ε β} (h : Alike V F p s (f s') s')
    : Alike V F p s (state >>= f) s' := by
  intro ω lab w now
  exact h ω lab w now

theorem alike_clock_left {f : Nat → Program σ ε α} (h : ∀ time, Alike V F (f time) s q s')
    : Alike V F (clock >>= f) s q s' := by
  intro ω lab w now
  obtain ⟨ends, hlab, hnow, htrace⟩ := h now ω lab w now
  refine ⟨ends, hlab, hnow, ?_⟩
  rw [← htrace]
  rfl

theorem alike_clock_right {f : Nat → Program σ ε β} (h : ∀ time, Alike V F p s (f time) s')
    : Alike V F p s (clock >>= f) s' := by
  intro ω lab w now
  obtain ⟨ends, hlab, hnow, htrace⟩ := h now ω lab w now
  refine ⟨ends, hlab, hnow, ?_⟩
  rw [htrace]
  rfl

theorem alike_device {V : c.Value → σ → c.Value → σ → Prop} {F : σ → σ → Prop}
    (hv : ∀ a, V a s a s') (hf : F s s')
    : Alike V F (device c) s (device c) s' := by
  intro ω lab w now
  simp only [device, run]
  split
  . refine ⟨?_, rfl, rfl, rfl⟩
    cases (lab.answer w now (.device c)).reply with
    | error e => exact .error hf
    | ok a => exact .value (hv a)
  . exact ⟨.givenUp hf, rfl, rfl, rfl⟩

theorem run_attempt {ε' : Type} (p : Program σ ε α) (lab : Lab ω) (deadline : Option Nat) (s : σ)
    (w : ω) (now : Nat)
    : (p.attempt : Program σ ε' (Except ε α)).run lab deadline s w now =
        let r := p.run lab deadline s w now
        ⟨r.result.map .ok, r.state, r.lab, r.now, r.trace⟩ := by
  unfold attempt
  induction p generalizing s w now with
  | done r => rfl
  | get next ih => simp only [handle, run, ih]
  | set s next ih => simp only [handle, run, ih]
  | call c next ih =>
    simp only [handle, run]
    split
    . simp only [ih]
    . rfl

section

variable (hf : Equivalence F)

include hf

theorem alike_refl (p : Program σ ε α) : Alike Same F p s p s := by
  intro ω lab w now
  refine ⟨?_, rfl, rfl, rfl⟩
  rcases (p.run lab none s w now).result with _ | e | a
  . exact .givenUp (hf.refl _)
  . exact .error (hf.refl _)
  . exact .value ⟨rfl, rfl⟩

theorem alike_ensures {P : α → σ → Prop}
    (hp : ∀ now, p.Ensures (.either (fun a t _ _ => P a t) fun _ _ _ => True) s now [])
    : Alike (fun a t b t' => a = b ∧ t = t' ∧ P a t) F p s p s := by
  intro ω lab w now
  refine ⟨?_, rfl, rfl, rfl⟩
  have ended := (hp now).run lab w
  generalize (p.run lab none s w now).result = r at ended
  rcases r with _ | e | a
  . exact .givenUp (hf.refl _)
  . exact .error (hf.refl _)
  . exact .value ⟨rfl, rfl, ended⟩

theorem Alike.symm (h : Alike V F p s q s')
    : Alike (fun b t' a t => V a t b t') F q s' p s := by
  intro ω lab w now
  obtain ⟨ends, hlab, hnow, htrace⟩ := h ω lab w now
  refine ⟨?_, hlab.symm, hnow.symm, htrace.symm⟩
  generalize (p.run lab none s w now).result = r at ends
  generalize (q.run lab none s' w now).result = r' at ends
  cases ends with
  | value h => exact .value h
  | error h => exact .error (hf.symm h)
  | givenUp h => exact .givenUp (hf.symm h)

theorem Alike.trans {V' : β → σ → γ → σ → Prop} {V'' : α → σ → γ → σ → Prop}
    {q' : Program σ ε γ} {s'' : σ} (h : Alike V F p s q s') (h' : Alike V' F q s' q' s'')
    (hv : ∀ a t b t' c t'', V a t b t' → V' b t' c t'' → V'' a t c t'')
    : Alike V'' F p s q' s'' := by
  intro ω lab w now
  obtain ⟨ends, hlab, hnow, htrace⟩ := h ω lab w now
  obtain ⟨ends', hlab', hnow', htrace'⟩ := h' ω lab w now
  refine ⟨?_, hlab.trans hlab', hnow.trans hnow', htrace.trans htrace'⟩
  generalize (p.run lab none s w now).result = r at ends
  generalize (q.run lab none s' w now).result = r' at ends ends'
  generalize (q'.run lab none s'' w now).result = r'' at ends'
  cases ends with
  | value h =>
    cases ends' with
    | value h' => exact .value (hv _ _ _ _ _ _ h h')
  | error h =>
    cases ends' with
    | error h' => exact .error (hf.trans h h')
  | givenUp h =>
    cases ends' with
    | givenUp h' => exact .givenUp (hf.trans h h')

end

end Program

end BringUp
