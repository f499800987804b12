import BringUp.Lab.Run

/-!
This module contains a logic for programs. A program ensures a postcondition if all its runs meet
it, whatever the lab replies and however long it takes. The main statement is that it is enough to
go through the program call by call, without looking at any lab.
-/

namespace BringUp

def Call.Admits (now stop : Nat) : (c : Call) → c.Reply → Prop
  | .device _, _ | .host _, _ => now ≤ stop
  | .interrupt limit, some _ => now ≤ stop ∧ stop ≤ now + limit
  | .interrupt limit, none => stop = now + limit
  | .sleep ms, _ => stop = now + ms
  | .clock, time => stop = now ∧ time = now
  | .mark _, _ => stop = now

def Call.MayHang : Call → Prop
  | .device _ | .host _ => True
  | _ => False

theorem Call.Admits.le {c : Call} {r : c.Reply} (hr : c.Admits now stop r)
    : now ≤ stop := by
  cases c with
  | interrupt limit => cases r <;> simp_all [Admits]
  | clock => simp_all [Admits]
  | sleep ms => simp_all [Admits]
  | mark m => simp_all [Admits]
  | device c => exact hr
  | host c => exact hr

theorem Lab.admits_answer {lab : Lab ω} {c : Call} (hd : (lab.answer w now c).delay = some d)
    : c.Admits now (now + d) (lab.answer w now c).reply := by
  cases c with
  | interrupt limit =>
    simp only [answer] at hd ⊢
    split at hd
    . split at hd
      . next hle =>
        cases hd
        simp [hle, Call.Admits]
      . next hle =>
        cases hd
        simp [hle, Call.Admits]
    . cases hd
      simp [Call.Admits]
  | sleep ms => simp_all [answer, Call.Admits]
  | clock => simp_all [answer, Call.Admits]
  | mark m => simp_all [answer, Call.Admits]
  | device c => simp [Call.Admits]
  | host c => simp [Call.Admits]

theorem Lab.mayHang_of_delay_eq_none {lab : Lab ω} {c : Call}
    (hd : (lab.answer w now c).delay = none)
    : c.MayHang := by
  cases c with
  | interrupt limit =>
    simp only [answer] at hd
    split at hd
    . split at hd <;> cases hd
    . cases hd
  | sleep ms => cases hd
  | clock => cases hd
  | mark m => cases hd
  | device c => trivial
  | host c => trivial

namespace Program

/--
A condition on the end of a run: on its result, if there is one, on the state and the time then, and
on all events up to then.
-/
abbrev Post (σ ε α : Type) := Option (Except ε α) → σ → Nat → List Event → Prop

/--
Whatever the lab does, a run that goes on from state `s` at `now` after the events `h` ends so that
the postcondition holds. A call without a reply ends the run.
-/
def Ensures : Program σ ε α → Post σ ε α → σ → Nat → List Event → Prop
  | .done r, Q, s, now, h => Q (some r) s now h
  | .get next, Q, s, now, h => (next s).Ensures Q s now h
  | .set s next, Q, _, now, h => next.Ensures Q s now h
  | .call c next, Q, s, now, h =>
    (c.MayHang → Q none s now (h ++ [⟨c, now, now, none⟩])) ∧
      ∀ stop r, c.Admits now stop r → (next r).Ensures Q s stop (h ++ [⟨c, now, stop, some r⟩])

theorem Ensures.run {p : Program σ ε α} {Q : Post σ ε α} (lab : Lab ω) (w : ω)
    (hp : p.Ensures Q s now h)
    : Q (p.run lab none s w now).result (p.run lab none s w now).state
        (p.run lab none s w now).now (h ++ (p.run lab none s w now).trace) := by
  -- The history is general, as every call adds to it.
  induction p generalizing s w now h with
  | done r => simpa [Program.run, Ensures] using hp
  | get next ih => exact ih s w hp
  | set s next ih => exact ih w hp
  | call c next ih =>
    simp only [Program.run]
    cases hd : (lab.answer w now c).delay with
    | none =>
      have hang := hp.left (Lab.mayHang_of_delay_eq_none hd)
      simpa [finish?] using hang
    | some d =>
      have rest := ih _ (lab.answer w now c).lab (hp.right _ _ (Lab.admits_answer hd))
      simpa [finish?] using rest

namespace Post

variable {σ ε ε' α β : Type}

def andThen (f : α → Program σ ε β) (Q : Post σ ε β) : Post σ ε α
  | some (.ok a) => (f a).Ensures Q
  | some (.error e) => Q (some (.error e))
  | none => Q none

def andHandle (f : Except ε α → Program σ ε' β) (Q : Post σ ε' β) : Post σ ε α
  | some r => (f r).Ensures Q
  | none => Q none

def closing (part : Part) (Q : Post σ ε α) : Post σ ε α
  | some r, s, now, h =>
    Q (some r) s now (h ++ [⟨.mark (.ends part r.isOk), now, now, some ()⟩])
  | none, s, now, h => Q none s now h

def either (value : α → σ → Nat → List Event → Prop) (failure : σ → Nat → List Event → Prop)
    : Post σ ε α
  | some (.ok a) => value a
  | _ => failure

@[simp]
theorem andThen_ok (f : α → Program σ ε β) (Q : Post σ ε β)
    : andThen f Q (some (.ok a)) = (f a).Ensures Q :=
  rfl

@[simp]
theorem andThen_error (f : α → Program σ ε β) (Q : Post σ ε β)
    : andThen f Q (some (.error e)) = Q (some (.error e)) :=
  rfl

@[simp]
theorem andThen_none (f : α → Program σ ε β) (Q : Post σ ε β)
    : andThen f Q none = Q none :=
  rfl

@[simp]
theorem andHandle_some (f : Except ε α → Program σ ε' β) (Q : Post σ ε' β)
    : andHandle f Q (some r) = (f r).Ensures Q :=
  rfl

@[simp]
theorem andHandle_none (f : Except ε α → Program σ ε' β) (Q : Post σ ε' β)
    : andHandle f Q none = Q none :=
  rfl

@[simp]
theorem closing_some (Q : Post σ ε α)
    : closing part Q (some r) s now h =
        Q (some r) s now (h ++ [⟨.mark (.ends part r.isOk), now, now, some ()⟩]) :=
  rfl

@[simp]
theorem closing_none (Q : Post σ ε α)
    : closing part Q none = Q none :=
  rfl

variable {value : α → σ → Nat → List Event → Prop} {failure : σ → Nat → List Event → Prop}

@[simp]
theorem either_ok
    : (either value failure : Post σ ε α) (some (.ok a)) = value a :=
  rfl

@[simp]
theorem either_error
    : (either value failure : Post σ ε α) (some (.error e)) = failure :=
  rfl

@[simp]
theorem either_none
    : (either value failure : Post σ ε α) none = failure :=
  rfl

end Post

section

variable {σ ε ε' α β : Type}

theorem ensures_bind' {p : Program σ ε α} {f : α → Program σ ε β} {Q : Post σ ε β}
    : (p.bind f).Ensures Q s now h ↔ p.Ensures (.andThen f Q) s now h := by
  induction p generalizing s now h with
  | done r => cases r <;> rfl
  | get next ih => exact ih s
  | set s next ih => exact ih
  | call c next ih => simp only [bind, Ensures, ih, Post.andThen_none]

@[simp]
theorem ensures_bind {p : Program σ ε α} {f : α → Program σ ε β} {Q : Post σ ε β}
    : (p >>= f).Ensures Q s now h ↔ p.Ensures (.andThen f Q) s now h :=
  ensures_bind'

theorem ensures_handle {p : Program σ ε α} {f : Except ε α → Program σ ε' β} {Q : Post σ ε' β}
    : (p.handle f).Ensures Q s now h ↔ p.Ensures (.andHandle f Q) s now h := by
  induction p generalizing s now h with
  | done r => rfl
  | get next ih => exact ih s
  | set s next ih => exact ih
  | call c next ih => simp only [handle, Ensures, ih, Post.andHandle_none]

@[simp]
theorem ensures_done {Q : Post σ ε α}
    : (done r).Ensures Q s now h ↔ Q (some r) s now h :=
  Iff.rfl

@[simp]
theorem ensures_pure {a : α} {Q : Post σ ε α}
    : (pure a : Program σ ε α).Ensures Q s now h ↔ Q (some (.ok a)) s now h :=
  Iff.rfl

@[simp]
theorem ensures_raise {e : ε} {Q : Post σ ε α}
    : (raise e : Program σ ε α).Ensures Q s now h ↔ Q (some (.error e)) s now h :=
  Iff.rfl

@[simp]
theorem ensures_ofExcept {Q : Post σ ε α}
    : (ofExcept r : Program σ ε α).Ensures Q s now h ↔ Q (some r) s now h :=
  Iff.rfl

@[simp]
theorem ensures_state {Q : Post σ ε σ}
    : (state : Program σ ε σ).Ensures Q s now h ↔ Q (some (.ok s)) s now h :=
  Iff.rfl

@[simp]
theorem ensures_modify {f : σ → σ} {Q : Post σ ε Unit}
    : (modify f : Program σ ε Unit).Ensures Q s now h ↔ Q (some (.ok ())) (f s) now h :=
  Iff.rfl

@[simp]
theorem ensures_attempt {p : Program σ ε α} {Q : Post σ ε' (Except ε α)}
    : (p.attempt : Program σ ε' (Except ε α)).Ensures Q s now h ↔
        p.Ensures (.andHandle (fun r => done (.ok r)) Q) s now h :=
  ensures_handle

theorem ensures_mapError {p : Program σ ε α} {f : ε → ε'} {Q : Post σ ε' α}
    : (p.mapError f).Ensures Q s now h ↔
        p.Ensures (fun r => Q (r.map (Except.mapError f))) s now h := by
  rw [mapError, ensures_handle]
  apply Iff.of_eq
  congr 1
  funext r
  rcases r with _ | e | a <;> rfl

@[simp]
theorem ensures_device {c : DeviceCall} {Q : Post σ Error c.Value}
    : Ensures (α := no_index c.Value) (device c) Q s now h ↔
        Q none s now (h ++ [⟨.device c, now, now, none⟩]) ∧
          ∀ stop r, now ≤ stop → Q (some r) s stop (h ++ [⟨.device c, now, stop, some r⟩]) := by
  simp [device, Ensures, Call.MayHang, Call.Admits]

@[simp]
theorem ensures_host {c : HostCall} {Q : Post σ ε c.Reply}
    : Ensures (α := no_index c.Reply) (host c) Q s now h ↔
        Q none s now (h ++ [⟨.host c, now, now, none⟩]) ∧
          ∀ stop r, now ≤ stop →
            Q (some (.ok r)) s stop (h ++ [⟨.host c, now, stop, some r⟩]) := by
  simp [host, Ensures, Call.MayHang, Call.Admits]

@[simp]
theorem ensures_mark {Q : Post σ ε Unit}
    : (mark m : Program σ ε Unit).Ensures Q s now h ↔
        Q (some (.ok ())) s now (h ++ [⟨.mark m, now, now, some ()⟩]) := by
  simp only [mark, ask, Ensures, Call.MayHang, Call.Admits, false_implies, true_and]
  constructor
  . intro hq
    exact hq now () rfl
  . rintro hq stop ⟨⟩ rfl
    exact hq

@[simp]
theorem ensures_clock {Q : Post σ ε Nat}
    : (clock : Program σ ε Nat).Ensures Q s now h ↔
        Q (some (.ok now)) s now (h ++ [⟨.clock, now, now, some now⟩]) := by
  simp only [clock, ask, Ensures, Call.MayHang, Call.Admits, false_implies, true_and]
  constructor
  . intro hq
    exact hq now now ⟨rfl, rfl⟩
  . rintro hq stop time ⟨rfl, rfl⟩
    exact hq

@[simp]
theorem ensures_sleep {Q : Post σ ε Unit}
    : (sleep ms : Program σ ε Unit).Ensures Q s now h ↔
        Q (some (.ok ())) s (now + ms) (h ++ [⟨.sleep ms, now, now + ms, some ()⟩]) := by
  simp only [sleep, ask, Ensures, Call.MayHang, Call.Admits, false_implies, true_and]
  constructor
  . intro hq
    exact hq (now + ms) () rfl
  . rintro hq stop ⟨⟩ rfl
    exact hq

@[simp]
theorem ensures_interrupt {Q : Post σ ε (Option (Except Error Unit))}
    : (ask (.interrupt limit) : Program σ ε (Option (Except Error Unit))).Ensures Q s now h ↔
        ∀ stop r, (Call.interrupt limit).Admits now stop r →
          Q (some (.ok r)) s stop (h ++ [⟨.interrupt limit, now, stop, some r⟩]) := by
  simp [ask, Ensures, Call.MayHang]

@[simp]
theorem ensures_asPart {p : Program σ ε α} {Q : Post σ ε α}
    : (asPart part p).Ensures Q s now h ↔
        p.Ensures (.closing part Q) s now
          (h ++ [⟨.mark (.begins part), now, now, some ()⟩]) := by
  simp only [asPart, ensures_bind, ensures_mark, Post.andThen_ok, ensures_attempt]
  apply Iff.of_eq
  congr 1
  funext r s now h
  rcases r with _ | r <;> simp

end

variable {σ ε α : Type} {p : Program σ ε α} {Q Q' : Post σ ε α}

theorem Ensures.mono (hp : p.Ensures Q s now h)
    (hq : ∀ r s now h, Q r s now h → Q' r s now h)
    : p.Ensures Q' s now h := by
  induction p generalizing s now h with
  | done r => exact hq _ _ _ _ hp
  | get next ih => exact ih s hp
  | set s next ih => exact ih hp
  | call c next ih =>
    constructor
    . intro hang
      exact hq _ _ _ _ (hp.left hang)
    . intro stop r hr
      exact ih r (hp.right stop r hr)

theorem ensures_trivial (p : Program σ ε α)
    : p.Ensures (fun _ _ _ _ => True) s now h := by
  induction p generalizing s now h with
  | done r => trivial
  | get next ih => exact ih s
  | set s next ih => exact ih
  | call c next ih =>
    constructor
    . intro _
      trivial
    . intro stop r _
      exact ih r

theorem ensures_trivial_either (p : Program σ ε α)
    : p.Ensures (.either (fun _ _ _ _ => True) fun _ _ _ => True) s now h := by
  apply (ensures_trivial p).mono
  intro r _ _ _ _
  rcases r with _ | e | a <;> trivial

theorem Ensures.and (hp : p.Ensures Q s now h) (hp' : p.Ensures Q' s now h)
    : p.Ensures (fun r s now h => Q r s now h ∧ Q' r s now h) s now h := by
  induction p generalizing s now h with
  | done r => exact ⟨hp, hp'⟩
  | get next ih => exact ih s hp hp'
  | set s next ih => exact ih hp hp'
  | call c next ih =>
    constructor
    . intro hang
      exact ⟨hp.left hang, hp'.left hang⟩
    . intro stop r hr
      exact ih r (hp.right stop r hr) (hp'.right stop r hr)

theorem Ensures.mono_either {value value' failure failure'}
    (hp : p.Ensures (.either value failure) s now h)
    (hv : ∀ a s now h, value a s now h → value' a s now h)
    (hf : ∀ s now h, failure s now h → failure' s now h)
    : p.Ensures (.either value' failure') s now h := by
  apply hp.mono
  intro r s now h hr
  rcases r with _ | e | a
  . exact hf s now h hr
  . exact hf s now h hr
  . exact hv a s now h hr

theorem Ensures.mono_value {value value' failure}
    (hp : p.Ensures (.either value failure) s now h)
    (hv : ∀ a s now h, value a s now h → value' a s now h)
    : p.Ensures (.either value' failure) s now h :=
  hp.mono_either hv fun _ _ _ => id

theorem Ensures.and_either {value value' failure failure'}
    (hp : p.Ensures (.either value failure) s now h)
    (hp' : p.Ensures (.either value' failure') s now h)
    : p.Ensures
        (.either (fun a s now h => value a s now h ∧ value' a s now h)
          fun s now h => failure s now h ∧ failure' s now h)
        s now h := by
  apply (hp.and hp').mono
  intro r s now h hr
  rcases r with _ | e | a
  . exact hr
  . exact hr
  . exact hr

theorem Ensures.andThen {β : Type} {f : α → Program σ ε β} {value value' failure}
    (hp : p.Ensures (.either value failure) s now h)
    (hf : ∀ a s now h, value a s now h → (f a).Ensures (.either value' failure) s now h)
    : (p >>= f).Ensures (.either value' failure) s now h := by
  rw [ensures_bind]
  apply hp.mono
  intro r s now h hr
  rcases r with _ | e | a
  . exact hr
  . exact hr
  . exact hf a s now h hr

theorem ensures_last {β : Type} {f : α → Program σ ε β} {value}
    (hf : ∀ a s now h, (f a).Ensures (.either value fun _ _ _ => True) s now h)
    : (p >>= f).Ensures (.either value fun _ _ _ => True) s now h := by
  rw [ensures_bind]
  apply (ensures_trivial p).mono
  intro r s now h _
  rcases r with _ | e | a
  . trivial
  . trivial
  . exact hf a s now h

@[simp high]
theorem ensures_device_either {c : DeviceCall} {value failure}
    : Ensures (α := no_index c.Value) (device c) (Post.either (α := no_index c.Value) value failure)
          (s : σ) now h ↔
        failure s now (h ++ [⟨.device c, now, now, none⟩]) ∧
          (∀ stop e, now ≤ stop →
            failure s stop (h ++ [⟨.device c, now, stop, some (.error e)⟩])) ∧
          ∀ stop v, now ≤ stop →
            value v s stop (h ++ [⟨.device c, now, stop, some (.ok v)⟩]) := by
  rw [ensures_device]
  apply and_congr_right
  intro _
  constructor
  . intro hq
    exact ⟨fun stop e => hq stop (.error e), fun stop v => hq stop (.ok v)⟩
  . intro hq stop r
    cases r with
    | error e => exact hq.left stop e
    | ok v => exact hq.right stop v

@[simp high]
theorem ensures_device_bind {c : DeviceCall} {f : c.Value → Program σ Error α} {value failure}
    : (Bind.bind (α := no_index c.Value) (device c) f).Ensures (.either value failure) s now h ↔
        failure s now (h ++ [⟨.device c, now, now, none⟩]) ∧
          (∀ stop e, now ≤ stop →
            failure s stop (h ++ [⟨.device c, now, stop, some (.error e)⟩])) ∧
          ∀ stop v, now ≤ stop →
            (f v).Ensures (.either value failure) s stop
              (h ++ [⟨.device c, now, stop, some (.ok v)⟩]) := by
  have hthen : Post.andThen f (.either value failure) =
      .either (fun v => (f v).Ensures (.either value failure)) failure := by
    funext r
    rcases r with _ | e | v <;> rfl
  rw [ensures_bind, hthen, ensures_device_either]

theorem ensures_asPart_either {value failure}
    (hp : p.Ensures
      (.either
        (fun a s now h => value a s now (h ++ [⟨.mark (.ends part true), now, now, some ()⟩]))
        failure)
      s now (h ++ [⟨.mark (.begins part), now, now, some ()⟩]))
    (hf : ∀ s now h, failure s now h →
      failure s now (h ++ [⟨.mark (.ends part false), now, now, some ()⟩]))
    : (asPart part p).Ensures (.either value failure) s now h := by
  rw [ensures_asPart]
  apply hp.mono
  intro r s now h hr
  rcases r with _ | e | a
  . exact hr
  . exact hf s now h hr
  . exact hr

theorem ensures_append
    : p.Ensures Q s now (h ++ t) ↔ p.Ensures (fun r s now t => Q r s now (h ++ t)) s now t := by
  induction p generalizing s now t with
  | done r => rfl
  | get next ih => exact ih s
  | set s next ih => exact ih
  | call c next ih => simp only [Ensures, List.append_assoc, ih]

theorem ensures_iff_nil
    : p.Ensures Q s now h ↔ p.Ensures (fun r s now t => Q r s now (h ++ t)) s now [] := by
  rw [← ensures_append, List.append_nil]

theorem ensures_stop_le (p : Program σ ε α) (hh : ∀ e ∈ h, e.stop ≤ now)
    : p.Ensures (fun _ _ now h => ∀ e ∈ h, e.stop ≤ now) s now h := by
  induction p generalizing s now h with
  | done r => exact hh
  | get next ih => exact ih s hh
  | set s next ih => exact ih hh
  | call c next ih =>
    constructor
    . intro _ e he
      simp only [List.mem_append, List.mem_singleton] at he
      rcases he with he | he
      . exact hh e he
      . simp [he]
    . intro stop r hr
      have hle : now ≤ stop := hr.le
      apply ih
      intro e he
      simp only [List.mem_append, List.mem_singleton] at he
      rcases he with he | he
      . exact Nat.le_trans (hh e he) hle
      . simp [he]

theorem ensures_le (p : Program σ ε α)
    : p.Ensures (fun _ _ ended _ => now ≤ ended) s now h := by
  induction p generalizing s now h with
  | done r => exact Nat.le_refl now
  | get next ih => exact ih s
  | set s next ih => exact ih
  | call c next ih =>
    constructor
    . intro _
      exact Nat.le_refl now
    . intro stop r hr
      apply (ih r).mono
      intro _ _ _ _ hle
      exact Nat.le_trans hr.le hle

theorem ensures_hung (p : Program σ ε α)
    : p.Ensures
        (fun r _ _ h => r = none → ∃ before last, h = before ++ [last] ∧ last.reply = none)
        s now h := by
  induction p generalizing s now h with
  | done r => simp
  | get next ih => exact ih s
  | set s next ih => exact ih
  | call c next ih =>
    constructor
    . intro _ _
      exact ⟨h, _, rfl, rfl⟩
    . intro stop r _
      exact ih r

end Program

end BringUp
