import BringUp.Build.Worktree
import BringUp.Proofs.Lab.Trace

/-!
This module contains what it means that a program stops at its first failure. What counts as a
failure, and which error it is reported as, is told from the events alone. After a failure only the
calls are made that clean up after it.
-/

namespace BringUp

open Program Trace

def Event.TimedOut : Event → Prop
  | ⟨.interrupt _, _, _, some none⟩ => True
  | ⟨.interrupt _, _, _, some (some (.error e))⟩ => e.isInterruptTimeout = true
  | _ => False

/--
Whether a call may be made after a failure at an event `e`. When the prompt did not show the console
is read, after a failure inside of a write the storage is released and the card is handed back, and
after a patch that did not apply the worktree is cleared. Nobody outside is called by waiting, by
looking at the clock, by marks and by removing a temporary file.
-/
def Repairs (before : List Event) (e : Event) : Call → Prop
  | .device .consoleOutput => e.TimedOut
  | .device (.deactivate .storage) | .device (.mux .device) => During .write (before ++ [e])
  | .device _ => False
  | .host (.run command) =>
    ∃ dir file, e.call = .host (.run (Worktree.git dir ["apply", file] none)) ∧
      (command = Worktree.git dir ["am", "--abort"] none ∨
        command = Worktree.git dir ["reset", "--hard"] none)
  | .host (.removePatch _) => True
  | .host _ => False
  | .interrupt _ => False
  | .sleep _ | .clock | .mark _ => True

def Call.Risky : Call → Prop
  | .device _ | .interrupt _ | .mark (.begins .bootstrap) | .mark (.begins .write) => True
  | .host (.pathExists _) | .host (.removePatch _) => False
  | .host _ => True
  | .sleep _ | .clock | .mark _ => False

def errorOf : Except ε α → Option ε
  | .ok _ => none
  | .error e => some e

structure Faults where
  Fails : List Event → Event → Error → Prop
  risky : Fails before e err → e.call.Risky
  replied : Fails before e err → e.reply ≠ none

namespace Faults

variable (F : Faults) {h t : List Event}

def Clean (h : List Event) : Prop :=
  Always (fun before e => ∀ err, ¬F.Fails before e err) h

/--
Nothing was done after the first failure among some events but to clean up after it, and it is
reported as `err`.
-/
def Stopped (err : Error) (h : List Event) : Prop :=
  ∃ before e after, h = before ++ e :: after ∧ F.Clean before ∧ F.Fails before e err ∧
    ∀ x ∈ after, Repairs before e x.call

def Checked : Option Error → List Event → Prop
  | none, h => F.Clean h
  | some err, h => F.Stopped err h

/--
The postcondition that the run has stopped at its first failure, or that there was none. A check of
the value may have failed already.
-/
def stopping (check : α → Option Error) : Post σ Error α
  | some (.ok a), _, _, h => F.Checked (check a) h
  | some (.error err), _, _, h => F.Stopped err h
  | none, _, _, h => F.Clean h ∨ ∃ err, F.Stopped err h

def Stops (p : Program σ Error α) : Prop :=
  ∀ s now h, F.Clean h → p.Ensures (F.stopping fun _ => none) s now h

def Plain (c : DeviceCall) : Prop :=
  ∀ before start stop (r : Except Error c.Value) err,
    F.Fails before ⟨.device c, start, stop, some r⟩ err ↔ r = .error err

variable {F}

@[simp]
theorem stopping_ok {check : α → Option Error}
    : (F.stopping check : Post σ Error α) (some (.ok a)) s now h = F.Checked (check a) h :=
  rfl

@[simp]
theorem stopping_error {check : α → Option Error}
    : (F.stopping check : Post σ Error α) (some (.error err)) s now h = F.Stopped err h :=
  rfl

theorem clean_nil : F.Clean [] :=
  always_nil

theorem Clean.concat (hh : F.Clean h) (he : ∀ err, ¬F.Fails h e err) : F.Clean (h ++ [e]) :=
  Always.concat hh he

theorem Clean.unreplied (hh : F.Clean h) : F.Clean (h ++ [⟨c, start, stop, none⟩]) :=
  hh.concat fun _ hf => F.replied hf rfl

theorem Clean.harmless (hh : F.Clean h) (he : ¬e.call.Risky) : F.Clean (h ++ [e]) :=
  hh.concat fun _ hf => he (F.risky hf)

theorem Clean.fails (hh : F.Clean h) (he : F.Fails h e err) : F.Stopped err (h ++ [e]) :=
  ⟨h, e, [], rfl, hh, he, by simp⟩

theorem Clean.checked (hh : F.Clean h) (he : ∀ err, F.Fails h e err ↔ check = some err)
    : F.Checked check (h ++ [e]) := by
  cases check with
  | none => exact hh.concat (by simp [he])
  | some err => exact hh.fails ((he err).mpr rfl)

theorem Stopped.split (hs : F.Stopped err (h ++ t)) (hh : F.Clean h)
    : ∃ front e after, t = front ++ e :: after ∧ F.Clean (h ++ front) ∧
        F.Fails (h ++ front) e err ∧ ∀ x ∈ after, Repairs (h ++ front) e x.call := by
  obtain ⟨before, e, after, hsplit, hbefore, hfails, hafter⟩ := hs
  rcases append_eq_append_cons_iff.mp hsplit with ⟨rest, hfirst, _⟩ | ⟨front, rfl, hsecond⟩
  . exact absurd hfails (hh before e rest hfirst err)
  . exact ⟨front, e, after, hsecond, hbefore, hfails, hafter⟩

theorem Stopped.append (hs : F.Stopped err (h ++ t)) (hh : F.Clean h)
    (hu : ∀ front e after, t = front ++ e :: after → ∀ x ∈ u, Repairs (h ++ front) e x.call)
    : F.Stopped err (h ++ t ++ u) := by
  obtain ⟨front, e, after, rfl, hfront, hfails, hafter⟩ := hs.split hh
  refine ⟨h ++ front, e, after ++ u, by simp, hfront, hfails, ?_⟩
  intro x hx
  rcases List.mem_append.mp hx with hx | hx
  . exact hafter x hx
  . exact hu front e after rfl x hx

theorem Stopped.not_clean (hs : F.Stopped err h) : ¬F.Clean h := by
  intro hh
  obtain ⟨before, e, after, hsplit, _, hfails, _⟩ := hs
  exact hh before e after hsplit err hfails

theorem Stopped.first (hs : F.Stopped err (h ++ e :: t)) (hh : F.Clean h) (he : F.Fails h e err')
    : F.Fails h e err ∧ ∀ x ∈ t, Repairs h e x.call := by
  obtain ⟨front, f, after, hsplit, hclean, hfails, hafter⟩ := hs.split hh
  cases front with
  | nil =>
    obtain ⟨rfl, rfl⟩ : e = f ∧ t = after := by simpa using hsplit
    rw [List.append_nil] at hfails hafter
    exact ⟨hfails, hafter⟩
  | cons x front =>
    obtain ⟨rfl, _⟩ : e = x ∧ t = front ++ f :: after := by simpa using hsplit
    exact absurd he (hclean h e front rfl err')

theorem Stopped.concat (hs : F.Stopped err h) (hx : ∀ before e, Repairs before e x.call)
    : F.Stopped err (h ++ [x]) := by
  apply Stopped.append (h := []) hs clean_nil
  simp [hx]

theorem Checked.concat (hh : F.Checked check h) (hx : ∀ before e, Repairs before e x.call)
    (hx' : ¬x.call.Risky)
    : F.Checked check (h ++ [x]) := by
  cases check with
  | none => exact Clean.harmless hh hx'
  | some err => exact Stopped.concat hh hx

section

variable {σ α β : Type}

theorem stopping_andThen {p : Program σ Error α} {f : α → Program σ Error β}
    {value : α → σ → Nat → List Event → Prop} {failure : σ → Nat → List Event → Prop}
    (hp : p.Ensures (F.stopping check) s now h) (hv : p.Ensures (.either value failure) s now h)
    (hf : ∀ a s now h, F.Checked (check a) h → value a s now h →
      (f a).Ensures (F.stopping check') s now h)
    : (p >>= f).Ensures (F.stopping check') s now h := by
  rw [ensures_bind]
  apply (hp.and hv).mono
  rintro r s now h ⟨stopped, hvalue⟩
  rcases r with _ | e | a
  . exact stopped
  . exact stopped
  . exact hf a s now h stopped hvalue

theorem stopping_bind {p : Program σ Error α} {f : α → Program σ Error β}
    (hp : p.Ensures (F.stopping check) s now h)
    (hf : ∀ a s now h, F.Checked (check a) h → (f a).Ensures (F.stopping check') s now h)
    : (p >>= f).Ensures (F.stopping check') s now h := by
  rw [ensures_bind]
  apply hp.mono
  intro r s now h stopped
  rcases r with _ | e | a
  . exact stopped
  . exact stopped
  . exact hf a s now h stopped

theorem stopping_ofExcept {r : Except Error α}
    (hh : F.Checked (errorOf r) h)
    : (ofExcept r : Program σ Error α).Ensures (F.stopping fun _ => none) s now h := by
  cases r with
  | ok a => exact hh
  | error err => exact hh

theorem stopping_asPart {p : Program σ Error α}
    (hp : p.Ensures (F.stopping check) s now (h ++ [⟨.mark (.begins part), now, now, some ()⟩]))
    : (asPart part p).Ensures (F.stopping check) s now h := by
  rw [ensures_asPart]
  apply hp.mono
  intro r s now h stopped
  rcases r with _ | e | a
  . exact stopped
  . exact Stopped.concat stopped fun _ _ => trivial
  . exact Checked.concat stopped (fun _ _ => trivial) id

theorem stops_pure {a : α}
    : F.Stops (pure a : Program σ Error α) := by
  intro s now h hh
  exact hh

theorem stops_bind {p : Program σ Error α} {f : α → Program σ Error β} (hp : F.Stops p)
    (hf : ∀ a, F.Stops (f a))
    : F.Stops (p >>= f) := by
  intro s now h hh
  apply stopping_bind (hp s now h hh)
  intro a s now h hh
  exact hf a s now h hh

theorem stops_device (hc : F.Plain c)
    : F.Stops (device c : Program σ Error (no_index c.Value)) := by
  intro s now h hh
  rw [ensures_device]
  refine ⟨.inl hh.unreplied, ?_⟩
  intro stop r _
  cases r with
  | error e => exact hh.fails ((hc ..).mpr rfl)
  | ok v =>
    apply Clean.concat hh
    intro err hf
    cases (hc ..).mp hf

theorem stopping_host_bind {c : HostCall} {f : c.Reply → Program σ Error α} (hh : F.Clean h)
    (hf : ∀ stop r,
      (f r).Ensures (F.stopping check) s stop (h ++ [⟨.host c, now, stop, some r⟩]))
    : (Bind.bind (α := no_index c.Reply) (host c) f).Ensures (F.stopping check) s now h := by
  rw [ensures_bind, ensures_host]
  refine ⟨.inl hh.unreplied, ?_⟩
  intro stop r _
  exact hf stop r

theorem stops_host (hc : ¬(Call.host c).Risky)
    : F.Stops (host c : Program σ Error (no_index c.Reply)) := by
  intro s now h hh
  rw [ensures_host]
  exact ⟨.inl hh.unreplied, fun _ _ _ => hh.harmless hc⟩

theorem stops_clock
    : F.Stops (clock : Program σ Error Nat) := by
  intro s now h hh
  rw [ensures_clock]
  exact hh.harmless id

theorem stops_sleep
    : F.Stops (sleep ms : Program σ Error Unit) := by
  intro s now h hh
  rw [ensures_sleep]
  exact hh.harmless id

end

end Faults

end BringUp
