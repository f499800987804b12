import BringUp.Proofs.Boot.Drive
import BringUp.Proofs.Image.Health
import BringUp.Proofs.Image.Sending
import BringUp.Proofs.Image.Writing
import BringUp.Proofs.Lab.Alike

/-!
This module contains what becomes of an image that can not be planned. The main statement is that
this is found out before a line is called exactly if the image is written. An image that is sent is
planned only after the board was put into its USB download mode.
-/

namespace BringUp

open Program Trace Writer

namespace Writer

variable {w : Writer}

theorem planWrite_error (hplan : w.planWrite dir = .error err)
    : err = .unsupportedWriteMethod "writing" w.method.name ∨
        ∃ b : Blob, err = .config s!"method {w.method.name} needs the {b.name} blob" := by
  unfold planWrite Method.planWrite at hplan
  split at hplan
  . next stages _ =>
    cases hmissing : stages.findSome? fun stage => stage.source.missing? w.options with
    | some b =>
      rw [planStages_missing hmissing] at hplan
      exact .inr ⟨b, (Except.error.inj hplan).symm⟩
    | none =>
      obtain ⟨plan, hok, _⟩ := planStages_realizes w.method dir hmissing
      rw [hok] at hplan
      cases hplan
  . exact .inl (Except.error.inj hplan).symm

end Writer

theorem errorOf_eq_some {r : Except ε α} : errorOf r = some e ↔ r = .error e := by
  cases r <;> simp [errorOf]

def Trace.onLines (t : List Event) : List Event :=
  t.filter fun e => e.call.onLine?.isSome

theorem Trace.calls_onLines : calls (onLines t) = calls t := by
  rw [calls, onLines, List.filterMap_filter, calls]
  congr 1
  funext e
  cases e.call.onLine? <;> rfl

theorem Trace.mem_onLines (he : e.Failed) : e ∈ onLines t ↔ e ∈ t := by
  rw [onLines, List.mem_filter, Option.isSome_iff_ne_none]
  exact and_iff_left he.left

structure Run.SameCalls (r r' : Run σ ω ε α) : Prop where
  result : r.result = r'.result
  onLines : onLines r.trace = onLines r'.trace

namespace Run.SameCalls

theorem trans {r r' r'' : Run σ ω ε α} (h : r.SameCalls r') (h' : r'.SameCalls r'')
    : r.SameCalls r'' :=
  ⟨h.result.trans h'.result, h.onLines.trans h'.onLines⟩

theorem calls {r r' : Run σ ω ε α} (h : r.SameCalls r') : calls r.trace = calls r'.trace := by
  rw [← calls_onLines, h.onLines, calls_onLines]

theorem failed {r r' : Run σ ω ε α} (h : r.SameCalls r') (he : e.Failed)
    : e ∈ r.trace ↔ e ∈ r'.trace := by
  rw [← mem_onLines he, h.onLines, mem_onLines he]

end Run.SameCalls

section

variable {σ ε α : Type}

theorem run_mark_bind {β : Type} (f : Unit → Program σ ε β) (lab : Lab ω) (s : σ) (w : ω)
    (now : Nat)
    : (mark m >>= f).run lab none s w now =
        { (f ()).run lab none s w now with
          trace := ⟨.mark m, now, now, some ()⟩ :: ((f ()).run lab none s w now).trace } :=
  rfl

theorem sameCalls_asPart (p : Program σ ε α) (lab : Lab ω) (s : σ) (w : ω) (now : Nat)
    : ((asPart part p).run lab none s w now).SameCalls (p.run lab none s w now) := by
  have attempted (f : Except ε α → Program σ ε α)
      : (p.attempt >>= f).run lab none s w now =
          (p.attempt.run lab none s w now).andThen fun r => (f r).run lab none :=
    run_bind ..
  rw [asPart, run_mark_bind, attempted, run_attempt]
  generalize p.run lab none s w now = r
  obtain ⟨result, t, x, time, h⟩ := r
  cases result with
  | none => exact ⟨rfl, rfl⟩
  | some r =>
    refine ⟨rfl, ?_⟩
    simp only [Run.andThen, Option.map_some, run_mark_bind, Program.ofExcept, Program.run]
    simp [onLines, Call.onLine?]

theorem sameCalls_modify (p : Program σ ε Unit) (f : σ → σ) (lab : Lab ω) (s : σ) (w : ω)
    (now : Nat)
    : ((p >>= fun _ => modify f).run lab none s w now).SameCalls (p.run lab none s w now) := by
  have bound : (p >>= fun _ => modify f).run lab none s w now =
      (p.run lab none s w now).andThen fun _ => (modify f).run lab none :=
    run_bind ..
  rw [bound]
  generalize p.run lab none s w now = r
  obtain ⟨result, t, x, time, h⟩ := r
  rcases result with _ | e | a
  . exact ⟨rfl, rfl⟩
  . exact ⟨rfl, rfl⟩
  . exact ⟨rfl, by simp [Run.andThen, Program.modify, Program.run]⟩

theorem Footprint.Covers.onLine?_eq_none {c : Call} (hc : Footprint.outside.Covers c)
    : c.onLine? = none := by
  cases c with
  | device c => simp [Footprint.Covers, Footprint.outside] at hc
  | interrupt limit => simp [Footprint.Covers, Footprint.outside] at hc
  | _ => rfl

theorem calls_run_outside {p : Program σ ε α} (hp : p.Within Footprint.outside.Covers) (lab : Lab ω)
    (s : σ) (w : ω) (now : Nat)
    : calls (p.run lab none s w now).trace = [] := by
  have outside : p.Ensures (fun _ _ _ t => calls t = []) s now [] := by
    apply hp.ensures
    intro _ _ t ht
    rw [List.nil_append, calls_eq_nil_iff]
    intro e he
    exact (ht e he).onLine?_eq_none
  simpa using outside.run lab w

end

namespace Strategy

def planError? (s : Strategy) (dir : String) : Option Error :=
  if s.options.useSend then errorOf (s.writer.planSend dir) else errorOf (s.writer.planWrite dir)

def recoveryAgenda (line : ResetLine) : Agenda :=
  let hold : Item := .call (.reset true .warm) id
  let request : Agenda := [.call (.activate .recovery) id, .call (.recovery true) id]
  let release : Agenda :=
    [.call (.activate .console) id, .call (.reset false .warm) id, .call (.recovery false) id]
  .call (.activate .power) id :: .call (.activate .reset) id :: .call (.power .on) id ::
    if line.blocksUsb then request ++ hold :: release else hold :: (request ++ release)

section

variable {s : Strategy} {line : ResetLine}

theorem bound_recoveryAgenda : (recoveryAgenda line).Bound := by
  unfold recoveryAgenda
  split <;> simp [Agenda.Bound]

open Agenda (follows_device follows_device_bind follows_sleep_bind follows_bind) in
theorem enterRecovery_follows : (s.enterRecovery line).Follows (recoveryAgenda line) := by
  have requested : requestRecovery.Follows
      [.call (.activate .recovery) id, .call (.recovery true) id] :=
    follows_device_bind fun _ => follows_device
  have released : (do
      device (.activate .console)
      device (.reset false .warm)
      sleep s.options.recoverySettle
      device (.recovery false) : Drive Unit).Follows
      [.call (.activate .console) id, .call (.reset false .warm) id, .call (.recovery false) id] :=
    follows_device_bind fun _ => follows_device_bind fun _ => follows_sleep_bind follows_device
  unfold enterRecovery recoveryAgenda
  apply follows_device_bind
  intro _
  apply follows_device_bind
  intro _
  apply follows_device_bind
  intro _
  split
  . exact follows_bind requested fun _ => follows_device_bind fun _ => released
  . exact follows_device_bind fun _ => follows_bind requested fun _ => released

theorem install_sends (hsend : s.options.useSend = true) (hreset : s.reset = some line)
    (hrecovery : s.recovery = true)
    : s.install = (do
        let dir ← s.locateBuild
        s.enterRecovery line
        s.writer.send dir) := by
  simp [install, hsend, recoveryReset, hreset, hrecovery]

theorem install_writes (hsend : s.options.useSend = false)
    : s.install = (do
        let dir ← s.locateBuild
        s.writer.write dir) := by
  simp [install, hsend]

theorem sameCalls_transition (lab : Lab ω) (w : ω) (before : BoardStatus) (now : Nat)
    (hstate : before.state ≠ .bootstrapped)
    : ((s.transition .bootstrapped).run lab none before w now).SameCalls
        (s.install.run lab none before w now) := by
  have reached : (s.drive .bootstrapped).run lab none before w now =
      (s.bootstrap >>= fun _ => modify fun status => { status with state := .bootstrapped }).run
        lab none before w now := by
    show (if before.state = .bootstrapped then (pure () : Drive Unit) else _).run _ _ _ _ _ = _
    rw [if_neg hstate]
  have bootstrapped : ((s.drive .bootstrapped).run lab none before w now).SameCalls
      (s.install.run lab none before w now) := by
    rw [reached]
    exact (sameCalls_modify ..).trans ((sameCalls_asPart ..).trans (sameCalls_modify ..))
  refine Run.SameCalls.trans ?_ bootstrapped
  have attempted (f : Except Error Unit → Drive Unit)
      : ((s.drive .bootstrapped).attempt >>= f).run lab none before w now =
          (((s.drive .bootstrapped).attempt : Drive _).run lab none before w now).andThen
            fun r => (f r).run lab none :=
    run_bind ..
  show Run.SameCalls (((s.drive .bootstrapped).attempt >>= _).run lab none before w now) _
  rw [attempted, run_attempt]
  generalize (s.drive .bootstrapped).run lab none before w now = r
  obtain ⟨result, t, x, time, h⟩ := r
  rcases result with _ | e | a
  . exact ⟨rfl, rfl⟩
  . exact ⟨rfl, congrArg onLines (List.append_nil h)⟩
  . exact ⟨rfl, congrArg onLines (List.append_nil h)⟩

theorem run_located {f : String → Drive Unit} {lab : Lab ω}
    (hbuild : (s.locateBuild.run lab none before w now).result = some (.ok dir))
    : ∃ status x time t, calls t = [] ∧
        (s.locateBuild >>= f).run lab none before w now =
          { (f dir).run lab none status x time with
            trace := t ++ ((f dir).run lab none status x time).trace } := by
  have silent := calls_run_outside s.locateBuild_within lab before w now
  have located : (s.locateBuild >>= f).run lab none before w now =
      (s.locateBuild.run lab none before w now).andThen fun dir => (f dir).run lab none :=
    run_bind ..
  rw [located]
  generalize s.locateBuild.run lab none before w now = r at hbuild silent
  obtain ⟨result, status, x, time, t⟩ := r
  cases hbuild
  exact ⟨status, x, time, t, silent, rfl⟩

theorem planError?_reported (hplan : s.planError? dir = some err)
    : (∃ operation, err = .unsupportedWriteMethod operation s.writer.method.name) ∨
        ∃ b : Blob, err = .config s!"method {s.writer.method.name} needs the {b.name} blob" := by
  unfold planError? at hplan
  split at hplan
  . exact .inl ⟨_, planSend_error (errorOf_eq_some.mp hplan)⟩
  . exact (planWrite_error (errorOf_eq_some.mp hplan)).imp_left fun h => ⟨_, h⟩

theorem install_unwritten {lab : Lab ω} (hsend : s.options.useSend = false)
    (hbuild : (s.locateBuild.run lab none before w now).result = some (.ok dir))
    (hplan : s.planError? dir = some err)
    : let run := s.install.run lab none before w now
      run.result = some (.error err) ∧ calls run.trace = [] := by
  obtain ⟨status, x, time, t, silent, located⟩ := run_located hbuild
  have planned : s.writer.planWrite dir = .error err := by
    simpa [planError?, hsend, errorOf_eq_some] using hplan
  rw [install_writes hsend, located, write_of_error planned]
  exact ⟨rfl, (congrArg calls (List.append_nil t)).trans silent⟩

theorem install_unsent {lab : Lab ω} (hsend : s.options.useSend = true)
    (hreset : s.reset = some line) (hrecovery : s.recovery = true)
    (hbuild : (s.locateBuild.run lab none before w now).result = some (.ok dir))
    (hplan : s.planError? dir = some err)
    : let run := s.install.run lab none before w now
      .activate .power ∈ calls run.trace ∧ calls run.trace <+: (recoveryAgenda line).calls ∧
        ((∀ e ∈ run.trace, ¬e.Failed) → run.result = some (.error err)) := by
  have planned : s.writer.planSend dir = .error err := by
    simpa [planError?, hsend, errorOf_eq_some] using hplan
  have follows : (do
      s.enterRecovery line
      s.writer.send dir : Drive Unit).Follows (recoveryAgenda line ++ [.unbound err]) := by
    rw [send_of_error planned]
    exact Agenda.follows_bind enterRecovery_follows fun _ => Agenda.follows_raise
  obtain ⟨status, x, time, t, silent, located⟩ := run_located (f := fun dir => do
    s.enterRecovery line
    s.writer.send dir) hbuild
  rw [install_sends hsend hreset hrecovery, located]
  have carried := follows.run lab status x time
  have order := carried.calls_prefix
  rw [bound_recoveryAgenda.calls_append] at order
  dsimp only
  rw [calls_append, silent, List.nil_append]
  refine ⟨carried.head_mem, by simpa [Agenda.calls] using order, ?_⟩
  intro hclean
  apply carried.stops_unbound bound_recoveryAgenda
  intro e he
  exact hclean e (List.mem_append_right t he)

end

/--
If an image can not be planned, the transition that is to install it reports that without having
called any line exactly if the image is written. An image that is sent is found not to be sendable
only after the board was put into its USB download mode, which takes power and reset. The build, if
one is asked for, succeeds, and the lines are bound that sending needs.
-/
theorem unplanned_spared_iff (s : Strategy) (lab : Lab ω) (w : ω) (before : BoardStatus) (now : Nat)
    (hstate : before.state ≠ .bootstrapped)
    (hlines : s.options.useSend = true → s.reset.isSome = true ∧ s.recovery = true)
    (hbuild : (s.locateBuild.run lab none before w now).result = some (.ok dir))
    (hplan : s.planError? dir = some err)
    : let turn := s.turn (.transition .bootstrapped) lab w before now
      ((∃ operation, err = .unsupportedWriteMethod operation s.writer.method.name) ∨
        ∃ b : Blob, err = .config s!"method {s.writer.method.name} needs the {b.name} blob") ∧
      ((turn.result = some (.error err) ∧ calls turn.trace = []) ↔ s.options.useSend = false) ∧
      ∀ line, s.options.useSend = true → s.reset = some line →
        .activate .power ∈ calls turn.trace ∧ calls turn.trace <+: (recoveryAgenda line).calls ∧
          ((∀ e ∈ turn.trace, ¬e.Failed) → turn.result = some (.error err)) := by
  have same := sameCalls_transition (s := s) lab w before now hstate
  obtain ⟨hresult, hcalls⟩ : (s.turn (.transition .bootstrapped) lab w before now).result =
        (s.install.run lab none before w now).result ∧
      calls (s.turn (.transition .bootstrapped) lab w before now).trace =
        calls (s.install.run lab none before w now).trace :=
    ⟨same.result, same.calls⟩
  refine ⟨planError?_reported hplan, ?_, ?_⟩
  . rw [hresult, hcalls]
    cases hsend : s.options.useSend with
    | false => simpa using install_unwritten hsend hbuild hplan
    | true =>
      obtain ⟨hreset, hrecovery⟩ := hlines hsend
      obtain ⟨line, hreset⟩ := Option.isSome_iff_exists.mp hreset
      obtain ⟨powered, _⟩ := install_unsent hsend hreset hrecovery hbuild hplan
      simp [List.ne_nil_of_mem powered]
  . intro line hsend hreset
    obtain ⟨powered, order, ended⟩ := install_unsent hsend hreset (hlines hsend).right hbuild hplan
    rw [hresult, hcalls]
    refine ⟨powered, order, ?_⟩
    intro hclean
    apply ended
    intro e he hfailed
    exact hclean e ((same.failed hfailed).mpr he) hfailed

def unsendable : Strategy :=
  wired { StrategyOptions.forBoard "rpi_3" with doSend := true } .rpi3

theorem unsendable_unplanned
    : let turn := unsendable.turn (.transition .bootstrapped) (.prompt fun _ => false) () .fresh 0
      let err := Error.unsupportedWriteMethod "sending" "rpi3"
      BoardStatus.fresh.state ≠ .bootstrapped ∧ unsendable.reset.isSome = true ∧
        unsendable.recovery = true ∧
        unsendable.planError? (unsendable.provider.buildPath "rpi_3") = some err ∧
        ((turn.result = some (.error err) ∧ calls turn.trace = []) ↔
          unsendable.options.useSend = false) := by
  have spared := unplanned_spared_iff unsendable (.prompt fun _ => false) () .fresh 0 (by decide)
    (fun _ => ⟨rfl, rfl⟩) rfl rfl
  exact ⟨by decide, rfl, rfl, rfl, spared.right.left⟩

theorem unsendable_powered
    : let turn := unsendable.turn (.transition .bootstrapped) (.prompt fun _ => false) () .fresh 0
      BoardStatus.fresh.state ≠ .bootstrapped ∧ unsendable.options.board.isEmpty = false ∧
        unsendable.reset.isSome = true ∧ unsendable.recovery = true ∧
        (unsendable.locateBuild.run (.prompt fun _ => false) none .fresh () 0).result =
          some (.ok (unsendable.provider.buildPath "rpi_3")) ∧
        unsendable.writer.planSend (unsendable.provider.buildPath "rpi_3") =
          .error (.unsupportedWriteMethod "sending" "rpi3") ∧
        turn.result = some (.error (.unsupportedWriteMethod "sending" "rpi3")) ∧
        calls turn.trace = [.activate .power, .activate .reset, .power .on, .reset true .warm,
          .activate .recovery, .recovery true, .activate .console, .reset false .warm,
          .recovery false] := by
  refine ⟨by decide, rfl, rfl, rfl, rfl, rfl, rfl, rfl⟩

end Strategy

end BringUp
