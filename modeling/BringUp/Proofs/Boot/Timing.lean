import BringUp.Proofs.Boot.Ledger
import BringUp.Proofs.Lab.Trace

/-!
This module contains what the duration on record measures. The main statement is that it runs from
the beginning of the request that has caught the prompt until the version was told, and that this is
the time from the beginning of the start to the prompt only if the difference at both ends is equal.
-/

namespace BringUp

open Program Trace

/--
Whether a start opens with a call: switching the board off opens it, or else the mark of its own.
-/
def Call.opensStart (c : Call) : Bool :=
  c = .device (.deactivate .console) ∨ c = .mark (.begins .start)

namespace Trace

def opened? (t : List Event) : Option Nat :=
  (t.find? (·.call.opensStart)).map Event.start

def started (t : List Event) : Bool :=
  t.any (·.call = .mark (.ends .start true))

/--
When the start began that some events have completed. Switching the board off is part of it.
-/
def startBegan? (t : List Event) : Option Nat :=
  if started t then opened? t else none

def CaughtAt (t : List Event) (time : Nat) : Prop :=
  ∃ limit start, ⟨.interrupt limit, start, time, some (some (.ok ()))⟩ ∈ t

def ToldAt (t : List Event) (time : Nat) : Prop :=
  ∃ start version, ⟨.device .bootloaderVersion, start, time, some (.ok version)⟩ ∈ t

end Trace

def Turn.lastStart? (turns : List Turn) : Option Nat :=
  turns.reverse.findSome? fun turn => startBegan? turn.trace

def Call.Unasked : Call → Prop
  | .interrupt _ | .device .bootloaderVersion => False
  | _ => True

def Call.Unstarted (c : Call) : Prop :=
  ∀ m, c = .mark m → m.part ≠ .start

theorem Footprint.Covers.unasked {f : Footprint} (hc : f.Covers c) (hd : .bootloader ∉ f.devices)
    : c.Unasked := by
  unfold Call.Unasked
  split <;> simp_all [Covers, DeviceCall.device]

theorem Footprint.Covers.unstarted {f : Footprint} (hc : f.Covers c) (hp : .start ∉ f.parts)
    : c.Unstarted := by
  rintro m rfl hm
  exact hp (hm ▸ hc)

theorem Call.Unbooked.unasked {c : Call} (hc : c.Unbooked) : c.Unasked := by
  unfold Unasked
  split
  . exact hc
  . exact hc
  . trivial

namespace Trace

variable {h t : List Event}

theorem opened?_append (hh : opened? h = some began) : opened? (h ++ t) = some began := by
  unfold opened? at *
  obtain ⟨e, he, hstart⟩ := Option.map_eq_some_iff.mp hh
  simp [List.find?_append, he, hstart]

theorem started_append : started (h ++ t) = (started h || started t) :=
  List.any_append ..

theorem startBegan?_append (hh : startBegan? h = some began)
    : startBegan? (h ++ t) = some began := by
  unfold startBegan? at *
  split at hh
  . next hstarted => simp [started_append, hstarted, opened?_append hh]
  . cases hh

theorem startBegan?_eq_none (ht : ∀ e ∈ t, e.call.Unstarted) : startBegan? t = none := by
  have unstarted : started t = false := by
    apply List.any_eq_false.mpr
    intro e he hcall
    exact ht e he _ (of_decide_eq_true hcall) rfl
  simp [startBegan?, unstarted]

theorem caughtAt_append : CaughtAt (h ++ t) time ↔ CaughtAt h time ∨ CaughtAt t time := by
  simp [CaughtAt, exists_or]

theorem toldAt_append : ToldAt (h ++ t) time ↔ ToldAt h time ∨ ToldAt t time := by
  simp [ToldAt, exists_or]

theorem not_caughtAt (ht : ∀ e ∈ t, e.call.Unasked) : ¬CaughtAt t time := by
  rintro ⟨limit, start, he⟩
  exact ht _ he

theorem not_toldAt (ht : ∀ e ∈ t, e.call.Unasked) : ¬ToldAt t time := by
  rintro ⟨start, version, he⟩
  exact ht _ he

theorem not_returned_version (ht : ∀ e ∈ t, e.call.Unasked)
    : ¬Returned t .bootloaderVersion version := by
  rintro ⟨start, stop, he⟩
  exact ht _ he

end Trace

namespace Strategy

def bootstrapFootprint : Footprint :=
  { installFootprint with parts := .bootstrap :: installFootprint.parts }

variable {s : Strategy} {status : BoardStatus}

theorem toBootstrapped_confined
    : s.toBootstrapped.Ensures
        (fun _ after _ t => (after.state = status.state ∨ after.state = .bootstrapped) ∧
          ∀ e ∈ t, bootstrapFootprint.Covers e.call)
        status now [] := by
  have covers {c : Call} (hc : installFootprint.Covers c) : bootstrapFootprint.Covers c :=
    hc.mono (by simp [bootstrapFootprint]) (by simp [bootstrapFootprint])
  have begun : bootstrapFootprint.Covers (.mark (.begins .bootstrap)) := by
    simp [Footprint.Covers, bootstrapFootprint, Mark.part]
  have ended (success : Bool) : bootstrapFootprint.Covers (.mark (.ends .bootstrap success)) := by
    simp [Footprint.Covers, bootstrapFootprint, Mark.part]
  apply ensures_reach_post
  . intro after _ _ hq
    exact ⟨.inr rfl, hq.right⟩
  . intro _
    exact ⟨.inl rfl, by simp⟩
  . intro _
    rw [bootstrap, ensures_asPart, ensures_bind]
    apply s.install_within.ensures
    intro r now t ht
    have installed {start : Nat}
        : ∀ e ∈ [] ++ [⟨.mark (.begins .bootstrap), start, start, some ()⟩] ++ t,
          bootstrapFootprint.Covers e.call := by
      simpa [begun] using fun e he => covers (ht e he)
    rcases r with _ | e | a
    . exact ⟨.inl rfl, installed⟩
    . refine ⟨.inl rfl, List.forall_mem_append.mpr ⟨installed, ?_⟩⟩
      simp [ended]
    . refine ⟨.inl rfl, List.forall_mem_append.mpr ⟨installed, ?_⟩⟩
      simp [ended]

structure Starting (began : Nat) (status : BoardStatus) (h : List Event) : Prop where
  opened : opened? h = some began
  unasked : ∀ e ∈ h, e.call.Unasked
  unstarted : status.state ≠ .started

abbrev starting (began : Nat) : Post BoardStatus Error α :=
  fun _ after _ h => Starting began after h

variable {h t : List Event}

theorem Starting.append (hs : Starting began status h) (ht : ∀ e ∈ t, e.call.Unasked)
    : Starting began status (h ++ t) where
  opened := opened?_append hs.opened
  unasked := List.forall_mem_append.mpr ⟨hs.unasked, ht⟩
  unstarted := hs.unstarted

theorem Starting.ensures {p : Drive α} (hs : Starting began status h)
    (hp : p.Within Call.Unasked)
    : p.Ensures (starting began) status now h :=
  hp.ensures fun _ _ _ ht => hs.append ht

theorem starting_bind {p : Drive α} {f : α → Drive β}
    (hp : p.Ensures (starting began) status now h)
    (hf : ∀ a status now h, Starting began status h →
      (f a).Ensures (starting began) status now h)
    : (p >>= f).Ensures (starting began) status now h := by
  rw [ensures_bind]
  apply hp.mono
  intro r status now h hs
  rcases r with _ | e | a
  . exact hs
  . exact hs
  . exact hf a status now h hs

theorem toBootstrapped_starting (hs : Starting began status h)
    : s.toBootstrapped.Ensures (starting began) status now h := by
  rw [ensures_iff_nil]
  apply toBootstrapped_confined.mono
  rintro _ after _ t ⟨hstate, ht⟩
  have unasked : ∀ e ∈ t, e.call.Unasked := by
    intro e he
    exact (ht e he).unasked (by simp [bootstrapFootprint, installFootprint, Writer.writeLines])
  obtain ⟨opened, asked, unstarted⟩ := hs.append unasked
  refine ⟨opened, asked, ?_⟩
  rcases hstate with hstate | hstate <;> simp [hstate, unstarted]

theorem prepare_starting (hs : Starting began status h)
    : (s.prepare s.toBootstrapped).Ensures (starting began) status now h := by
  rw [prepare, ensures_bind, ensures_state, Post.andThen_ok]
  split
  . exact toBootstrapped_starting hs
  . exact hs.ensures (s.writer.prepareBoot_within.mono fun _ hc => hc.unasked (by simp))

theorem start_starting
    (hs : Starting began status (h ++ [⟨.mark (.begins .start), now, now, some ()⟩]))
    : (s.start s.toBootstrapped).Ensures
        (fun r after _ h' => Starting began after h' ∧
          (r = some (.ok ()) → startBegan? h' = some began))
        status now h := by
  have powered {status : BoardStatus} {now : Nat} {h : List Event}
      (hs : Starting began status h)
      : (if s.options.useSend then pure () else s.powerUp : Drive Unit).Ensures (starting began)
          status now h := by
    split
    . exact hs
    . exact hs.ensures (s.powerUp_within.mono fun _ hc => hc.unasked (by simp))
  rw [start, ensures_asPart]
  apply (starting_bind (prepare_starting hs) fun _ _ _ _ => powered).mono
  intro r after now h hs
  have ended {success : Bool}
      : Starting began after (h ++ [⟨.mark (.ends .start success), now, now, some ()⟩]) :=
    hs.append (by simp [Call.Unasked])
  rcases r with _ | e | ⟨⟨⟩⟩
  . exact ⟨hs, by simp⟩
  . exact ⟨ended, by simp⟩
  . refine ⟨ended, fun _ => ?_⟩
    rw [startBegan?, ended.opened]
    simp [started, Except.isOk, Except.toBool]

theorem toStarted_began (hh : ∀ e ∈ h, e.call.Unasked) (hopened : opened? h = none)
    (hstate : status.state ≠ .started)
    : s.toStarted.Ensures
        (fun r after _ h' => (∀ e ∈ h', e.call.Unasked) ∧
          (r = some (.ok ()) ∨ after.state = .started → startBegan? h' = some now))
        status now h := by
  have opens {call : Call} {stop : Nat} {reply : Option call.Reply} (hcall : call.opensStart = true)
      : opened? (h ++ [⟨call, now, stop, reply⟩]) = some now := by
    have unopened : h.find? (·.call.opensStart) = none := by simpa [opened?] using hopened
    simp [opened?, List.find?_append, unopened, hcall]
  apply ensures_reach_post
  . rintro after _ _ ⟨unasked, began⟩
    exact ⟨unasked, fun _ => began (.inl rfl)⟩
  . exact fun hin => absurd hin hstate
  . intro _
    have goesOn {status : BoardStatus} {time : Nat} {h' : List Event}
        (hs : Starting now status (h' ++ [⟨.mark (.begins .start), time, time, some ()⟩]))
        : (s.start s.toBootstrapped).Ensures
            (fun r after _ h' => (∀ e ∈ h', e.call.Unasked) ∧
              (r = some (.ok ()) ∨ after.state = .started → startBegan? h' = some now))
            status time h' := by
      apply (start_starting hs).mono
      rintro r after _ h' ⟨starting, completed⟩
      exact ⟨starting.unasked, Or.rec completed fun hin => absurd hin starting.unstarted⟩
    rw [ensures_bind]
    -- A board that is off is not switched off again, so that the mark of the start opens it.
    by_cases hoff : status.state = .off
    . rw [toOff, reach, ensures_bind, ensures_state, Post.andThen_ok, if_pos hoff, ensures_pure,
        Post.andThen_ok]
      exact goesOn ⟨opens rfl, List.forall_mem_append.mpr ⟨hh, by simp [Call.Unasked]⟩, hstate⟩
    . have switched : toOff.Ensures (starting now) status now h := by
        apply ensures_reach_post
        . rintro after _ _ ⟨opened, unasked, _⟩
          exact ⟨opened, unasked, by simp⟩
        . exact fun hin => absurd hin hoff
        . intro _
          have disconnected {stop : Nat} {reply : Option (Except Error Unit)}
              : Starting now status
                (h ++ [⟨.device (.deactivate .console), now, stop, reply⟩]) :=
            ⟨opens rfl, List.forall_mem_append.mpr ⟨hh, by simp [Call.Unasked]⟩, hstate⟩
          rw [powerOff, ensures_bind, ensures_device]
          refine ⟨disconnected, ?_⟩
          intro stop reply _
          rcases reply with e | ⟨⟨⟩⟩
          . exact disconnected
          . exact disconnected.ensures (by simp [Call.Unasked])
      apply switched.mono
      intro r after _ h' hs
      rcases r with _ | e | ⟨⟨⟩⟩
      . exact ⟨hs.unasked, by simp [hs.unstarted]⟩
      . exact ⟨hs.unasked, by simp [hs.unstarted]⟩
      . exact goesOn (hs.append (by simp [Call.Unasked]))

def Prompted (startedAt : Nat) (report : BootReport) (h : List Event) : Prop :=
  ∃ caught told, startedAt ≤ caught ∧ caught ≤ told ∧ report.duration = told - startedAt ∧
    (∀ time, CaughtAt h time ↔ time = caught) ∧ (∀ time, ToldAt h time ↔ time = told) ∧
    ∀ version, Returned h .bootloaderVersion version → version = report.version

theorem Prompted.append (hp : Prompted startedAt report h) (ht : ∀ e ∈ t, e.call.Unasked)
    : Prompted startedAt report (h ++ t) := by
  simpa [Prompted, caughtAt_append, toldAt_append, not_caughtAt ht, not_toldAt ht,
    not_returned_version ht] using hp

theorem untold_append (hh : ∀ version, ¬Returned h .bootloaderVersion version)
    (ht : ∀ version, ¬Returned t .bootloaderVersion version)
    : ∀ version, ¬Returned (h ++ t) .bootloaderVersion version := by
  intro version
  simp [hh, ht]

theorem timedOut_untold {value : α → BoardStatus → Nat → List Event → Prop}
    (hh : ∀ version, ¬Returned h .bootloaderVersion version)
    : (timedOut began : Drive α).Ensures
        (.either value
          fun after _ h' => after = status ∧ ∀ version, ¬Returned h' .bootloaderVersion version)
        status now h := by
  rw [timedOut, ensures_bind]
  apply drainConsole_within.ensures
  intro r now t ht
  have untold : ∀ version, ¬Returned (h ++ t) .bootloaderVersion version :=
    untold_append hh fun _ => not_returned_version fun e he => (ht e he).unasked (by simp)
  rcases r with _ | e | output
  . exact ⟨rfl, untold⟩
  . exact ⟨rfl, untold⟩
  . rw [Post.andThen_ok, ensures_bind, ensures_clock]
    exact ⟨rfl, untold_append untold (by simp [Returned])⟩

theorem interrupt_prompted (hh : ∀ e ∈ h, e.call.Unasked) (hle : startedAt ≤ now)
    : (s.interrupt startedAt).Ensures
        (.either (fun report after _ h' => after = status ∧ Prompted startedAt report h')
          fun after _ h' => after = status ∧ ∀ version, ¬Returned h' .bootloaderVersion version)
        status now h := by
  rw [interrupt, ensures_bind, ensures_clock, Post.andThen_ok, ensures_bind, ensures_interrupt]
  intro caught r hr
  have waited : ∀ version, ¬Returned
      (h ++ [⟨.clock, now, now, some now⟩] ++
        [⟨.interrupt s.options.interruptTimeout, now, caught, some r⟩])
      .bootloaderVersion version :=
    untold_append (untold_append (fun _ => not_returned_version hh) (by simp [Returned]))
      (by simp [Returned])
  rw [Post.andThen_ok]
  rcases r with _ | e | ⟨⟨⟩⟩
  . exact timedOut_untold waited
  . dsimp only
    split
    . exact timedOut_untold waited
    . exact ⟨rfl, waited⟩
  . dsimp only
    have output {stop : Nat} {reply : Option (Except Error (List UInt8))} :=
      untold_append waited (t := [⟨.device .bootloaderOutput, caught, stop, reply⟩])
        (by simp [Returned])
    rw [readReport, ensures_device_bind]
    refine ⟨⟨rfl, output⟩, fun _ _ _ => ⟨rfl, output⟩, ?_⟩
    intro shown bytes hshown
    rw [ensures_device_bind]
    refine ⟨⟨rfl, untold_append output (by simp [Returned])⟩, ?_, ?_⟩
    . intro stop e _
      exact ⟨rfl, untold_append output (by simp [Returned])⟩
    . intro told version htold
      have uncaught {limit start stop : Nat} {reply : Option (Option (Except Error Unit))}
          : ⟨.interrupt limit, start, stop, reply⟩ ∉ h :=
        hh _
      have untold {start stop : Nat} {reply : Option (Except Error String)}
          : ⟨.device .bootloaderVersion, start, stop, reply⟩ ∉ h :=
        hh _
      rw [ensures_bind, ensures_clock]
      refine ⟨rfl, caught, told, ?_, ?_, rfl, ?_, ?_, ?_⟩
      . exact Nat.le_trans hle hr.le
      . exact Nat.le_trans hshown htold
      . simp [CaughtAt, uncaught]
      . simp [ToldAt, untold]
      . simp [Returned, untold]

structure Timed (before : BoardStatus) (now : Nat) (after : BoardStatus) (h : List Event)
    : Prop where
  resumed : before.state = .started → ∀ e ∈ h, e.call.Unstarted
  began : after.state = .started → before.state = .started ∨ startBegan? h = some now
  caught : ∀ version, Caught h version →
    (before.state = .started ∨ startBegan? h = some now) ∧
      ∃ report, after.report = some report ∧ report.version = version ∧ Prompted now report h

variable {before after : BoardStatus}

theorem Timed.of_untold (hresumed : before.state = .started → ∀ e ∈ h, e.call.Unstarted)
    (hbegan : after.state = .started → before.state = .started ∨ startBegan? h = some now)
    (hh : ∀ version, ¬Returned h .bootloaderVersion version)
    : Timed before now after h :=
  ⟨hresumed, hbegan, fun version hc => absurd hc.right.right (hh version)⟩

theorem Timed.nil : Timed before now before [] :=
  .of_untold (by simp) .inl (by simp [Returned])

theorem Timed.withState (ht : Timed before now after h) (hstate : target ≠ .started)
    : Timed before now { after with state := target } h :=
  ⟨ht.resumed, fun hstarted => absurd hstarted hstate, ht.caught⟩

theorem Timed.append (hh : Timed before now after h)
    (ht : ∀ e ∈ t, e.call.Unbooked ∧ e.call.Unstarted)
    : Timed before now after (h ++ t) where
  resumed hstate :=
    List.forall_mem_append.mpr ⟨hh.resumed hstate, fun e he => (ht e he).right⟩
  began hstate := (hh.began hstate).imp_right startBegan?_append
  caught version hc := by
    rw [caught_append_unbooked fun e he => (ht e he).left] at hc
    obtain ⟨hbegan, report, hreport, hversion, prompted⟩ := hh.caught version hc
    exact ⟨hbegan.imp_right startBegan?_append, report, hreport, hversion,
      prompted.append fun e he => (ht e he).left.unasked⟩

abbrev timed (before : BoardStatus) (now : Nat) : Post BoardStatus Error α :=
  fun _ after _ h => Timed before now after h

theorem reach_timed {step : Drive Unit} (htarget : target ≠ .started)
    (hstep : step.Ensures (timed before now) before now [])
    : (reach target step).Ensures (timed before now) before now [] := by
  apply ensures_reach_post
  . intro _ _ _ ht
    exact ht.withState htarget
  . intro _
    exact .nil
  . intro _
    exact hstep

theorem catch_timed (hh : ∀ e ∈ h, e.call.Unasked) (hle : startedAt ≤ now)
    (hresumed : before.state = .started → ∀ e ∈ h, e.call.Unstarted)
    (hbegan : before.state = .started ∨ startBegan? h = some startedAt)
    : (do
        let report ← s.interrupt startedAt
        modify fun status => { status with report := some report } : Drive Unit).Ensures
        (timed before startedAt) status now h := by
  have extended : (s.interrupt startedAt).Ensures
      (fun _ _ _ h' => ∃ t, h' = h ++ t ∧ ∀ e ∈ t, e.call.Unstarted) status now h :=
    (s.interrupt_within startedAt).ensures fun _ _ t ht =>
      ⟨t, rfl, fun e he => (ht e he).unstarted (by simp)⟩
  rw [ensures_bind]
  apply ((interrupt_prompted hh hle).and extended).mono
  rintro r after _ _ ⟨hr, t, rfl, ht⟩
  have resumed (hstate : before.state = .started) : ∀ e ∈ h ++ t, e.call.Unstarted :=
    List.forall_mem_append.mpr ⟨hresumed hstate, ht⟩
  have began := hbegan.imp_right (startBegan?_append (t := t))
  rcases r with _ | e | report
  . exact .of_untold resumed (fun _ => began) hr.right
  . exact .of_untold resumed (fun _ => began) hr.right
  . refine ⟨resumed, fun _ => began, ?_⟩
    intro version hc
    obtain ⟨_, _, _, _, _, _, _, hversion⟩ := hr.right
    exact ⟨began, report, rfl, (hversion version hc.right.right).symm, hr.right⟩

theorem toBootloader_timed : s.toBootloader.Ensures (timed before now) before now [] := by
  apply reach_timed (by simp)
  rw [ensures_bind, ensures_clock, Post.andThen_ok, ensures_bind]
  have unasked : ∀ e ∈ ([] ++ [⟨.clock, now, now, some now⟩] : List Event), e.call.Unasked := by
    simp [Call.Unasked]
  by_cases hstate : before.state = .started
  . rw [toStarted, reach, ensures_bind, ensures_state, Post.andThen_ok, if_pos hstate, ensures_pure,
      Post.andThen_ok]
    exact catch_timed unasked (Nat.le_refl now) (by simp [Call.Unstarted]) (.inl hstate)
  . apply ((toStarted_began unasked (by simp [opened?, Call.opensStart]) hstate).and
      (ensures_le _)).mono
    rintro r after time h ⟨⟨unasked, began⟩, hle⟩
    rcases r with _ | e | ⟨⟨⟩⟩
    . exact .of_untold (fun hin => absurd hin hstate) (fun hin => .inr (began (.inr hin)))
        fun _ => not_returned_version unasked
    . exact .of_untold (fun hin => absurd hin hstate) (fun hin => .inr (began (.inr hin)))
        fun _ => not_returned_version unasked
    . exact catch_timed unasked hle (fun hin => absurd hin hstate) (.inr (began (.inl rfl)))

theorem toShell_timed : s.toShell.Ensures (timed before now) before now [] := by
  apply reach_timed (by simp)
  rw [ensures_bind]
  apply toBootloader_timed.mono
  intro r after time h ht
  rcases r with _ | e | ⟨⟨⟩⟩
  . exact ht
  . exact ht
  . rw [Post.andThen_ok]
    have boots : s.bootToShell.Within fun c => c.Unbooked ∧ c.Unstarted := by
      simp [bootToShell, Call.Unbooked, Call.Unstarted]
    apply boots.ensures
    intro _ _ t boot
    exact ht.append boot

theorem toStarted_timed : s.toStarted.Ensures (timed before now) before now [] := by
  by_cases hstate : before.state = .started
  . rw [toStarted, reach, ensures_bind, ensures_state, Post.andThen_ok, if_pos hstate]
    exact .nil
  . apply (toStarted_began (by simp) rfl hstate).mono
    rintro r after time h ⟨unasked, began⟩
    exact .of_untold (fun hin => absurd hin hstate) (fun hin => .inr (began (.inr hin)))
      fun _ => not_returned_version unasked

theorem toBootstrapped_timed : s.toBootstrapped.Ensures (timed before now) before now [] := by
  apply toBootstrapped_confined.mono
  rintro _ after _ t ⟨hstate, ht⟩
  apply Timed.of_untold
  . intro _ e he
    exact (ht e he).unstarted (by simp [bootstrapFootprint, installFootprint])
  . intro hin
    rcases hstate with hstate | hstate
    . exact .inl (hstate ▸ hin)
    . simp [hstate] at hin
  . intro version
    apply not_returned_version
    intro e he
    exact (ht e he).unasked (by simp [bootstrapFootprint, installFootprint, Writer.writeLines])

theorem drive_timed (target : BootState)
    : (s.drive target).Ensures (timed before now) before now [] := by
  cases target with
  | unknown => exact .nil
  | off =>
    have switches : powerOff.Within fun c => c.Unbooked ∧ c.Unstarted := by
      simp [powerOff, Call.Unbooked, Call.Unstarted]
    apply reach_timed (by simp)
    apply switches.ensures
    intro _ _ t ht
    exact Timed.nil.append ht
  | bootstrapped => exact toBootstrapped_timed
  | started => exact toStarted_timed
  | bootloader => exact toBootloader_timed
  | shell => exact toShell_timed

theorem perform_timed (request : Request)
    : (s.perform request).Ensures (timed before now) before now [] := by
  cases request with
  | transition target =>
    apply ensures_transition.mpr
    apply (drive_timed target).mono
    intro r after time h ht
    rcases r with _ | e | ⟨⟨⟩⟩
    . exact ht
    . exact ⟨ht.resumed, .inl, ht.caught⟩
    . exact ht
  | force target =>
    by_cases htarget : target = .started
    . subst htarget
      exact .nil
    . have attaches : (attach target).Within fun c => c.Unasked ∧ c.Unstarted := by
        cases target <;> simp [attach, Call.Unasked, Call.Unstarted]
      rw [perform, force, ensures_bind]
      apply attaches.ensures
      intro r time t ht
      have attached : Timed before now before ([] ++ t) :=
        .of_untold (fun _ e he => (ht e he).right) .inl
          fun _ => not_returned_version fun e he => (ht e he).left
      rcases r with _ | e | ⟨⟨⟩⟩
      . exact attached
      . exact attached
      . exact attached.withState htarget

end Strategy

@[simp]
theorem Turn.lastStart?_concat (turns : List Turn) (turn : Turn)
    : lastStart? (turns ++ [turn]) = (startBegan? turn.trace).or (lastStart? turns) := by
  rw [lastStart?, List.reverse_concat, List.findSome?_cons, ← lastStart?]
  cases startBegan? turn.trace <;> rfl

namespace Session

variable {s : Strategy}

theorem lastStart?_of_started (session : Session s turns status ended)
    (hstate : status.state = .started)
    : ∃ began, Turn.lastStart? turns = some began ∧ began ≤ ended := by
  induction session with
  | fresh => cases hstate
  | @request turns before ended now ω w session request lab later ih =>
    obtain ⟨timed, hle⟩ : Strategy.Timed before now _ _ ∧ now ≤ _ :=
      Strategy.ensures_turn ((Strategy.perform_timed request).and (ensures_le _)) lab w
    rw [Turn.lastStart?_concat]
    -- The state alone does not tell which request has started the board.
    by_cases hbefore : before.state = .started
    . obtain ⟨began, hlast, hbegan⟩ := ih hbefore
      refine ⟨began, ?_, Nat.le_trans hbegan (Nat.le_trans later hle)⟩
      rw [startBegan?_eq_none (timed.resumed hbefore), hlast, Option.none_or]
    . have hbegan := (timed.began hstate).resolve_left hbefore
      exact ⟨now, by rw [hbegan, Option.some_or], hle⟩

/--
The duration on record is measured from the beginning of the request that has caught the prompt
until the boot loader had told its version. So it is the time from the beginning of the last start
to the prompt exactly if the request began as long after that start as the version was told after
the prompt was caught. A start that the request runs itself begins with the request.
-/
theorem report_timed (session : Session s turns status ended) (request : Request) (lab : Lab ω)
    (w : ω) (later : ended ≤ now)
    (hcaught : Caught (s.turn request lab w status now).trace version)
    : let turn := s.turn request lab w status now
      ∃ began caught told,
        Turn.lastStart? (turns ++ [turn]) = some began ∧
        (∀ time, CaughtAt turn.trace time ↔ time = caught) ∧
        (∀ time, ToldAt turn.trace time ↔ time = told) ∧
        began ≤ now ∧ now ≤ caught ∧ caught ≤ told ∧
        turn.after.report = some ⟨version, told - now⟩ ∧
        (Begun .start turn.trace → began = now) ∧
        (told - now = caught - began ↔ now - began = told - caught) := by
  intro turn
  obtain ⟨timed, hle⟩ : Strategy.Timed status now turn.after turn.trace ∧ now ≤ turn.ended :=
    Strategy.ensures_turn ((Strategy.perform_timed request).and (ensures_le _)) lab w
  obtain ⟨hstart, report, hreport, hversion, prompted⟩ := timed.caught version hcaught
  obtain ⟨caught, told, hcaught, htold, hduration, hcaughtAt, htoldAt, _⟩ := prompted
  obtain ⟨began, hlast, hbegan, hsame⟩ : ∃ began,
      Turn.lastStart? (turns ++ [turn]) = some began ∧ began ≤ now ∧
        (Begun .start turn.trace → began = now) := by
    rw [Turn.lastStart?_concat]
    -- A board that counts as started is not started again, so its start is an earlier one.
    by_cases hstate : status.state = .started
    . obtain ⟨began, hlast, hbegan⟩ := session.lastStart?_of_started hstate
      refine ⟨began, ?_, Nat.le_trans hbegan later, ?_⟩
      . rw [startBegan?_eq_none (timed.resumed hstate), hlast, Option.none_or]
      . rintro ⟨e, he, hcall⟩
        exact absurd rfl (timed.resumed hstate e he _ hcall)
    . exact ⟨now, by rw [hstart.resolve_left hstate, Option.some_or], Nat.le_refl now, fun _ => rfl⟩
  refine ⟨began, caught, told, hlast, hcaughtAt, htoldAt, hbegan, hcaught, htold, ?_, hsame, ?_⟩
  . rw [hreport, ← hversion, ← hduration]
  . omega

end Session

def lingering : Strategy :=
  .wired { StrategyOptions.forBoard "bananapi" with doBootstrap := true, doSend := true } .sunxi

namespace lingering

def started : Turn :=
  lingering.turn (.transition .started) (.prompt fun _ => false) () .fresh 0

def caught : Turn :=
  lingering.turn (.transition .bootloader) (.prompt fun _ => false) () started.after 1000

theorem caught_trace
    : caught.trace =
      [⟨.clock, 1000, 1000, some 1000⟩, ⟨.clock, 1000, 1000, some 1000⟩,
        ⟨.interrupt 30000, 1000, 1000, some (some (.ok ()))⟩,
        ⟨.device .bootloaderOutput, 1000, 1000, some (.ok [])⟩,
        ⟨.device .bootloaderVersion, 1000, 1000, some (.ok "")⟩,
        ⟨.clock, 1000, 1000, some 1000⟩] :=
  rfl

theorem session : Session lingering [started] started.after started.ended :=
  .request (.fresh : Session lingering [] .fresh 0) _ _ (Nat.le_refl 0)

theorem caught_caught : Caught caught.trace "" := by
  simp [Caught, Attached, Returned, caught_trace]

end lingering

theorem lingering_timed
    : Session lingering [lingering.started] lingering.started.after lingering.started.ended ∧
        lingering.started.ended ≤ 1000 ∧ Caught lingering.caught.trace "" ∧
        ∃ began caught told,
          Turn.lastStart? [lingering.started, lingering.caught] = some began ∧
          (∀ time, CaughtAt lingering.caught.trace time ↔ time = caught) ∧
          (∀ time, ToldAt lingering.caught.trace time ↔ time = told) ∧
          began ≤ 1000 ∧ 1000 ≤ caught ∧ caught ≤ told ∧
          lingering.caught.after.report = some ⟨"", told - 1000⟩ ∧
          (Begun .start lingering.caught.trace → began = 1000) ∧
          (told - 1000 = caught - began ↔ 1000 - began = told - caught) :=
  ⟨lingering.session, by decide, lingering.caught_caught,
    lingering.session.report_timed (.transition .bootloader) (.prompt fun _ => false) ()
      (by decide) lingering.caught_caught⟩

theorem lingering_report_short
    : Session lingering [lingering.started] lingering.started.after lingering.started.ended ∧
        lingering.started.ended ≤ 1000 ∧ Caught lingering.caught.trace "" ∧
        Turn.lastStart? [lingering.started, lingering.caught] = some 0 ∧
        (∀ time, CaughtAt lingering.caught.trace time ↔ time = 1000) ∧
        lingering.caught.after.report = some ⟨"", 0⟩ ∧
        ¬∃ began caught,
          Turn.lastStart? [lingering.started, lingering.caught] = some began ∧
          CaughtAt lingering.caught.trace caught ∧
          lingering.caught.after.report = some ⟨"", caught - began⟩ := by
  have began : Turn.lastStart? [lingering.started, lingering.caught] = some 0 := rfl
  have caughtAt (time : Nat) : CaughtAt lingering.caught.trace time ↔ time = 1000 := by
    simp [CaughtAt, lingering.caught_trace]
  have report : lingering.caught.after.report = some ⟨"", 0⟩ := rfl
  refine ⟨lingering.session, by decide, lingering.caught_caught, began, caughtAt, report, ?_⟩
  rintro ⟨start, time, hstart, htime, hreport⟩
  obtain rfl : 0 = start := Option.some.inj (began.symm.trans hstart)
  obtain rfl : time = 1000 := (caughtAt time).mp htime
  simp [report] at hreport

end BringUp
