import BringUp.Proofs.Boot.Footprint

/-!
This module contains what can be requested of a strategy, one request after another, and the rules
by which the requests are reasoned about.
-/

namespace BringUp

open Program

inductive Request where
  | transition (target : BootState)
  | force (target : BootState)
deriving DecidableEq

@[simp]
def Request.target : Request → BootState
  | transition target | force target => target

namespace Strategy

def perform (s : Strategy) : Request → Drive Unit
  | .transition target => s.transition target
  | .force target => force target

end Strategy

structure Turn where
  request : Request
  before : BoardStatus
  result : Option (Except Error Unit)
  after : BoardStatus
  ended : Nat
  trace : List Event

def Strategy.turn (s : Strategy) (request : Request) (lab : Lab ω) (w : ω) (before : BoardStatus)
    (now : Nat) : Turn :=
  let r := (s.perform request).run lab none before w now
  ⟨request, before, r.result, r.state, r.now, r.trace⟩

def Turn.events (turns : List Turn) : List Event := turns.flatMap Turn.trace

/--
The requests made of a strategy since it was new, the status that they have left and the time.
Between the requests any time may pass, and the lab may change in any way. A request whose last call
has no reply may be given up and followed by others.
-/
inductive Session (s : Strategy) : List Turn → BoardStatus → Nat → Prop where
  | fresh : Session s [] .fresh now
  | request {ω : Type} {w : ω} (session : Session s turns status ended) (request : Request)
      (lab : Lab ω) (later : ended ≤ now)
      : Session s (turns ++ [s.turn request lab w status now])
          (s.turn request lab w status now).after (s.turn request lab w status now).ended

def DeviceCall.silence : (c : DeviceCall) → c.Value
  | .consoleOutput | .bootloaderOutput => []
  | .bootloaderVersion => ""
  | .shellRun _ => .silent
  | .activate _ | .deactivate _ | .power _ | .reset _ _ | .recovery _ | .boot _ | .awaitBoot
  | .mux _ | .writeImage _ _ | .writeFiles _ _ | .emulate _ | .load _ _ | .execute => ()

def HostCall.consent : (c : HostCall) → c.Reply
  | .run _ => .ok ⟨some 0, "", ""⟩
  | .pathExists _ | .isDirectory _ | .isPopulated _ => true
  | .createPatch _ | .readText _ => .ok ""
  | .removePatch _ => ()
  | .createDirs _ | .createLog _ | .connect _ => .ok ()

def Lab.prompt (fails : DeviceCall → Bool) : Lab Unit where
  device _ _ c :=
    ⟨(), some 0, if fails c then .error (.capability "lab" "failure") else .ok c.silence⟩
  host _ _ c := ⟨(), some 0, c.consent⟩

def Strategy.wired (options : StrategyOptions) (method : Method) : Strategy where
  options := options
  provider := .initial []
  writer := ⟨.forMethod method.name, method, true, true, true, true⟩
  powerResource := "power"
  reset := some ⟨"reset", false⟩
  recovery := true

@[simp]
theorem Turn.events_concat (turns : List Turn) (turn : Turn)
    : Turn.events (turns ++ [turn]) = Turn.events turns ++ turn.trace := by
  simp [Turn.events]

namespace Strategy

variable {value : Unit → BoardStatus → Nat → List Event → Prop}
variable {failure : BoardStatus → Nat → List Event → Prop}

theorem ensures_reach {step : Drive Unit}
    (hin : status.state = target → value () status now h)
    (hstep : status.state ≠ target →
      step.Ensures
        (.either (fun _ s now h => value () { s with state := target } now h) failure)
        status now h)
    : (reach target step).Ensures (.either value failure) status now h := by
  rw [reach, ensures_bind, ensures_state, Post.andThen_ok]
  split
  . next heq => exact hin heq
  . next hne =>
    apply (hstep hne).andThen
    intro _ s now h hv
    exact hv

theorem ensures_reach_post {Q : Post BoardStatus Error Unit} {step : Drive Unit}
    (hq : ∀ after now h, Q (some (.ok ())) after now h →
      Q (some (.ok ())) { after with state := target } now h)
    (hin : status.state = target → Q (some (.ok ())) status now h)
    (hstep : status.state ≠ target → step.Ensures Q status now h)
    : (reach target step).Ensures Q status now h := by
  rw [reach, ensures_bind, ensures_state, Post.andThen_ok]
  split
  . next heq => exact hin heq
  . next hne =>
    rw [ensures_bind]
    apply (hstep hne).mono
    intro r after now h hr
    rcases r with _ | e | ⟨⟨⟩⟩
    . exact hr
    . exact hr
    . exact hq after now h hr

theorem reach_state {step : Drive Unit}
    : (reach target step).Ensures (.either (fun _ s _ _ => s.state = target) fun _ _ _ => True)
        status now h := by
  apply ensures_reach
  . exact id
  . intro _
    apply Ensures.mono (Q := fun _ _ _ _ => True)
    . apply ensures_trivial
    . intro r s now h _
      rcases r with _ | e | a <;> trivial

theorem drive_state (s : Strategy) (target : BootState)
    : (s.drive target).Ensures (.either (fun _ s _ _ => s.state = target) fun _ _ _ => True)
        status now h := by
  cases target with
  | unknown => trivial
  | off => apply reach_state
  | bootstrapped => apply reach_state
  | started => apply reach_state
  | bootloader => apply reach_state
  | shell => apply reach_state

theorem ensures_transition {s : Strategy} {Q : Post BoardStatus Error Unit}
    : (s.transition target).Ensures Q status now h ↔
        (s.drive target).Ensures
          (fun r after now h =>
            match r with
            | some (.error e) => Q (some (.error e)) { after with state := status.state } now h
            | r => Q r after now h)
          status now h := by
  rw [transition, ensures_bind, ensures_state, Post.andThen_ok, ensures_bind, ensures_attempt]
  apply Iff.of_eq
  congr 1
  funext r after now h
  rcases r with _ | e | a <;> rfl

theorem ensures_transition_value {s : Strategy}
    (hdrive : (s.drive target).Ensures (.either value fun _ _ _ => True) status now h)
    : (s.transition target).Ensures (.either value fun _ _ _ => True) status now h := by
  apply ensures_transition.mpr
  apply hdrive.mono
  intro r after now h hr
  rcases r with _ | e | a
  . trivial
  . trivial
  . exact hr

theorem turn_same (s : Strategy) (lab : Lab ω) (w : ω) (status : BoardStatus) (now : Nat)
    (hstate : status.state ≠ .unknown)
    : s.turn (.transition status.state) lab w status now =
        ⟨.transition status.state, status, some (.ok ()), status, now, []⟩ := by
  rcases status with ⟨state, bootstrapped, report⟩
  cases state with
  | unknown => contradiction
  | off => rfl
  | bootstrapped => rfl
  | started => rfl
  | bootloader => rfl
  | shell => rfl

theorem ensures_turn {s : Strategy} {Q : Post BoardStatus Error Unit}
    (hrequest : (s.perform request).Ensures Q before now []) (lab : Lab ω) (w : ω)
    : Q (s.turn request lab w before now).result (s.turn request lab w before now).after
        (s.turn request lab w before now).ended (s.turn request lab w before now).trace := by
  have run := hrequest.run lab w
  rw [List.nil_append] at run
  exact run

end Strategy

end BringUp
