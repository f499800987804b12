import BringUp.Lab.Program

/-!
This module contains the running of programs in labs. A lab is anything that replies to calls: it
may fail any of them, take any time for it, or never reply. The main statement is that running two
programs one after another is running the first and then, from where it ended, the second.
-/

namespace BringUp

/--
A reply, how many milliseconds it takes to come, if it ever does, and the lab afterwards.
-/
structure Answer (ω ρ : Type) where
  lab : ω
  delay : Option Nat
  reply : ρ

structure Lab (ω : Type) where
  device : ω → Nat → (c : DeviceCall) → Answer ω (Except Error c.Value)
  host : ω → Nat → (c : HostCall) → Answer ω c.Reply

/--
Reply to a call. Waiting takes exactly as long as asked, and the clock and marks no time. Activating
the boot loader is given up once the limit has passed; what is over exactly then is in time.
-/
def Lab.answer (lab : Lab ω) (w : ω) (now : Nat) : (c : Call) → Answer ω c.Reply
  | .device c => lab.device w now c
  | .host c => lab.host w now c
  | .interrupt limit =>
    let a := lab.device w now (.activate .bootloader)
    match a.delay with
    | some d => if d ≤ limit then ⟨a.lab, some d, some a.reply⟩ else ⟨a.lab, some limit, none⟩
    | none => ⟨a.lab, some limit, none⟩
  | .sleep ms => ⟨w, some ms, ()⟩
  | .clock => ⟨w, some 0, now⟩
  | .mark _ => ⟨w, some 0, ()⟩

/--
A call that was made, and when. Of a call that was not over when the run was given up there is no
reply.
-/
structure Event where
  call : Call
  start : Nat
  stop : Nat
  reply : Option call.Reply

/--
How a run ended. Without a result, it was given up while a call was not over.
-/
structure Run (σ ω ε α : Type) where
  result : Option (Except ε α)
  state : σ
  lab : ω
  now : Nat
  trace : List Event

def finish? (deadline : Option Nat) (now : Nat) (delay : Option Nat) : Option Nat :=
  match delay, deadline with
  | none, _ => none
  | some d, none => some (now + d)
  | some d, some limit => if now + d ≤ limit then some (now + d) else none

/--
Run a program in a lab from some state and time. With a deadline the run is given up at that time if
a call is not over by then, and the program's state stays as it is at that moment.
-/
def Program.run (lab : Lab ω) (deadline : Option Nat)
    : Program σ ε α → σ → ω → Nat → Run σ ω ε α
  | .done r, s, w, now => ⟨some r, s, w, now, []⟩
  | .get next, s, w, now => (next s).run lab deadline s w now
  | .set s next, _, w, now => next.run lab deadline s w now
  | .call c next, s, w, now =>
    let a := lab.answer w now c
    match finish? deadline now a.delay with
    | some stop =>
      let r := (next a.reply).run lab deadline s a.lab stop
      { r with trace := ⟨c, now, stop, some a.reply⟩ :: r.trace }
    | none =>
      let stop := deadline.getD now
      ⟨none, s, a.lab, stop, [⟨c, now, stop, none⟩]⟩

def Run.andThen (r : Run σ ω ε α) (f : α → σ → ω → Nat → Run σ ω ε β) : Run σ ω ε β :=
  match r.result with
  | some (.ok a) =>
    let next := f a r.state r.lab r.now
    { next with trace := r.trace ++ next.trace }
  | some (.error e) => ⟨some (.error e), r.state, r.lab, r.now, r.trace⟩
  | none => ⟨none, r.state, r.lab, r.now, r.trace⟩

theorem Program.run_bind (lab : Lab ω) (deadline : Option Nat) (p : Program σ ε α)
    (f : α → Program σ ε β) (s : σ) (w : ω) (now : Nat)
    : (p.bind f).run lab deadline s w now =
      (p.run lab deadline s w now).andThen fun a => (f a).run lab deadline := by
  induction p generalizing s w now with
  | done r => cases r <;> simp [bind, run, Run.andThen]
  | get next ih => simp [bind, run, ih]
  | set s next ih => simp [bind, run, ih]
  | call c next ih =>
    simp only [bind, run]
    split
    · rw [ih]
      simp only [Run.andThen]
      split <;> simp_all
    · simp [Run.andThen]

end BringUp
