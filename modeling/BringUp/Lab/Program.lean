import BringUp.Lab.Call

/-!
This module contains programs that make calls, as trees that branch with the replies. A program runs
in any lab, keeps a state of its own and ends with a value or an error. The main statement is that
programs form a lawful monad.
-/

namespace BringUp

/--
A program over states `σ` that ends with an error from `ε` or a value from `α`.
-/
inductive Program (σ ε α : Type) where
  | done (result : Except ε α)
  | get (next : σ → Program σ ε α)
  | set (s : σ) (next : Program σ ε α)
  | call (c : Call) (next : c.Reply → Program σ ε α)

namespace Program

variable {σ ε ε' α β : Type}

def bind (p : Program σ ε α) (f : α → Program σ ε β) : Program σ ε β :=
  match p with
  | .done (.ok a) => f a
  | .done (.error e) => .done (.error e)
  | .get next => .get fun s => (next s).bind f
  | .set s next => .set s (next.bind f)
  | .call c next => .call c fun r => (next r).bind f

def handle (p : Program σ ε α) (f : Except ε α → Program σ ε' β) : Program σ ε' β :=
  match p with
  | .done r => f r
  | .get next => .get fun s => (next s).handle f
  | .set s next => .set s (next.handle f)
  | .call c next => .call c fun r => (next r).handle f

instance : Monad (Program σ ε) where
  pure a := .done (.ok a)
  bind := bind

theorem bind_done_ok (p : Program σ ε α) : (p.bind fun a => .done (.ok a)) = p := by
  induction p with
  | done r => cases r <;> rfl
  | get next ih => simp [bind, ih]
  | set s next ih => simp [bind, ih]
  | call c next ih => simp [bind, ih]

theorem bind_bind {γ : Type} (p : Program σ ε α) (f : α → Program σ ε β) (g : β → Program σ ε γ)
    : (p.bind f).bind g = p.bind fun a => (f a).bind g := by
  induction p with
  | done r => cases r <;> rfl
  | get next ih => simp [bind, ih]
  | set s next ih => simp [bind, ih]
  | call c next ih => simp [bind, ih]

instance : LawfulMonad (Program σ ε) := LawfulMonad.mk'
  (Program σ ε)
  bind_done_ok
  (fun _ _ => rfl)
  bind_bind

def raise (e : ε) : Program σ ε α := .done (.error e)

def ofExcept (r : Except ε α) : Program σ ε α := .done r

def mapError (f : ε → ε') (p : Program σ ε α) : Program σ ε' α :=
  p.handle fun
    | .ok a => .done (.ok a)
    | .error e => .done (.error (f e))

def attempt (p : Program σ ε α) : Program σ ε' (Except ε α) :=
  p.handle fun r => .done (.ok r)

def state : Program σ ε σ := .get fun s => .done (.ok s)

def modify (f : σ → σ) : Program σ ε Unit := .get fun s => .set (f s) (.done (.ok ()))

def ask (c : Call) : Program σ ε c.Reply := .call c fun r => .done (.ok r)

def device (c : DeviceCall) : Program σ Error c.Value := .call (.device c) fun r => .done r

def host (c : HostCall) : Program σ ε c.Reply := .call (.host c) fun r => .done (.ok r)

def sleep (ms : Nat) : Program σ ε Unit := ask (.sleep ms)

def clock : Program σ ε Nat := ask .clock

def mark (m : Mark) : Program σ ε Unit := ask (.mark m)

def asPart (part : Part) (p : Program σ ε α) : Program σ ε α := do
  mark (.begins part)
  let result ← p.attempt
  mark (.ends part result.isOk)
  ofExcept result

def forEach (f : α → Program σ ε Unit) : List α → Program σ ε Unit
  | [] => .done (.ok ())
  | a :: as => (f a).bind fun _ => forEach f as

end Program

end BringUp
