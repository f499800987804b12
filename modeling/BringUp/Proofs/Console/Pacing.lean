import BringUp.Proofs.Console.Transfer

/-!
This module contains how far apart the bytes are that a session sends. The main statement is that
of two bytes in a row the second one comes a full period after the first one exactly if it is sent
at least as late after its beat as the first one was, where a beat that is far too late counts as
one on time.
-/

namespace BringUp

namespace Pacer

def lateness (p : Pacer) (now : Nat) : Nat := now - p.due

/--
The time by which the next beat comes too early if this one is taken late.
-/
def slack (p : Pacer) (now : Nat) : Nat :=
  if now ≤ p.due + tolerance then p.lateness now else 0

def beats (p : Pacer) (times : List Nat) : Pacer :=
  times.foldl beat p

def Awaits (p : Pacer) : List Nat → Prop
  | [] => True
  | now :: times => p.due ≤ now ∧ (p.beat now).Awaits times

variable {p : Pacer} {times : List Nat} {now i n : Nat}

@[simp]
theorem beats_nil : p.beats [] = p :=
  rfl

@[simp]
theorem beats_cons : p.beats (now :: times) = (p.beat now).beats times :=
  rfl

theorem beats_concat : p.beats (times ++ [now]) = (p.beats times).beat now := by
  simp [beats]

theorem period_beats : (p.beats times).period = p.period := by
  induction times generalizing p with
  | nil => rfl
  | cons now times ih => exact ih

theorem slack_le_lateness : p.slack now ≤ p.lateness now := by
  unfold slack
  split
  . exact Nat.le_refl _
  . exact Nat.zero_le _

theorem slack_le_tolerance : p.slack now ≤ tolerance := by
  unfold slack lateness
  split
  . omega
  . exact Nat.zero_le _

theorem due_beat (hdue : p.due ≤ now)
    : (p.beat now).due + p.slack now = now + p.period := by
  unfold beat slack lateness
  dsimp only
  split <;> omega

theorem awaits_concat
    : p.Awaits (times ++ [now]) ↔ p.Awaits times ∧ (p.beats times).due ≤ now := by
  induction times generalizing p with
  | nil => simp [Awaits]
  | cons first times ih => simp [Awaits, ih, and_assoc]

theorem beats_take_succ (hi : times[i]? = some now)
    : p.beats (times.take (i + 1)) = (p.beats (times.take i)).beat now := by
  rw [List.take_add_one, hi]
  exact beats_concat

theorem Awaits.due_le (awaits : p.Awaits times) (hi : times[i]? = some now)
    : (p.beats (times.take i)).due ≤ now := by
  induction times generalizing p i with
  | nil => cases hi
  | cons first times ih =>
    cases i with
    | zero => exact Option.some.inj hi ▸ awaits.left
    | succ i => exact ih awaits.right hi

theorem Awaits.due_succ (awaits : p.Awaits times) (hi : times[i]? = some now)
    : (p.beats (times.take (i + 1))).due + (p.beats (times.take i)).slack now =
        now + p.period := by
  rw [beats_take_succ hi, due_beat (awaits.due_le hi), period_beats]

/--
A later beat is due a whole number of periods later, less the time by which the first of them is too
early. What the beats in between are late is not taken off.
-/
theorem Awaits.le_due (awaits : p.Awaits times) (hi : times[i]? = some now)
    (hlength : i + n + 1 ≤ times.length)
    : now + (n + 1) * p.period ≤
        (p.beats (times.take (i + n + 1))).due + (p.beats (times.take i)).slack now := by
  induction n with
  | zero =>
    rw [Nat.add_zero, awaits.due_succ hi]
    simp
  | succ n ih =>
    obtain ⟨next, hnext⟩ : ∃ next, times[i + n + 1]? = some next :=
      ⟨_, List.getElem?_eq_getElem (by omega)⟩
    have earlier := ih (by omega)
    have hdue := awaits.due_le hnext
    have due := awaits.due_succ hnext
    have late : (p.beats (times.take (i + n + 1))).slack next ≤
        next - (p.beats (times.take (i + n + 1))).due :=
      slack_le_lateness
    rw [Nat.succ_mul, ← Nat.add_assoc i n 1]
    omega

theorem Awaits.gap (awaits : p.Awaits times) (hi : times[i]? = some now)
    (hnext : times[i + 1]? = some next)
    : next + (p.beats (times.take i)).slack now =
        now + p.period + (p.beats (times.take (i + 1))).lateness next := by
  have due := awaits.due_succ hi
  have hdue := awaits.due_le hnext
  unfold lateness
  omega

end Pacer

namespace RelaySession

def sentTimes (s : RelaySession) : List Nat := s.sent.map Prod.fst

def pacerAt (o : RelayOptions) (began : Nat) (s : RelaySession) (i : Nat) : Pacer :=
  (Pacer.starting o.txInterval began).beats (s.sentTimes.take i)

structure Paced (o : RelayOptions) (began : Nat) (s : RelaySession) : Prop where
  awaits : (Pacer.starting o.txInterval began).Awaits s.sentTimes
  pacer : s.exit = none → s.pacer = (Pacer.starting o.txInterval began).beats s.sentTimes

section

variable {o : RelayOptions} {ends : RelayEnds} {began now : Nat} {s s' : RelaySession}
variable {events : List (Nat × RelayEvent)} {e : RelayEvent}

theorem beat_eq_some (hstep : s.step? ends now .beat = some s')
    : s.exit = none ∧ s.pacer.due ≤ now ∧
        ∃ byte rest, s.pending = byte :: rest ∧
          (s' = { s with
              pacer := s.pacer.beat now, pending := rest, sent := s.sent ++ [(now, byte)] } ∨
            ∃ text, s' = { s with pacer := s.pacer.beat now, pending := rest }.fail text) := by
  obtain ⟨hopen, rfl⟩ := step?_eq_some hstep
  have hallows : s.allows now .beat = true := by
    unfold step? at hstep
    split at hstep
    . assumption
    . cases hstep
  simp only [allows, hopen, Option.isNone_none, Bool.true_and, Bool.and_eq_true, decide_eq_true_eq,
    Bool.not_eq_true', List.isEmpty_eq_false_iff] at hallows
  obtain ⟨hpending, hdue⟩ := hallows
  obtain ⟨byte, rest, hpending⟩ := List.exists_cons_of_ne_nil hpending
  refine ⟨hopen, hdue, byte, rest, hpending, ?_⟩
  simp only [after, sendNext, hpending]
  split
  . exact .inl rfl
  . exact .inr ⟨_, rfl⟩

theorem showBytes_sent : (s.showBytes ends now bytes).sent = s.sent := by
  rcases showBytes_cases s ends now bytes with heq | ⟨_, heq⟩
  . rw [heq]
  . rw [heq]
    rfl

theorem showBytes_pacer : (s.showBytes ends now bytes).pacer = s.pacer := by
  rcases showBytes_cases s ends now bytes with heq | ⟨_, heq⟩
  . rw [heq]
  . rw [heq]
    rfl

theorem after_unsent (he : e ≠ .beat)
    : (s.after ends now e).sent = s.sent ∧ (s.after ends now e).pacer = s.pacer := by
  cases e with
  | read bytes => cases bytes <;> exact ⟨showBytes_sent, showBytes_pacer⟩
  | readError text => exact ⟨rfl, rfl⟩
  | typed chunk =>
    obtain ⟨d, heq, _⟩ := take_eq s now chunk
    rw [after, heq]
    dsimp only
    split
    . exact ⟨showBytes_sent, showBytes_pacer⟩
    . exact ⟨rfl, rfl⟩
  | typedEnd => exact ⟨rfl, rfl⟩
  | beat => exact absurd rfl he

theorem Paced.step (paced : Paced o began s) (hstep : s.step? ends now e = some s')
    : Paced o began s' := by
  by_cases he : e = .beat
  . obtain ⟨hopen, hdue, byte, rest, _, rfl | ⟨text, rfl⟩⟩ := beat_eq_some (he ▸ hstep)
    . have times : sentTimes { s with
          pacer := s.pacer.beat now, pending := rest, sent := s.sent ++ [(now, byte)] } =
          s.sentTimes ++ [now] := by
        simp [sentTimes]
      refine ⟨?_, fun _ => ?_⟩
      . rw [times, Pacer.awaits_concat, ← paced.pacer hopen]
        exact ⟨paced.awaits, hdue⟩
      . rw [times, Pacer.beats_concat, ← paced.pacer hopen]
    . exact ⟨paced.awaits, fun hexit => by cases hexit⟩
  . obtain ⟨hopen, rfl⟩ := step?_eq_some hstep
    obtain ⟨hsent, hpacer⟩ : (s.after ends now e).sent = s.sent ∧
        (s.after ends now e).pacer = s.pacer := after_unsent he
    refine ⟨?_, fun _ => ?_⟩
    . rw [sentTimes, hsent]
      exact paced.awaits
    . rw [sentTimes, hsent, hpacer]
      exact paced.pacer hopen

theorem Reaches.paced (reaches : Reaches o ends began events s now) : Paced o began s := by
  induction reaches with
  | start => exact ⟨trivial, fun _ => rfl⟩
  | step _ _ hstep ih => exact ih.step hstep

/--
Two bytes of a session are as many periods apart as there are beats from one to the other, less the
few milliseconds by which the beat after the first one comes too early. Two bytes in a row are a
full period apart exactly if the second one is at least that much later than its beat.
-/
theorem Reaches.spaced (reaches : Reaches o ends began events s now)
    : (∀ i n first second,
          s.sentTimes[i]? = some first → s.sentTimes[i + n + 1]? = some second →
            first + (n + 1) * max o.txInterval 1 ≤ second + (pacerAt o began s i).slack first) ∧
        (∀ i first second,
          s.sentTimes[i]? = some first → s.sentTimes[i + 1]? = some second →
            (first + max o.txInterval 1 ≤ second ↔
              (pacerAt o began s i).slack first ≤ (pacerAt o began s (i + 1)).lateness second)) ∧
        ∀ i time, s.sentTimes[i]? = some time →
          (pacerAt o began s i).due ≤ time ∧
            (pacerAt o began s i).slack time ≤ Pacer.tolerance := by
  have awaits := reaches.paced.awaits
  have period : (Pacer.starting o.txInterval began).period = max o.txInterval 1 := rfl
  refine ⟨?_, ?_, ?_⟩
  . intro i n first second hfirst hsecond
    obtain ⟨hlt, _⟩ := List.getElem?_eq_some_iff.mp hsecond
    calc first + (n + 1) * max o.txInterval 1
      _ ≤ (pacerAt o began s (i + n + 1)).due + (pacerAt o began s i).slack first :=
        awaits.le_due hfirst (Nat.le_of_lt hlt)
      _ ≤ second + (pacerAt o began s i).slack first :=
        Nat.add_le_add_right (awaits.due_le hsecond) _
  . intro i first second hfirst hsecond
    have gap := awaits.gap hfirst hsecond
    rw [period] at gap
    unfold pacerAt
    omega
  . intro i time htime
    exact ⟨awaits.due_le htime, Pacer.slack_le_tolerance⟩

end

namespace hurried

def options : RelayOptions := { RelayOptions.initial with txInterval := 10 }

def events : List (Nat × RelayEvent) := [(4, .typed [97, 98]), (4, .beat), (10, .beat)]

def last : RelaySession where
  detector := .fresh 29 500
  pacer := ⟨10, 20⟩
  pending := []
  inputOpen := true
  output := []
  sent := [(4, 97), (10, 98)]
  exit := none

theorem reaches : Reaches options parting.ends 0 events last 10 :=
  .step (.step (.step .start (Nat.zero_le 4) rfl) (Nat.le_refl 4) rfl) (Nat.le_add_right 4 6) rfl

end hurried

theorem hurried_spaced
    : Reaches hurried.options parting.ends 0 hurried.events hurried.last 10 ∧
        hurried.last.sentTimes = [4, 10] ∧
        4 + 1 * max hurried.options.txInterval 1 ≤
          10 + (pacerAt hurried.options 0 hurried.last 0).slack 4 :=
  ⟨hurried.reaches, rfl, hurried.reaches.spaced.left 0 0 4 10 rfl rfl⟩

theorem hurried_crowded
    : ¬∀ o ends began events s now, Reaches o ends began events s now →
        s.sentTimes.Pairwise fun first second => first + max o.txInterval 1 ≤ second := by
  intro spaced
  have apart := spaced _ _ _ _ _ _ hurried.reaches
  revert apart
  decide

end RelaySession

end BringUp
