import BringUp.Proofs.Boot.Drive
import BringUp.Proofs.Lab.Agenda

/-!
This module contains how long the boot loader prompt is waited for and what is reported. The main
statement is that the wait ends by the limit, that the prompt counts as missed exactly if it has not
shown by then or its driver has given it up before, and that only what is read afterwards can take
longer.
-/

namespace BringUp

open Program Trace

namespace Answer

variable {ω ρ : Type}

def waited (limit : Nat) (a : Answer ω ρ) : Nat :=
  match a.delay with
  | some d => min d limit
  | none => limit

def inTime? (limit : Nat) (a : Answer ω ρ) : Option ρ :=
  match a.delay with
  | some d => if d ≤ limit then some a.reply else none
  | none => none

theorem waited_le {limit : Nat} {a : Answer ω ρ} : a.waited limit ≤ limit := by
  unfold waited
  split
  . exact Nat.min_le_right ..
  . exact Nat.le_refl _

end Answer

theorem Lab.answer_interrupt (lab : Lab ω) (w : ω) (now limit : Nat)
    : lab.answer w now (.interrupt limit) =
        let a := lab.device w now (.activate .bootloader)
        ⟨a.lab, some (a.waited limit), a.inTime? limit⟩ := by
  unfold answer Answer.waited Answer.inTime?
  dsimp only
  cases (lab.device w now (.activate .bootloader)).delay with
  | none => rfl
  | some d =>
    dsimp only
    split
    . next hle => rw [Nat.min_eq_left hle]
    . next hle => rw [Nat.min_eq_right (Nat.le_of_not_le hle)]

def Trace.spent : List Event → Nat
  | [] => 0
  | e :: t => (e.stop - e.start) + spent t

theorem run_now (p : Program σ ε α) (lab : Lab ω) (s : σ) (w : ω) (now : Nat)
    : (p.run lab none s w now).now = now + spent (p.run lab none s w now).trace := by
  induction p generalizing s w now with
  | done r => rfl
  | get next ih => exact ih s s w now
  | set s' next ih => exact ih s' w now
  | call c next ih =>
    cases hd : (lab.answer w now c).delay with
    | none => simp [Program.run, finish?, hd, spent]
    | some d =>
      simp only [Program.run, finish?, hd, spent, ih]
      omega

theorem run_immediate {p : Program σ ε α} {K : Call → Prop} {lab : Lab ω} (hp : p.Within K)
    (hlab : ∀ x t c, K c → (lab.answer x t c).delay = some 0)
    : (p.run lab none s w now).result ≠ none ∧ (p.run lab none s w now).now = now := by
  induction p generalizing w with
  | done r => exact ⟨nofun, rfl⟩
  | get next ih => exact ih s (hp s)
  | set s next ih => exact hp.elim
  | call c next ih =>
    simp only [Program.run, hlab w now c hp.left, finish?]
    exact ih _ (hp.right _)

namespace Strategy

def shown : Except Error (List UInt8) → String
  | .ok bytes => Text.Utf8.decodeLossy bytes
  | .error _ => ""

def reportAgenda : Agenda :=
  [.call .bootloaderOutput id, .call .bootloaderVersion id]

/--
What the boot loader has shown is read, and how it identifies itself, which is reported with how
long it took. An error is reported as it is.
-/
def Reports (startedAt : Nat) (result : Option (Except Error BootReport)) (now : Nat)
    (t : List Event) : Prop :=
  reportAgenda.Carried result t ∧
    ∀ report, result = some (.ok report) →
      report.duration = now - startedAt ∧
        ∃ start, ⟨.device .bootloaderVersion, start, now, some (.ok report.version)⟩ ∈ t

/--
The console is read once, after `waited` milliseconds in which the prompt was missed, and what it
has shown is reported with how long all this took.
-/
def Misses (lab : Lab ω) (x : ω) (began waited : Nat) (result : Option (Except Error BootReport))
    (now : Nat) (t : List Event) : Prop :=
  let console := lab.device x (began + waited) .consoleOutput
  calls t = [.consoleOutput] ∧
    match console.delay with
    | some d =>
      now = began + waited + d ∧
        result =
          some (.error (.interruptTimeout (.ofMillis (waited + d)) (shown console.reply)))
    | none => result = none

def aftermath : List DeviceCall := [.consoleOutput, .bootloaderOutput, .bootloaderVersion]

section

variable {s : Strategy}

theorem readReport_follows : (readReport startedAt).Follows reportAgenda :=
  Agenda.follows_device_bind fun _ => Agenda.follows_device_bind fun _ =>
    Agenda.follows_bind Agenda.follows_clock fun _ => Agenda.follows_pure

theorem readReport_ensures (startedAt : Nat) (status : BoardStatus) (now : Nat)
    : (readReport startedAt).Ensures
        (fun r _ now' t => ∀ report, r = some (.ok report) →
          report.duration = now' - startedAt ∧
            ∃ start, ⟨.device .bootloaderVersion, start, now', some (.ok report.version)⟩ ∈ t)
        status now [] := by
  rw [readReport, ensures_bind, ensures_device]
  refine ⟨by simp, ?_⟩
  intro shown output _
  cases output with
  | error e => simp
  | ok bytes =>
    rw [Post.andThen_ok, ensures_bind, ensures_device]
    refine ⟨by simp, ?_⟩
    intro told version _
    cases version with
    | error e => simp
    | ok text =>
      rw [Post.andThen_ok, ensures_bind, ensures_clock]
      intro report hreport
      cases hreport
      exact ⟨rfl, shown, by simp⟩

theorem readReport_reports (startedAt : Nat) (lab : Lab ω) (status : BoardStatus) (x : ω)
    (reached : Nat)
    : let run := (readReport startedAt).run lab none status x reached
      Reports startedAt run.result run.now run.trace := by
  have told := (readReport_ensures startedAt status reached).run lab x
  exact ⟨readReport_follows.run lab status x reached, told⟩

theorem timedOut_eq (began : Nat)
    : (timedOut began : Drive BootReport) =
        .call (.device .consoleOutput) fun r =>
          .call .clock fun now =>
            .done (.error (.interruptTimeout (.ofMillis (now - began)) (shown r))) := by
  apply congrArg (Program.call _)
  funext r
  cases r <;> rfl

theorem timedOut_misses (began waited : Nat) (lab : Lab ω) (status : BoardStatus) (x : ω)
    : let run := (timedOut began : Drive BootReport).run lab none status x (began + waited)
      Misses lab x began waited run.result run.now run.trace := by
  dsimp only
  rw [timedOut_eq]
  unfold Misses
  cases hd : (lab.device x (began + waited) .consoleOutput).delay with
  | none =>
    simp only [Program.run, Lab.answer, finish?, hd]
    exact ⟨rfl, trivial⟩
  | some d =>
    have elapsed : began + waited + d - began = waited + d := by omega
    simp only [Program.run, Lab.answer, finish?, hd, Nat.add_zero, elapsed]
    exact ⟨rfl, trivial, trivial⟩

def afterWait (startedAt began : Nat) : Option (Except Error Unit) → Drive BootReport
  | some (.ok ()) => readReport startedAt
  | some (.error e) => if e.isInterruptTimeout then timedOut began else raise e
  | none => timedOut began

theorem run_interrupt (startedAt : Nat) (lab : Lab ω) (status : BoardStatus) (w : ω) (now : Nat)
    : let limit := s.options.interruptTimeout
      let a := lab.device w now (.activate .bootloader)
      let reached := now + a.waited limit
      let next := (afterWait startedAt now (a.inTime? limit)).run lab none status a.lab reached
      (s.interrupt startedAt).run lab none status w now =
        { next with
          trace := [⟨.clock, now, now, some now⟩,
            ⟨.interrupt limit, now, reached, some (a.inTime? limit)⟩] ++ next.trace } := by
  have waits : s.interrupt startedAt =
      .call .clock fun began =>
        .call (.interrupt s.options.interruptTimeout) (afterWait startedAt began) := by
    apply congrArg (Program.call _)
    funext began
    apply congrArg (Program.call _)
    funext r
    rcases r with _ | e | ⟨⟨⟩⟩ <;> rfl
  rw [waits]
  simp only [Program.run, Lab.answer_interrupt, finish?]
  rfl

theorem afterWait_within {r : Option (Except Error Unit)}
    : (afterWait startedAt began r).Within fun c =>
        c = .clock ∨ ∃ d ∈ aftermath, c = .device d := by
  have report : (readReport startedAt).Within fun c =>
      c = .clock ∨ ∃ d ∈ aftermath, c = .device d := by
    simp [readReport, aftermath, clock]
  have miss : (timedOut began : Drive BootReport).Within fun c =>
      c = .clock ∨ ∃ d ∈ aftermath, c = .device d := by
    rw [timedOut_eq]
    simp [Within, aftermath]
  unfold afterWait
  split
  . exact report
  . split
    . exact miss
    . trivial
  . exact miss

end

/--
The boot loader is waited for until its driver has replied, but no longer than the limit; what is
over exactly then is in time. If the driver has caught the prompt by then, the boot loader is asked
what to report. If it has failed by then, its error is reported as it is and the console is left
alone, unless it has given up on the prompt itself. That counts as if it had not replied in time:
the console is read once, and the error tells what it has shown and how long it was until then, the
reading included. All this takes exactly as long as the boot loader was waited for and what was
called afterwards took. Where that takes no time, the wait is all.
-/
theorem interrupt_classified (s : Strategy) (startedAt : Nat) (lab : Lab ω) (status : BoardStatus)
    (w : ω) (now : Nat)
    : let limit := s.options.interruptTimeout
      let a := lab.device w now (.activate .bootloader)
      let waited := a.waited limit
      let run := (s.interrupt startedAt).run lab none status w now
      waited ≤ limit ∧
        (∃ wait rest, run.trace = wait ++ rest ∧ calls wait = [.activate .bootloader] ∧
          run.now = now + waited + spent rest ∧
          match a.inTime? limit with
          | some (.ok ()) => Reports startedAt run.result run.now rest
          | some (.error e) =>
            if e.isInterruptTimeout then Misses lab a.lab now waited run.result run.now rest
            else run.result = some (.error e) ∧ rest = []
          | none => Misses lab a.lab now waited run.result run.now rest) ∧
        ((∀ x t c, c ∈ aftermath → (lab.device x t c).delay = some 0) →
          run.result ≠ none ∧ run.now = now + waited) := by
  have interrupted := run_interrupt (s := s) startedAt lab status w now
  dsimp only at interrupted ⊢
  rw [interrupted]
  refine ⟨Answer.waited_le, ⟨_, _, rfl, rfl, run_now .., ?_⟩, ?_⟩
  . dsimp only
    rcases Answer.inTime? _ _ with _ | e | ⟨⟨⟩⟩
    . exact timedOut_misses ..
    . dsimp only [afterWait]
      split
      . exact timedOut_misses ..
      . exact ⟨rfl, rfl⟩
    . exact readReport_reports ..
  . intro hlab
    apply run_immediate afterWait_within
    rintro x t _ (rfl | ⟨c, hc, rfl⟩)
    . rfl
    . exact hlab x t c hc

def mute (console : Nat) : Lab Unit :=
  { Lab.prompt (fun _ => false) with
    device := fun _ _ c =>
      match c with
      | .activate .bootloader => ⟨(), none, .ok ()⟩
      | .consoleOutput => ⟨(), some console, .ok []⟩
      | c => ⟨(), some 0, .ok c.silence⟩ }

theorem mute_given_up
    : let board := wired (.forBoard "rpi_3") .rpi3
      let limit := board.options.interruptTimeout
      let prompt := (board.interrupt 0).run (mute 0) none .fresh () 0
      let slow := (board.interrupt 0).run (mute 10000) none .fresh () 0
      ((∀ x t c, c ∈ aftermath → ((mute 0).device x t c).delay = some 0) ∧
        prompt.result ≠ none ∧ prompt.now = limit) ∧
        slow.now = limit + 10000 ∧
          slow.result = some (.error (.interruptTimeout (.ofMillis (limit + 10000)) "")) := by
  intro board limit prompt slow
  have replied : ∀ x t c, c ∈ aftermath → ((mute 0).device x t c).delay = some 0 := by
    intro x t c hc
    simp only [aftermath, List.mem_cons, List.not_mem_nil, or_false] at hc
    rcases hc with rfl | rfl | rfl <;> rfl
  obtain ⟨_, _, immediate⟩ := interrupt_classified board 0 (mute 0) .fresh () 0
  obtain ⟨ended, reached⟩ := immediate replied
  obtain ⟨_, ⟨_, _, _, _, _, missed⟩, _⟩ :=
    interrupt_classified board 0 (mute 10000) .fresh () 0
  obtain ⟨_, now, error⟩ := missed
  exact ⟨⟨replied, ended, reached.trans (Nat.zero_add _)⟩, now.trans rfl, error⟩

/--
With the console that takes ten seconds the error comes ten seconds after the limit, and tells so.
Declaring that the board shows its prompt waits for the boot loader without any limit.
-/
theorem mute_overruns
    : let board := wired (.forBoard "rpi_3") .rpi3
      let slow := (board.interrupt 0).run (mute 10000) none .fresh () 0
      board.options.interruptTimeout = 30000 ∧ slow.now = 40000 ∧
        slow.result = some (.error (.interruptTimeout (.ofMillis 40000) "")) ∧
        ((force .bootloader).run (mute 0) none .fresh () 0).result = none :=
  ⟨rfl, rfl, rfl, rfl⟩

end Strategy

end BringUp
