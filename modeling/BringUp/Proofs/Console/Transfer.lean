import BringUp.Console.Relay
import BringUp.Proofs.Console.Escape

/-!
This module contains what becomes of the bytes that a session relays. The main statement is that
what is sent and what waits to be sent are together what was typed, and that what is shown is what
was read, in whatever order a session is occupied with its two sides.
-/

namespace BringUp.RelaySession

open EscapeDetector

/--
The sessions that are reached from one that begins at some time, with what they were occupied with
and when. Time passes in between, and only what a session allows happens.
-/
inductive Reaches (o : RelayOptions) (ends : RelayEnds) (began : Nat)
    : List (Nat × RelayEvent) → RelaySession → Nat → Prop where
  | start : Reaches o ends began [] (.starting o began) began
  | step (reaches : Reaches o ends began events s last) (later : last ≤ now)
      (hstep : s.step? ends now e = some s') : Reaches o ends began (events ++ [(now, e)]) s' now

def typedBytes (events : List (Nat × RelayEvent)) : List (UInt8 × Nat) :=
  events.flatMap fun
    | (now, .typed chunk) => chunk.map (·, now)
    | _ => []

def readBytes (events : List (Nat × RelayEvent)) : List UInt8 :=
  events.flatMap fun
    | (_, .read bytes) => bytes
    | _ => []

def FindsClosed (events : List (Nat × RelayEvent)) : Prop :=
  ∃ now, (now, .read []) ∈ events

def sentBytes (s : RelaySession) : List UInt8 := s.sent.map Prod.snd

def shownBytes (s : RelaySession) : List UInt8 := s.output.flatMap Prod.snd

def Broken (s : RelaySession) : Prop :=
  ∃ e, s.exit = some (.error e)

def takeChunks (s : RelaySession) (ends : RelayEnds) (now : Nat) : List (List UInt8) → RelaySession
  | [] => s
  | chunk :: chunks => ((s.step? ends now (.typed chunk)).getD s).takeChunks ends now chunks

section

variable {s : RelaySession} {ends : RelayEnds} {now : Nat} {chunk rest : List UInt8}
variable {reason : RelayExit}

theorem step?_eq_some (hstep : s.step? ends now e = some s')
    : s.exit = none ∧ s' = s.after ends now e := by
  unfold step? at hstep
  split at hstep
  . next hallows =>
    simp only [allows, Bool.and_eq_true, Option.isNone_iff_eq_none] at hallows
    exact ⟨hallows.left, (Option.some.inj hstep).symm⟩
  . cases hstep

theorem step?_eq_none (hexit : s.exit ≠ none) : s.step? ends now e = none := by
  cases hstep : s.step? ends now e with
  | none => rfl
  | some s' => exact absurd (step?_eq_some hstep).left hexit

theorem showBytes_cases (s : RelaySession) (ends : RelayEnds) (now : Nat) (bytes : List UInt8)
    : s.showBytes ends now bytes = { s with output := s.output ++ [(now, bytes)] } ∨
        ∃ text, s.showBytes ends now bytes = s.fail text := by
  unfold showBytes
  split
  . exact .inl rfl
  . exact .inr ⟨_, rfl⟩

theorem close_cases (hopen : s.exit = none) (ends : RelayEnds) (now : Nat) (reason : RelayExit)
    : s.close ends now reason =
          { s with output := s.output ++ [(now, [10])], exit := some (.ok reason) } ∨
        ∃ text, s.close ends now reason = s.fail text := by
  unfold close
  rcases showBytes_cases s ends now [10] with hshown | ⟨text, hfailed⟩
  . left
    simp [hshown, hopen]
  . right
    refine ⟨text, ?_⟩
    rw [hfailed]
    rfl

theorem close_exit : (s.close ends now reason).exit ≠ none := by
  simp [close]

theorem take_nil : s.take now [] = (false, s) :=
  rfl

theorem take_cons
    : s.take now (byte :: rest) =
        if (s.detector.feed byte now).1 then
          (true, { s with detector := (s.detector.feed byte now).2 })
        else
          take
            { s with
              detector := (s.detector.feed byte now).2, pending := s.pending ++ [byte] }
            now rest :=
  rfl

theorem take_eq (s : RelaySession) (now : Nat) (chunk : List UInt8)
    : ∃ d,
        s.take now chunk =
          ((s.detector.completedAt? (chunk.map (·, now))).isSome,
            { s with
              detector := d, pending := s.pending ++ s.detector.accepted (chunk.map (·, now)) }) ∧
          (s.detector.completedAt? (chunk.map (·, now)) = none →
            d = s.detector.feeds (chunk.map (·, now))) := by
  induction chunk generalizing s with
  | nil => exact ⟨s.detector, by simp [take_nil], fun _ => rfl⟩
  | cons byte rest ih =>
    rw [take_cons, List.map_cons, completedAt?_cons, accepted_cons, feeds]
    split
    . exact ⟨(s.detector.feed byte now).2, by simp, by simp⟩
    . obtain ⟨d, heq, hd⟩ := @ih
        { s with detector := (s.detector.feed byte now).2, pending := s.pending ++ [byte] }
      refine ⟨d, ?_, ?_⟩
      . rw [heq]
        simp
      . intro hnone
        exact hd (by simpa using hnone)

theorem take_append (hquiet : (s.take now chunk).1 = false)
    : s.take now (chunk ++ rest) = (s.take now chunk).2.take now rest := by
  induction chunk generalizing s with
  | nil => rfl
  | cons byte chunk ih =>
    rw [take_cons] at hquiet
    rw [List.cons_append, take_cons, take_cons]
    split at hquiet
    . cases hquiet
    . next hfired =>
      rw [if_neg hfired, if_neg hfired]
      exact ih hquiet

theorem take_append_of_fired (hfired : (s.take now chunk).1 = true)
    : s.take now (chunk ++ rest) = s.take now chunk := by
  induction chunk generalizing s with
  | nil => cases hfired
  | cons byte chunk ih =>
    rw [take_cons] at hfired
    rw [List.cons_append, take_cons, take_cons]
    split
    . rfl
    . next hquiet =>
      rw [if_neg hquiet] at hfired
      exact ih hfired

theorem take_exit : (s.take now chunk).2.exit = s.exit := by
  obtain ⟨d, heq, _⟩ := take_eq s now chunk
  rw [heq]

theorem take_inputOpen : (s.take now chunk).2.inputOpen = s.inputOpen := by
  obtain ⟨d, heq, _⟩ := take_eq s now chunk
  rw [heq]

theorem step?_typed (chunk : List UInt8)
    : s.step? ends now (.typed chunk) =
        if s.exit.isNone && s.inputOpen then some (s.after ends now (.typed chunk)) else none :=
  rfl

theorem takeChunks_eq {chunks : List (List UInt8)}
    : s.takeChunks ends now chunks =
        (s.step? ends now (.typed chunks.flatten)).getD s := by
  induction chunks generalizing s with
  | nil =>
    rw [takeChunks, step?_typed]
    split <;> rfl
  | cons chunk chunks ih =>
    rw [takeChunks, ih, List.flatten_cons, step?_typed chunk, step?_typed (chunk ++ _)]
    cases hallows : s.exit.isNone && s.inputOpen with
    | false => simp [step?_typed, hallows]
    | true =>
      simp only [if_true, Option.getD_some, after]
      cases hfired : (s.take now chunk).1 with
      | true =>
        rw [take_append_of_fired hfired]
        simp [hfired, step?_typed, close_exit]
      | false =>
        rw [take_append hfired]
        simp [step?_typed, take_exit, take_inputOpen, hallows, after]

end

@[simp]
theorem typedBytes_append {events more : List (Nat × RelayEvent)}
    : typedBytes (events ++ more) = typedBytes events ++ typedBytes more := by
  simp [typedBytes]

@[simp]
theorem readBytes_append {events more : List (Nat × RelayEvent)}
    : readBytes (events ++ more) = readBytes events ++ readBytes more := by
  simp [readBytes]

@[simp]
theorem typedBytes_singleton
    : typedBytes [(now, e)] =
        match e with
        | .typed chunk => chunk.map (·, now)
        | _ => [] := by
  cases e <;> simp [typedBytes]

@[simp]
theorem readBytes_singleton
    : readBytes [(now, e)] =
        match e with
        | .read bytes => bytes
        | _ => [] := by
  cases e <;> simp [readBytes]

@[simp]
theorem findsClosed_append {events more : List (Nat × RelayEvent)}
    : FindsClosed (events ++ more) ↔ FindsClosed events ∨ FindsClosed more := by
  simp [FindsClosed, exists_or]

@[simp]
theorem findsClosed_singleton : FindsClosed [(now, e)] ↔ e = .read [] := by
  simp [FindsClosed, eq_comm]

structure Flows (o : RelayOptions) (events : List (Nat × RelayEvent)) (s : RelaySession)
    : Prop where
  detector : s.detector = (fresh o.escapeByte o.escapeWindow).feeds (typedBytes events)
  quiet : (fresh o.escapeByte o.escapeWindow).completedAt? (typedBytes events) = none
  unclosed : ¬FindsClosed events
  conserved : s.sentBytes ++ s.pending = (typedBytes events).map Prod.fst
  shown : s.shownBytes = readBytes events

def Tracks (o : RelayOptions) (events : List (Nat × RelayEvent)) (s : RelaySession) : Prop :=
  let detector := fresh o.escapeByte o.escapeWindow
  match s.exit with
  | none => Flows o events s
  | some (.ok .disconnected) =>
    (detector.completedAt? (typedBytes events)).isSome ∧ ¬FindsClosed events ∧
      s.sentBytes ++ s.pending = detector.accepted (typedBytes events) ∧
      s.shownBytes = readBytes events ++ [10]
  | some (.ok .remoteClosed) =>
    detector.completedAt? (typedBytes events) = none ∧ FindsClosed events ∧
      s.sentBytes ++ s.pending = (typedBytes events).map Prod.fst ∧
      s.shownBytes = readBytes events ++ [10]
  | some (.error _) => s.sentBytes <+: detector.accepted (typedBytes events)

section

variable {o : RelayOptions} {ends : RelayEnds} {began now : Nat} {s s' : RelaySession}
variable {events : List (Nat × RelayEvent)} {e : RelayEvent}

theorem Flows.tracks (flows : Flows o events s) (hopen : s.exit = none) : Tracks o events s := by
  simpa [Tracks, hopen] using flows

theorem Flows.broken (flows : Flows o events s) (hsent : s'.sent = s.sent)
    (hexit : s'.exit = some (.error err))
    : Tracks o (events ++ more) s' := by
  simp only [Tracks, hexit, typedBytes_append, accepted_append flows.quiet, ← flows.conserved]
  rw [sentBytes, hsent, List.append_assoc]
  exact List.prefix_append ..

theorem starting_flows : Flows o [] (.starting o began) where
  detector := rfl
  quiet := rfl
  unclosed := by simp [FindsClosed]
  conserved := rfl
  shown := rfl

theorem Flows.idle (flows : Flows o events s) (htyped : typedBytes more = [])
    (hread : readBytes more = []) (hopen : ¬FindsClosed more)
    (hdetector : s'.detector = s.detector)
    (hsent : s'.sentBytes ++ s'.pending = s.sentBytes ++ s.pending) (hshown : s'.output = s.output)
    : Flows o (events ++ more) s' where
  detector := by rw [hdetector, flows.detector, typedBytes_append, htyped, List.append_nil]
  quiet := by rw [typedBytes_append, htyped, List.append_nil, flows.quiet]
  unclosed := by simp [flows.unclosed, hopen]
  conserved := by rw [hsent, flows.conserved, typedBytes_append, htyped, List.append_nil]
  shown := by
    rw [shownBytes, hshown, ← shownBytes, flows.shown, readBytes_append, hread, List.append_nil]

theorem Flows.shows (flows : Flows o events s) (hopen : s.exit = none) (hbytes : bytes ≠ [])
    : Tracks o (events ++ [(now, .read bytes)]) (s.showBytes ends now bytes) := by
  rcases showBytes_cases s ends now bytes with heq | ⟨text, heq⟩
  . rw [heq]
    refine Flows.tracks ⟨?_, ?_, ?_, ?_, ?_⟩ hopen
    . simpa using flows.detector
    . simpa using flows.quiet
    . simpa [hbytes] using flows.unclosed
    . simpa [sentBytes] using flows.conserved
    . simpa [shownBytes] using flows.shown
  . rw [heq]
    exact flows.broken rfl rfl

theorem Flows.closed (flows : Flows o events s) (hopen : s.exit = none)
    : Tracks o (events ++ [(now, .read [])]) (s.close ends now .remoteClosed) := by
  rcases close_cases hopen ends now .remoteClosed with heq | ⟨text, heq⟩
  . rw [heq]
    refine ⟨?_, ?_, ?_, ?_⟩
    . simpa using flows.quiet
    . simp
    . simpa [sentBytes] using flows.conserved
    . simpa [shownBytes] using flows.shown
  . rw [heq]
    exact flows.broken rfl rfl

theorem Flows.typed (flows : Flows o events s) (hopen : s.exit = none)
    : Tracks o (events ++ [(now, .typed chunk)]) (s.after ends now (.typed chunk)) := by
  obtain ⟨d, heq, hd⟩ := take_eq s now chunk
  have completes := completedAt?_append flows.quiet (chunk.map (·, now))
  have accepts := accepted_append flows.quiet (chunk.map (·, now))
  rw [← flows.detector] at completes accepts
  rw [after, heq]
  dsimp only
  split
  . next hfired =>
    have taken : ({ s with
        detector := d
        pending := s.pending ++ s.detector.accepted (chunk.map (·, now)) } : RelaySession).exit =
          none :=
      hopen
    rcases close_cases taken ends now .disconnected with heq | ⟨text, heq⟩
    . rw [heq]
      refine ⟨?_, ?_, ?_, ?_⟩
      . simpa [completes] using hfired
      . simpa using flows.unclosed
      . simp [sentBytes, accepts, ← flows.conserved]
      . simpa [shownBytes] using flows.shown
    . rw [heq]
      exact flows.broken rfl rfl
  . next hquiet =>
    have hnone : s.detector.completedAt? (chunk.map (·, now)) = none := by simpa using hquiet
    refine Flows.tracks ⟨?_, ?_, ?_, ?_, ?_⟩ hopen
    . simp [hd hnone, feeds_append, flows.detector]
    . simpa [completes] using hnone
    . simpa using flows.unclosed
    . simp [sentBytes, accepted_of_completedAt?_eq_none hnone, ← flows.conserved]
    . simpa [shownBytes] using flows.shown

theorem Flows.beat (flows : Flows o events s) (hopen : s.exit = none)
    : Tracks o (events ++ [(now, .beat)]) (s.after ends now .beat) := by
  rw [after]
  unfold sendNext
  dsimp only
  split
  . next hpending =>
    exact Flows.tracks (flows.idle (by simp) (by simp) (by simp) rfl rfl rfl) hopen
  . next byte rest hpending =>
    split
    . refine Flows.tracks (flows.idle (by simp) (by simp) (by simp) rfl ?_ rfl) hopen
      simp [sentBytes, hpending]
    . exact flows.broken rfl rfl

theorem Tracks.step (tracks : Tracks o events s) (hstep : s.step? ends now e = some s')
    : Tracks o (events ++ [(now, e)]) s' := by
  obtain ⟨hopen, rfl⟩ := step?_eq_some hstep
  have flows : Flows o events s := by simpa [Tracks, hopen] using tracks
  cases e with
  | read bytes =>
    cases bytes with
    | nil => exact flows.closed hopen
    | cons byte bytes => exact flows.shows hopen (by simp)
  | readError text => exact flows.broken rfl rfl
  | typed chunk => exact flows.typed hopen
  | typedEnd =>
    exact Flows.tracks (flows.idle (by simp) (by simp) (by simp) rfl rfl rfl) hopen
  | beat => exact flows.beat hopen

theorem Reaches.tracks (reaches : Reaches o ends began events s now) : Tracks o events s := by
  induction reaches with
  | start => exact starting_flows.tracks rfl
  | step _ _ hstep ih => exact ih.step hstep

/--
Until reading or writing fails, what was sent and what waits are together what was typed, and what
was read is shown, with a line feed behind it once the session has ended. A session that was ended
by the sequence keeps only what was typed in front of the byte that completed it. It ends that way
exactly if the sequence was typed, and because of the remote exactly if that was found closed.
Nothing happens after the end. Whatever fails, what was sent is the first part of what was typed. It
does not matter into which chunks bytes are cut that are taken at the same time.
-/
theorem Reaches.bytes_kept (reaches : Reaches o ends began events s now)
    : (¬s.Broken →
        (s.exit ≠ some (.ok .disconnected) →
          s.sentBytes ++ s.pending = (typedBytes events).map Prod.fst) ∧
        (∀ n, (fresh o.escapeByte o.escapeWindow).completedAt? (typedBytes events) = some n →
          s.sentBytes ++ s.pending = ((typedBytes events).take n).map Prod.fst ∧
            ∃ time, (typedBytes events)[n]? = some (o.escapeByte, time)) ∧
        (s.exit = some (.ok .disconnected) ↔
          ∃ n, (fresh o.escapeByte o.escapeWindow).completedAt? (typedBytes events) = some n) ∧
        (s.exit = some (.ok .remoteClosed) ↔ FindsClosed events) ∧
        s.shownBytes = readBytes events ++ if s.exit.isSome then [10] else []) ∧
      (s.exit ≠ none → ∀ time e, s.step? ends time e = none) ∧
      s.sentBytes <+: (fresh o.escapeByte o.escapeWindow).accepted (typedBytes events) ∧
      ∀ time chunks chunks', chunks.flatten = chunks'.flatten →
        s.takeChunks ends time chunks = s.takeChunks ends time chunks' := by
  have tracks := reaches.tracks
  have ended (hexit : s.exit ≠ none) (time : Nat) (e : RelayEvent) : s.step? ends time e = none :=
    step?_eq_none hexit
  have joined (time : Nat) (chunks chunks' : List (List UInt8))
      (hflatten : chunks.flatten = chunks'.flatten)
      : s.takeChunks ends time chunks = s.takeChunks ends time chunks' := by
    rw [takeChunks_eq, takeChunks_eq, hflatten]
  unfold Tracks at tracks
  dsimp only at tracks
  split at tracks
  . next hexit =>
    refine ⟨fun _ => ⟨fun _ => tracks.conserved, ?_, ?_, ?_, ?_⟩, ended, ?_, joined⟩
    . simp [tracks.quiet]
    . simp [tracks.quiet, hexit]
    . simp [tracks.unclosed, hexit]
    . simp [tracks.shown, hexit]
    . rw [accepted_of_completedAt?_eq_none tracks.quiet, ← tracks.conserved]
      exact List.prefix_append ..
  . next hexit =>
    obtain ⟨completed, unclosed, conserved, shown⟩ := tracks
    refine ⟨fun _ => ⟨fun hne => absurd hexit hne, ?_, ?_, ?_, ?_⟩, ended, ?_, joined⟩
    . intro n hn
      rw [conserved, accepted_of_completedAt?_eq_some hn]
      exact ⟨rfl, byte_of_completedAt? hn⟩
    . simp [hexit, Option.isSome_iff_exists.mp completed]
    . simp [hexit, unclosed]
    . simp [hexit, shown]
    . exact ⟨_, conserved⟩
  . next hexit =>
    obtain ⟨quiet, closed, conserved, shown⟩ := tracks
    refine ⟨fun _ => ⟨fun _ => conserved, ?_, ?_, ?_, ?_⟩, ended, ?_, joined⟩
    . simp [quiet]
    . simp [quiet, hexit]
    . simp [hexit, closed]
    . simp [hexit, shown]
    . rw [accepted_of_completedAt?_eq_none quiet]
      exact ⟨_, conserved⟩
  . next err hexit => exact ⟨fun hbroken => absurd ⟨err, hexit⟩ hbroken, ended, tracks, joined⟩

end

namespace parting

def ends : RelayEnds := ⟨fun _ => .ok (), fun _ => .ok ()⟩

def events : List (Nat × RelayEvent) :=
  [(0, .read [79, 107]), (3, .typed [104, 29]), (4, .beat), (9, .typed [29, 120])]

def last : RelaySession where
  detector := .fresh 29 500
  pacer := ⟨5, 5⟩
  pending := [29]
  inputOpen := true
  output := [(0, [79, 107]), (9, [10])]
  sent := [(4, 104)]
  exit := some (.ok .disconnected)

theorem reaches : Reaches .initial ends 0 events last 9 :=
  .step (.step (.step (.step .start (Nat.le_refl 0) rfl) (Nat.zero_le 3) rfl) (Nat.le_succ 3) rfl)
    (Nat.le_add_right 4 5) rfl

end parting

theorem parting_bytes_kept
    : Reaches .initial parting.ends 0 parting.events parting.last 9 ∧ ¬parting.last.Broken ∧
        parting.last.sentBytes ++ parting.last.pending = [104, 29] ∧
        parting.last.shownBytes = readBytes parting.events ++ [10] := by
  have unbroken : ¬parting.last.Broken := by
    rintro ⟨e, hexit⟩
    cases hexit
  have kept := parting.reaches.bytes_kept.left unbroken
  have completed : (fresh 29 500).completedAt? (typedBytes parting.events) = some 2 := by decide
  refine ⟨parting.reaches, unbroken, ?_, ?_⟩
  . exact (kept.right.left 2 completed).left
  . exact kept.right.right.right.right

end BringUp.RelaySession
