import BringUp.Proofs.Boot.Footprint
import BringUp.Proofs.Lab.Trace

/-!
This module contains how the card is shared between the lab and the board. The main statements are
that a write uses the card only while it is attached to the lab, and that it hands the card back in
any case, once what was written has settled.
-/

namespace BringUp

open Program Trace

def DeviceCall.muxMode? : DeviceCall → Option MuxMode
  | .mux mode => some mode
  | _ => none

def Trace.card (t : List Event) : Option MuxMode :=
  Trace.last DeviceCall.muxMode? t

/--
Whether a call may be made while the card is attached to `card`. The lab uses the card only while it
is attached to the lab, and lets the board boot only while it is attached to the board.
-/
def Call.AllowedAt (card : Option MuxMode) : Call → Prop
  | .device c =>
    (c.device = .storage → card = some .host) ∧
      (c = .power .cycle ∨ c = .reset false .cold → card = some .device)
  | _ => True

def CardSafe (before : List Event) (e : Event) : Prop :=
  e.call.AllowedAt (card before)

def Call.SteadyAt (card : Option MuxMode) (c : Call) : Prop :=
  Unset DeviceCall.muxMode? c ∧ c.AllowedAt card

theorem steadyAt_of_covers {f : Footprint} (hc : f.Covers c) (hmux : .sdmux ∉ f.devices)
    (hstorage : .storage ∈ f.devices → x = some .host)
    (hboot : .power ∈ f.devices ∨ .reset ∈ f.devices → x = some .device)
    : c.SteadyAt x := by
  cases c with
  | device c =>
    have hdevice : c.device ∈ f.devices := hc
    refine ⟨?_, ?_, ?_⟩
    . show c.muxMode? = none
      unfold DeviceCall.muxMode?
      split
      . exact absurd hdevice hmux
      . rfl
    . intro heq
      rw [heq] at hdevice
      exact hstorage hdevice
    . rintro (rfl | rfl)
      . exact hboot (.inl hdevice)
      . exact hboot (.inr hdevice)
  | interrupt limit => exact ⟨rfl, trivial⟩
  | mark m => exact ⟨trivial, trivial⟩
  | host c => exact ⟨trivial, trivial⟩
  | sleep ms => exact ⟨trivial, trivial⟩
  | clock => exact ⟨trivial, trivial⟩

section

variable {σ α : Type} {status : σ} {h t : List Event}

theorem card_append_steady (ht : ∀ e ∈ t, e.call.SteadyAt m) : card (h ++ t) = card h :=
  last_append_unset fun e he => (ht e he).left

theorem cardSafe_append_steady (hs : Always CardSafe h)
    (ht : ∀ e ∈ t, e.call.SteadyAt (card h))
    : Always CardSafe (h ++ t) := by
  apply hs.append
  rintro before e after rfl
  have hbefore : card (h ++ before) = card h := by
    apply card_append_steady (m := card h)
    intro x hx
    exact ht x (by simp [hx])
  rw [CardSafe, hbefore]
  exact (ht e (by simp)).right

theorem ensures_steady {p : Program σ Error α} (hs : Always CardSafe h)
    (hp : p.Within (Call.SteadyAt (card h)))
    : p.Ensures
        (fun _ after _ h' => after = status ∧ card h' = card h ∧ Always CardSafe h')
        status now h := by
  apply hp.ensures
  intro r now t ht
  exact ⟨rfl, card_append_steady ht, cardSafe_append_steady hs ht⟩

theorem ensures_allowed {c : DeviceCall} (hs : Always CardSafe h)
    (hc : (Call.device c).AllowedAt (card h))
    : (device c : Program σ Error c.Value).Ensures
        (.either
          (fun _ after _ h' =>
            after = status ∧ card h' = c.muxMode?.or (card h) ∧ Always CardSafe h')
          fun after _ h' => after = status ∧ Always CardSafe h')
        status now h := by
  rw [ensures_device_either]
  refine ⟨⟨rfl, hs.concat hc⟩, ?_, ?_⟩
  . intro _ _ _
    exact ⟨rfl, hs.concat hc⟩
  . intro _ _ _
    refine ⟨rfl, ?_, hs.concat hc⟩
    rw [card, last_append, last_cons]
    rfl

end

namespace Writer

variable {σ : Type} {status : σ} {h : List Event}

theorem takeCard_cardSafe (hs : Always CardSafe h)
    : (takeCard : Program σ Error Unit).Ensures
        (.either
          (fun _ after _ h' => after = status ∧ card h' = some .host ∧ Always CardSafe h')
          fun after _ h' => after = status ∧ Always CardSafe h')
        status now h := by
  apply (ensures_allowed hs (by simp [Call.AllowedAt, DeviceCall.device])).andThen
  rintro _ _ now h ⟨rfl, _, hs⟩
  exact ensures_allowed hs (by simp [Call.AllowedAt, DeviceCall.device])

theorem writePlan_cardSafe (w : Writer) (plan : List PlannedWrite) (hs : Always CardSafe h)
    (hcard : card h = some .host)
    : (w.writePlan plan : Program σ Error Unit).Ensures
        (fun _ after _ h' => after = status ∧ Always CardSafe h') status now h := by
  have steady : (w.writePlan plan : Program σ Error Unit).Within (Call.SteadyAt (card h)) := by
    rw [hcard]
    apply (w.writePlan_within plan).mono
    intro c hc
    exact steadyAt_of_covers hc (by simp) (by simp) (by simp)
  apply (ensures_steady hs steady).mono
  rintro _ _ _ _ ⟨rfl, _, hs⟩
  exact ⟨rfl, hs⟩

theorem writeCard_cardSafe (w : Writer) (plan : List PlannedWrite) (hmux : w.sdmux = true)
    (hs : Always CardSafe h)
    : (w.writeCard plan : Program σ Error Unit).Ensures
        (.either
          (fun _ after _ h' => after = status ∧ card h' = some .device ∧ Always CardSafe h')
          fun after _ h' => after = status ∧ Always CardSafe h')
        status now h := by
  have written : (takeCard.bind fun _ => w.writePlan plan : Program σ Error Unit).Ensures
      (fun _ after _ h' => after = status ∧ Always CardSafe h') status now h := by
    rw [ensures_bind']
    apply (takeCard_cardSafe hs).mono
    intro r after now h' hr
    rcases r with _ | e | a
    . exact hr
    . exact hr
    . obtain ⟨rfl, hcard, hs⟩ := hr
      exact w.writePlan_cardSafe plan hs hcard
  rw [writeCard, if_pos hmux, ensures_bind, ensures_attempt]
  -- From here on a failure is no different: the card is handed back in any case.
  apply written.mono
  rintro r _ now h ⟨rfl, hs⟩
  rcases r with _ | r
  . exact ⟨rfl, hs⟩
  . rw [Post.andHandle_some, ensures_done, Post.andThen_ok, ensures_bind, ensures_sleep,
      Post.andThen_ok, ensures_bind, ensures_attempt]
    have slept : Always CardSafe (h ++ [⟨.sleep w.options.settleDelay, now,
        now + w.options.settleDelay, some ()⟩]) :=
      hs.concat trivial
    apply (ensures_allowed slept (by simp [Call.AllowedAt, DeviceCall.device])).mono
    intro restored after now h hr
    rcases restored with _ | e | ⟨⟨⟩⟩
    . exact hr
    . rw [Post.andHandle_some, ensures_done, Post.andThen_ok, ensures_ofExcept]
      cases r with
      | error _ => exact hr
      | ok _ => exact hr
    . rw [Post.andHandle_some, ensures_done, Post.andThen_ok, ensures_ofExcept]
      obtain ⟨rfl, hcard, hs⟩ := hr
      cases r with
      | error _ => exact ⟨rfl, hs⟩
      | ok _ => exact ⟨rfl, hcard, hs⟩

end Writer

def Event.OnCard (e : Event) : Prop :=
  ∃ c, e.call = .device c ∧ (c.device = .storage ∨ c.device = .emulator)

/--
The last of the events of a write is an attempt to attach the card to the board, `settle`
milliseconds or more after the storage and the emulator were used last.
-/
def HandsBack (settle : Nat) (write : List Event) : Prop :=
  ∃ body back, write = body ++ [back] ∧ back.call = .device (.mux .device) ∧
    ∀ e ∈ body, e.OnCard → e.stop + settle ≤ back.start

def GivenUp (t : List Event) : Prop :=
  ∃ before last, t = before ++ [last] ∧ last.reply = none

theorem Writer.writeCard_handsBack {σ : Type} {status : σ} (w : Writer) (plan : List PlannedWrite)
    (hmux : w.sdmux = true)
    : (w.writeCard plan : Program σ Error Unit).Ensures
        (fun r _ _ t => r = none ∨ HandsBack w.options.settleDelay t) status now [] := by
  rw [writeCard, if_pos hmux, ensures_bind, ensures_attempt]
  apply (ensures_stop_le _ (by simp)).mono
  intro r status now t hstop
  rcases r with _ | r
  . exact .inl rfl
  . rw [Post.andHandle_some, ensures_done, Post.andThen_ok, ensures_bind, ensures_sleep,
      Post.andThen_ok, ensures_bind, ensures_attempt, ensures_device]
    have handsBack {stop : Nat} {reply : Option (Except Error Unit)}
        : HandsBack w.options.settleDelay
            (t ++ [⟨.sleep w.options.settleDelay, now, now + w.options.settleDelay, some ()⟩] ++
              [⟨.device (.mux .device), now + w.options.settleDelay, stop, reply⟩]) := by
      refine ⟨_, _, rfl, rfl, ?_⟩
      -- All events before the sleep were over when it began, and it is not an event on the card.
      intro e he hcard
      rcases List.mem_append.mp he with he | he
      . exact Nat.add_le_add_right (hstop e he) _
      . obtain ⟨c, hc, _⟩ := hcard
        rw [List.mem_singleton.mp he] at hc
        cases hc
    constructor
    . exact .inl rfl
    . intro stop restored _
      exact .inr handsBack

/--
The events of a write, with what follows it. A write ends with a mark after it has handed the card
back, unless it is given up.
-/
structure WriteOf (settle : Nat) (write rest : List Event) : Prop where
  unmarked : ∀ e ∈ write, ∀ m, e.call = .mark m → m.part ≠ .write
  closed : GivenUp write ∨
    (HandsBack settle write ∧
      ∃ last after success, rest = last :: after ∧ last.call = .mark (.ends .write success))

def HandedBack (settle : Nat) (t : List Event) : Prop :=
  ∀ before e after, t = before ++ e :: after → e.call = .device (.mux .host) →
    ∃ opening first left right rest,
      before = opening ++ first :: left ∧ after = right ++ rest ∧
        first.call = .mark (.begins .write) ∧ WriteOf settle (left ++ e :: right) rest

theorem WriteOf.append (hw : WriteOf settle events rest) : WriteOf settle events (rest ++ t) where
  unmarked := hw.unmarked
  closed := by
    rcases hw.closed with hgiven | ⟨hback, last, after, success, hrest, hlast⟩
    . exact .inl hgiven
    . refine .inr ⟨hback, last, after ++ t, success, ?_, hlast⟩
      rw [hrest, List.cons_append]

namespace HandedBack

theorem append (hh : HandedBack settle h) (ht : HandedBack settle t)
    : HandedBack settle (h ++ t) := by
  intro before e after hsplit hcall
  -- The write of an attempt is where the attempt is, only what follows it may be longer.
  rcases append_eq_append_cons_iff.mp hsplit with ⟨back, hfirst, rfl⟩ | ⟨front, rfl, hsecond⟩
  . obtain ⟨opening, first, left, right, rest, hbefore, rfl, hbegins, hwrite⟩ :=
      hh before e back hfirst hcall
    exact ⟨opening, first, left, right, rest ++ t, hbefore, List.append_assoc .., hbegins,
      hwrite.append⟩
  . obtain ⟨opening, first, left, right, rest, rfl, hafter, hbegins, hwrite⟩ :=
      ht front e after hsecond hcall
    exact ⟨h ++ opening, first, left, right, rest, (List.append_assoc ..).symm, hafter, hbegins,
      hwrite⟩

theorem of_forall (ht : ∀ e ∈ t, e.call ≠ .device (.mux .host)) : HandedBack settle t := by
  rintro before e after rfl hcall
  exact absurd hcall (ht e (by simp))

theorem of_writeOf (hbegins : first.call = .mark (.begins .write))
    (hwrite : WriteOf settle events rest) (hrest : ∀ e ∈ rest, e.call ≠ .device (.mux .host))
    : HandedBack settle (first :: events ++ rest) := by
  intro before e after hsplit hcall
  rcases append_eq_append_cons_iff.mp hsplit with ⟨right, hinner, rfl⟩ | ⟨front, _, hlast⟩
  -- The attempt is not the mark in front, so what is left of it begins with that mark.
  . cases before with
    | nil =>
      obtain ⟨rfl, _⟩ : first = e ∧ events = right := by simpa using hinner
      rw [hbegins] at hcall
      cases hcall
    | cons x left =>
      obtain ⟨rfl, rfl⟩ : first = x ∧ events = left ++ e :: right := by simpa using hinner
      exact ⟨[], first, left, right, rest, rfl, rfl, hbegins, hwrite⟩
  . exact absurd hcall (hrest e (by simp [hlast]))

end HandedBack

namespace Writer

variable {σ : Type} {status : σ}

theorem writeCard_inner (w : Writer) (plan : List PlannedWrite) (hmux : w.sdmux = true)
    : (w.writeCard plan : Program σ Error Unit).Ensures
        (fun r _ _ t =>
          (∀ e ∈ t, Footprint.Covers ⟨writeLines, []⟩ e.call) ∧
            (r = none → GivenUp t) ∧ (r ≠ none → HandsBack w.options.settleDelay t))
        status now [] := by
  have covered : (w.writeCard plan : Program σ Error Unit).Ensures
      (fun _ _ _ t => ∀ e ∈ t, Footprint.Covers ⟨writeLines, []⟩ e.call) status now [] := by
    apply (w.writeCard_within plan).ensures
    intro _ _ _ ht
    exact ht
  apply (covered.and ((ensures_hung _).and (w.writeCard_handsBack plan hmux))).mono
  rintro r _ _ t ⟨hcovers, hung, hback⟩
  exact ⟨hcovers, hung, hback.resolve_left⟩

theorem asPart_handedBack (w : Writer) (plan : List PlannedWrite) (hmux : w.sdmux = true)
    (hh : HandedBack w.options.settleDelay h)
    : (asPart .write (w.writeCard plan) : Program σ Error Unit).Ensures
        (fun _ _ _ h' => HandedBack w.options.settleDelay h') status now h := by
  rw [ensures_asPart, ensures_iff_nil]
  apply (w.writeCard_inner plan hmux).mono
  rintro r status now' t ⟨hcovers, hung, hback⟩
  have unmarked : ∀ e ∈ t, ∀ m, e.call = .mark m → m.part ≠ .write := by
    intro e he m hm
    have covers := hcovers e he
    rw [hm] at covers
    cases covers
  cases r with
  -- A write that is given up has no mark at its end.
  | none =>
    have events : WriteOf w.options.settleDelay t [] := ⟨unmarked, .inl (hung rfl)⟩
    have whole : HandedBack w.options.settleDelay
        (⟨.mark (.begins .write), now, now, some ()⟩ :: t ++ []) :=
      .of_writeOf rfl events (by simp)
    simpa using hh.append whole
  | some r =>
    have ended {e : Event} (he : e.call = .mark (.ends .write r.isOk))
        : WriteOf w.options.settleDelay t [e] :=
      ⟨unmarked, .inr ⟨hback nofun, e, [], r.isOk, rfl, he⟩⟩
    have whole : HandedBack w.options.settleDelay
        (⟨.mark (.begins .write), now, now, some ()⟩ :: t ++
          [⟨.mark (.ends .write r.isOk), now', now', some ()⟩]) :=
      .of_writeOf rfl (ended rfl) (by simp)
    simpa using hh.append whole

end Writer

structure CardKept (settle : Nat) (h : List Event) : Prop where
  safe : Always CardSafe h
  handedBack : HandedBack settle h

theorem CardKept.nil : CardKept settle [] :=
  ⟨always_nil, .of_forall (by simp)⟩

theorem CardKept.append_steady (hk : CardKept settle h)
    (ht : ∀ e ∈ t, e.call.SteadyAt (card h))
    : CardKept settle (h ++ t) := by
  refine ⟨cardSafe_append_steady hk.safe ht, hk.handedBack.append (.of_forall ?_)⟩
  intro e he hcall
  have steady := ht e he
  rw [hcall] at steady
  cases steady.left

theorem steadyAt_mark : (Call.mark m).SteadyAt x :=
  ⟨trivial, trivial⟩

section

variable {σ : Type} {status : σ}

theorem CardKept.ensures_steady {α : Type} {p : Program σ Error α} (hk : CardKept settle h)
    (hp : p.Within (Call.SteadyAt (card h)))
    : p.Ensures
        (fun _ after _ h' => after = status ∧ card h' = card h ∧ CardKept settle h')
        status now h := by
  apply hp.ensures
  intro r now t ht
  exact ⟨rfl, card_append_steady ht, hk.append_steady ht⟩

theorem Writer.write_cardKept (w : Writer) (dir : String) (hmux : w.sdmux = true)
    (hk : CardKept w.options.settleDelay h)
    : (w.write dir : Program σ Error Unit).Ensures
        (.either
          (fun _ after _ h' =>
            after = status ∧ card h' = some .device ∧ CardKept w.options.settleDelay h')
          fun after _ h' => after = status ∧ CardKept w.options.settleDelay h')
        status now h := by
  rw [write, ensures_bind, ensures_ofExcept]
  cases w.planWrite dir with
  | error e => exact ⟨rfl, hk⟩
  | ok plan =>
    rw [Post.andThen_ok]
    have safe : (asPart .write (w.writeCard plan) : Program σ Error Unit).Ensures
        (.either
          (fun _ after _ h' => after = status ∧ card h' = some .device ∧ Always CardSafe h')
          fun after _ h' => after = status ∧ Always CardSafe h')
        status now h := by
      have began : Always CardSafe (h ++ [⟨.mark (.begins .write), now, now, some ()⟩]) :=
        hk.safe.concat trivial
      apply ensures_asPart_either
      . apply (w.writeCard_cardSafe plan hmux began).mono_value
        rintro _ _ _ _ ⟨rfl, hcard, hs⟩
        refine ⟨rfl, ?_, hs.concat trivial⟩
        rw [← hcard]
        exact card_append_steady (m := none) (by simp [steadyAt_mark])
      . rintro _ _ _ ⟨rfl, hs⟩
        exact ⟨rfl, hs.concat trivial⟩
    apply (safe.and (w.asPart_handedBack plan hmux hk.handedBack)).mono
    rintro r _ _ _ ⟨hr, hh⟩
    rcases r with _ | e | a
    . exact ⟨hr.left, hr.right, hh⟩
    . exact ⟨hr.left, hr.right, hh⟩
    . exact ⟨hr.left, hr.right.left, hr.right.right, hh⟩

theorem Writer.prepareBoot_cardKept (w : Writer) (hmux : w.sdmux = true)
    (hk : CardKept settle h)
    : (w.prepareBoot : Program σ Error Unit).Ensures
        (.either
          (fun _ after _ h' => after = status ∧ card h' = some .device ∧ CardKept settle h')
          fun after _ h' => after = status ∧ CardKept settle h')
        status now h := by
  rw [prepareBoot, if_pos hmux]
  have allowed : (Call.device (.mux .device)).AllowedAt (card h) := by
    simp [Call.AllowedAt, DeviceCall.device]
  have handed : (device (.mux .device) : Program σ Error Unit).Ensures
      (fun _ _ _ h' => HandedBack settle h') status now h := by
    apply Within.ensures (K := fun c => c = .device (.mux .device)) (by simp)
    intro _ _ t ht
    apply hk.handedBack.append
    apply HandedBack.of_forall
    intro e he hcall
    rw [ht e he] at hcall
    cases hcall
  apply ((ensures_allowed hk.safe allowed).and handed).mono
  rintro r _ _ _ ⟨hr, hh⟩
  rcases r with _ | e | a
  . exact ⟨hr.left, hr.right, hh⟩
  . exact ⟨hr.left, hr.right, hh⟩
  . exact ⟨hr.left, hr.right.left, hr.right.right, hh⟩

end

end BringUp
