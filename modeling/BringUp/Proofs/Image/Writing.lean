import BringUp.Proofs.Boot.Drive
import BringUp.Proofs.Image.FailStop
import BringUp.Proofs.Image.Transfers
import BringUp.Proofs.Lab.Agenda

/-!
This module contains the order in which an image is written. The main statement is that the planned
parts are written one after another up to the first failure, which is the one that is reported, and
that the storage is held from before the first part until after the last.
-/

namespace BringUp

open Program Trace Writer
open Agenda (follows_device follows_device_bind follows_raise follows_mapError follows_forEach)

theorem Writer.firstError_eq_ok {first second : Except ε Unit}
    : firstError first second = .ok () ↔ first = .ok () ∧ second = .ok () := by
  cases first <;> simp [firstError]

theorem PlannedWrite.writesPart_transfer (p : PlannedWrite) : p.transfer.writesPart = true := by
  unfold PlannedWrite.transfer
  cases p.target <;> rfl

theorem PlannedWrite.transfers_transfer (p : PlannedWrite) : p.transfer.transfers = true := by
  unfold PlannedWrite.transfer
  cases p.target <;> rfl

theorem PlannedWrite.device_transfer (p : PlannedWrite)
    : p.transfer.device = if p.needsStorage then .storage else .emulator := by
  unfold PlannedWrite.transfer PlannedWrite.needsStorage
  cases p.target <;> simp [DeviceCall.device]

def DeviceCall.OnCard (c : DeviceCall) : Prop :=
  c.device = .storage ∨ c.device = .emulator

/--
Some events are all calls that release what was taken, each made whether or not one before it has
failed. What was done before ended with `first`, and the first error of all is the result.
-/
inductive Released
    : List DeviceCall → Option (Except Error Unit) → Option (Except Error Unit) → List Event → Prop
    where
  | givenUp : Released cs none none []
  | done : Released [] (some r) (some r) []
  | other (he : e.call.onLine? = none) (hr : Released cs (some first) r t)
      : Released cs (some first) r (e :: t)
  | call (reply : Except Error c.Value)
      (hr : Released cs (some (firstError first (reply.map fun _ => ()))) r t)
      : Released (c :: cs) (some first) r (⟨.device c, start, stop, some reply⟩ :: t)
  | hangs : Released (c :: cs) (some first) none [⟨.device c, start, stop, none⟩]

namespace Released

variable {cs cs' : List DeviceCall} {result : Option (Except Error Unit)} {r : Except Error Unit}

theorem append (hu : Released cs first (some r) u) (hv : Released cs' (some r) result v)
    : Released (cs ++ cs') first result (u ++ v) := by
  generalize hend : some r = ending at hu
  induction hu with
  | givenUp => cases hend
  | done =>
    cases hend
    exact hv
  | other he _ ih => exact .other he (ih hend)
  | call reply _ ih => exact .call reply (ih hend)
  | hangs => cases hend

theorem of_none (hu : Released cs first none u) : Released (cs ++ cs') first none u := by
  generalize hend : none = ending at hu
  induction hu with
  | givenUp => exact .givenUp
  | done => cases hend
  | other he _ ih => exact .other he (ih hend)
  | call reply _ ih => exact .call reply (ih hend)
  | hangs => exact .hangs

theorem concat_other (hu : Released cs first (some r) u) (he : e.call.onLine? = none)
    : Released cs first (some r) (u ++ [e]) := by
  have last : Released [] (some r) (some r) [e] := .other he .done
  simpa using hu.append last

theorem calls_prefix (hu : Released cs first result u) : calls u <+: cs := by
  induction hu with
  | givenUp => exact List.nil_prefix ..
  | done => exact List.nil_prefix ..
  | other he _ ih =>
    rw [calls, List.filterMap_cons, he]
    exact ih
  | call reply _ ih => exact List.prefix_cons_inj _ |>.mpr ih
  | hangs => exact List.prefix_cons_inj _ |>.mpr (List.nil_prefix ..)

theorem head_mem (hu : Released (c :: cs) (some r) result u) : c ∈ calls u := by
  generalize hall : c :: cs = all at hu
  generalize hfirst : some r = first at hu
  induction hu with
  | givenUp => cases hfirst
  | done => cases hall
  | other he _ ih =>
    rw [calls, List.filterMap_cons, he]
    exact ih hall hfirst
  | call reply _ _ =>
    cases hall
    exact List.mem_cons_self ..
  | hangs =>
    cases hall
    exact List.mem_cons_self ..

theorem ok_iff (hu : Released cs first result u)
    : result = some (.ok ()) ↔ first = some (.ok ()) ∧ ∀ e ∈ u, ¬e.Failed := by
  induction hu with
  | givenUp => simp
  | done => simp
  | other he _ ih => simp [ih, Event.not_failed_of_onLine? he]
  | call reply _ ih =>
    rw [ih, List.forall_mem_cons, Option.some.injEq, Option.some.injEq, firstError_eq_ok]
    cases reply with
    | error e =>
      constructor
      . rintro ⟨⟨_, hok⟩, _⟩
        cases hok
      . rintro ⟨_, hclean, _⟩
        exact absurd Event.failed_error hclean
    | ok v =>
      constructor
      . rintro ⟨⟨rfl, _⟩, hclean⟩
        exact ⟨rfl, Event.not_failed_value, hclean⟩
      . rintro ⟨rfl, _, hclean⟩
        exact ⟨⟨rfl, rfl⟩, hclean⟩
  | hangs =>
    constructor
    . nofun
    . rintro ⟨_, hclean⟩
      exact absurd Event.failed_unreplied (hclean _ (List.mem_singleton_self _))

end Released

/--
Whether some events are all calls of an agenda up to the first that does not succeed, followed by
all calls that release what was taken by then.
-/
def Carries (agenda : Agenda) (taken : List Event → List DeviceCall)
    (result : Option (Except Error Unit)) (t : List Event) : Prop :=
  ∃ first h u, t = h ++ u ∧ agenda.Carried first h ∧ Released (taken h) first result u

section

variable {σ : Type} {agenda : Agenda} {taken : List Event → List DeviceCall}

theorem carries_of_follows {p : Program σ Error Unit} (hp : p.Follows agenda)
    : p.Ensures (fun r _ _ t => Carries agenda (fun _ => []) r t) s now [] := by
  apply (hp s now).mono
  intro r _ _ t ht
  cases r with
  | none => exact ⟨none, t, [], by simp, ht, .givenUp⟩
  | some r => exact ⟨some r, t, [], by simp, ht, .done⟩

theorem carries_release {p q : Program σ Error Unit}
    (hp : p.Ensures (fun r _ _ t => Carries agenda taken r t) s now [])
    (hq : ∀ s now first,
      q.Ensures (fun r _ _ u => Released [c] (some first) (r.map (firstError first)) u) s now [])
    : (do
        let result ← p.attempt
        let released ← q.attempt
        ofExcept (firstError result released) : Program σ Error Unit).Ensures
        (fun r _ _ t => Carries agenda (fun h => taken h ++ [c]) r t) s now [] := by
  rw [ensures_bind, ensures_attempt]
  apply hp.mono
  rintro r s now _ ⟨first, h, u, rfl, hcarried, hu⟩
  cases r with
  | none => exact ⟨first, h, u, rfl, hcarried, hu.of_none⟩
  | some r =>
    rw [Post.andHandle_some, ensures_done, Post.andThen_ok, ensures_bind, ensures_attempt,
      ensures_iff_nil]
    apply (hq s now r).mono
    intro r' _ _ v hv
    cases r' with
    | none => exact ⟨first, h, u ++ v, by simp, hcarried, hu.append hv⟩
    | some r' => exact ⟨first, h, u ++ v, by simp, hcarried, hu.append hv⟩

end

namespace Writer

def partItems (w : Writer) (p : PlannedWrite) : Agenda :=
  if p.needsStorage then [.call p.transfer (w.partError p)]
  else if w.emulator then
    [.call (.activate .emulator) (w.partError p), .call p.transfer (w.partError p)]
  else [.unbound (w.partError p (.capability "emulator" "not bound"))]

def partsAgenda (w : Writer) (plan : List PlannedWrite) : Agenda :=
  plan.flatMap w.partItems

def storageItems (w : Writer) (plan : List PlannedWrite) : Agenda :=
  if plan.any PlannedWrite.needsStorage then
    if w.storage then [.call (.activate .storage) id]
    else [.unbound (.capability "storage" s!"method {w.method.name} writes to storage")]
  else []

def cardItems (w : Writer) : Agenda :=
  if w.sdmux then [.call (.activate .sdmux) id, .call (.mux .host) id] else []

def writeAgenda (w : Writer) (plan : List PlannedWrite) : Agenda :=
  w.cardItems ++ (w.storageItems plan ++ w.partsAgenda plan)

def storageTaken (h : List Event) : List DeviceCall :=
  if .activate .storage ∈ successes h then [.deactivate .storage] else []

def cardTaken (w : Writer) : List DeviceCall :=
  if w.sdmux then [.mux .device] else []

def taken (w : Writer) (h : List Event) : List DeviceCall :=
  storageTaken h ++ w.cardTaken

section

variable {σ : Type} {w : Writer} {plan : List PlannedWrite}

theorem writePart_follows
    : ((w.writePart p).mapError (w.partError p) : Program σ Error Unit).Follows
        (w.partItems p) := by
  unfold writePart partItems PlannedWrite.needsStorage PlannedWrite.transfer
  cases p.target with
  | image t => exact follows_mapError follows_device
  | files t => exact follows_mapError follows_device
  | emulator =>
    simp only [ne_eq, not_true_eq_false, decide_false, Bool.false_eq_true, if_false]
    split
    . exact follows_mapError (follows_device_bind fun _ => follows_device)
    . exact follows_mapError follows_raise

theorem writeParts_follows
    : (w.writeParts plan : Program σ Error Unit).Follows (w.partsAgenda plan) :=
  follows_forEach plan fun _ => writePart_follows

theorem takeCard_follows (hmux : w.sdmux = true)
    : (takeCard : Program σ Error Unit).Follows w.cardItems := by
  rw [cardItems, if_pos hmux]
  exact follows_device_bind fun _ => follows_device

theorem deactivate_releases
    : (device (.deactivate .storage) : Program σ Error Unit).Ensures
        (fun r _ _ u => Released [.deactivate .storage] (some first) (r.map (firstError first)) u)
        s now [] := by
  rw [ensures_device]
  refine ⟨.hangs, ?_⟩
  intro stop r _
  cases r with
  | error e => exact .call (.error e) .done
  | ok v => exact .call (.ok v) .done

theorem handBack_releases
    : (do
        sleep ms
        device (.mux .device) : Program σ Error Unit).Ensures
        (fun r _ _ u => Released [.mux .device] (some first) (r.map (firstError first)) u)
        s now [] := by
  rw [ensures_bind, ensures_sleep, Post.andThen_ok, ensures_device]
  refine ⟨.other rfl .hangs, ?_⟩
  intro stop r _
  cases r with
  | error e => exact .other rfl (.call (.error e) .done)
  | ok v => exact .other rfl (.call (.ok v) .done)

theorem storageTaken_eq_nil (hh : .activate .storage ∉ successes h) : storageTaken h = [] :=
  if_neg hh

theorem writesPart_of_mem_partItems (hc : .call c report ∈ w.partItems p)
    : c.writesPart = true ∧ (c.device = .storage → p.needsStorage = true) := by
  unfold partItems at hc
  split at hc
  . next hneeds =>
    obtain ⟨rfl, _⟩ := by simpa using hc
    exact ⟨p.writesPart_transfer, fun _ => hneeds⟩
  . next hneeds =>
    split at hc
    . obtain ⟨rfl, _⟩ | ⟨rfl, _⟩ : _ ∨ _ := by simpa using hc
      . exact ⟨rfl, nofun⟩
      . refine ⟨p.writesPart_transfer, ?_⟩
        rw [p.device_transfer, if_neg hneeds]
        nofun
    . simp at hc

theorem mem_partsAgenda (hc : c ∈ (w.partsAgenda plan).calls)
    : c.writesPart = true ∧ (c.device = .storage → plan.any PlannedWrite.needsStorage = true) := by
  obtain ⟨report, hmem⟩ := Agenda.exists_of_mem_calls hc
  obtain ⟨p, hp, hmem⟩ := List.mem_flatMap.mp hmem
  obtain ⟨hpart, hstorage⟩ := writesPart_of_mem_partItems hmem
  exact ⟨hpart, fun hdevice => List.any_eq_true.mpr ⟨p, hp, hstorage hdevice⟩⟩

theorem writePlan_carries
    : (w.writePlan plan : Program σ Error Unit).Ensures
        (fun r _ _ t => Carries (w.storageItems plan ++ w.partsAgenda plan) storageTaken r t)
        s now [] := by
  unfold writePlan storageItems
  split
  . split
    . rw [ensures_bind, ensures_device]
      refine ⟨?_, ?_⟩
      . exact ⟨none, _, [], (List.append_nil _).symm, .hangs, .givenUp⟩
      . intro stop r _
        cases r with
        | error e => exact ⟨_, _, [], (List.append_nil _).symm, .fails e (by simp), .done⟩
        | ok v =>
          rw [Post.andThen_ok, ensures_iff_nil]
          apply (carries_release (carries_of_follows writeParts_follows) fun _ _ _ =>
            deactivate_releases).mono
          rintro r _ _ _ ⟨first, h, u, rfl, hcarried, hu⟩
          have taken : storageTaken
              (⟨.device (.activate .storage), now, stop, some (.ok v)⟩ :: h) =
              [.deactivate .storage] :=
            if_pos (List.mem_cons_self ..)
          exact ⟨first, _ :: h, u, rfl, .succeeds v hcarried, taken ▸ hu⟩
    . exact ⟨_, [], [], rfl, .unbound, .done⟩
  . apply (carries_of_follows writeParts_follows).mono
    rintro r _ _ _ ⟨first, h, u, rfl, hcarried, hu⟩
    refine ⟨first, h, u, rfl, hcarried, ?_⟩
    rw [storageTaken_eq_nil]
    . exact hu
    . intro hmem
      have hmem := hcarried.successes_prefix.subset hmem
      cases (mem_partsAgenda hmem).left

theorem mem_cardItems (hc : c ∈ w.cardItems.calls) : c = .activate .sdmux ∨ c = .mux .host := by
  unfold cardItems at hc
  split at hc
  . simpa [Agenda.calls] using hc
  . cases hc

theorem storageTaken_append (hh : Agenda.Carried w.cardItems result h)
    : storageTaken (h ++ t) = storageTaken t := by
  have before : .activate .storage ∉ successes h := by
    intro hmem
    rcases mem_cardItems (hh.successes_prefix.subset hmem) with heq | heq <;> cases heq
  simp [storageTaken, before]

theorem takeCard_writePlan_carries (hmux : w.sdmux = true)
    : (takeCard.bind fun _ => w.writePlan plan : Program σ Error Unit).Ensures
        (fun r _ _ t => Carries (w.writeAgenda plan) storageTaken r t) s now [] := by
  rw [ensures_bind']
  apply (takeCard_follows hmux s now).mono
  intro r s now t ht
  have nothing : storageTaken t = [] := by
    rw [← List.append_nil t, storageTaken_append ht]
    rfl
  rcases r with _ | e | a
  . exact ⟨none, t, [], by simp, ht.of_none, .givenUp⟩
  . exact ⟨_, t, [], by simp, ht.of_error, nothing ▸ .done⟩
  . rw [Post.andThen_ok, ensures_iff_nil]
    apply writePlan_carries.mono
    rintro r _ _ _ ⟨first, h, u, rfl, hcarried, hu⟩
    refine ⟨first, t ++ h, u, by simp, ht.append hcarried, ?_⟩
    rw [storageTaken_append ht]
    exact hu

theorem writeCard_carries
    : (w.writeCard plan : Program σ Error Unit).Ensures
        (fun r _ _ t => Carries (w.writeAgenda plan) w.taken r t)
        s now [] := by
  unfold writeCard
  split
  . next hmux =>
    have taken : w.taken = fun h => storageTaken h ++ [.mux .device] := by
      funext h
      rw [taken, cardTaken, if_pos hmux]
    rw [taken]
    exact carries_release (takeCard_writePlan_carries hmux) fun _ _ _ => handBack_releases
  . next hmux =>
    have agenda : w.writeAgenda plan = w.storageItems plan ++ w.partsAgenda plan := by
      simp [writeAgenda, cardItems, hmux]
    have taken : w.taken = storageTaken := by
      funext h
      rw [taken, cardTaken, if_neg hmux, List.append_nil]
    rw [agenda, taken]
    exact writePlan_carries

theorem write_carries
    : (asPart .write (w.writeCard plan) : Program σ Error Unit).Ensures
        (fun r _ _ t => Carries (w.writeAgenda plan) w.taken r t)
        s now [] := by
  rw [ensures_asPart, List.nil_append, ensures_iff_nil]
  apply writeCard_carries.mono
  rintro r _ now' _ ⟨first, h, u, rfl, hcarried, hu⟩
  cases r with
  | none => exact ⟨first, _ :: h, u, rfl, .other rfl hcarried, hu⟩
  | some r =>
    have closed : Released (w.taken h) first (some r)
        (u ++ [⟨.mark (.ends .write r.isOk), now', now', some ()⟩]) :=
      hu.concat_other rfl
    exact ⟨first, _ :: h, _, List.append_assoc (_ :: h) u _, .other rfl hcarried, closed⟩

end

/--
The parts of a plan before the first that needs a line that is not bound. Where the storage is not
bound, but needed for any part, that is none of them.
-/
def reachable (w : Writer) (plan : List PlannedWrite) : List PlannedWrite :=
  if plan.any PlannedWrite.needsStorage = true ∧ w.storage = false then []
  else if w.emulator then plan
  else plan.takeWhile PlannedWrite.needsStorage

structure Equipped (w : Writer) (plan : List PlannedWrite) : Prop where
  storage : plan.any PlannedWrite.needsStorage = true → w.storage = true
  emulator : ∀ p ∈ plan, p.needsStorage = false → w.emulator = true

/--
The storage is activated once, before anything else is done on it or on the emulator. If it could be
activated, it is deactivated once, after all that, unless the write is given up before. If it could
not, nothing else is done on it or on the emulator.
-/
def HoldsStorage (result : Option (Except Error Unit)) (t : List Event) : Prop :=
  ∃ front rest, calls t = front ++ .activate .storage :: rest ∧ (∀ c ∈ front, ¬c.OnCard) ∧
    .activate .storage ∉ rest ∧
    if .activate .storage ∈ successes t then
      (result = none ∧ .deactivate .storage ∉ rest) ∨
        ∃ body back, rest = body ++ .deactivate .storage :: back ∧ .deactivate .storage ∉ body ∧
          ∀ c ∈ back, ¬c.OnCard
    else ∀ c ∈ rest, ¬c.OnCard

def WriteFails (w : Writer) (plan : List PlannedWrite) (before : List Event)
    : Event → Error → Prop
  | ⟨.device c, _, _, some r⟩, err => w.writeError? plan before c r = some err
  | ⟨.mark (.begins .write), _, _, some ()⟩, err => w.sdmux = false ∧ w.openError? plan = some err
  | _, _ => False

def writeFaults (w : Writer) (plan : List PlannedWrite) : Faults where
  Fails := w.WriteFails plan
  risky hf := by
    revert hf
    unfold WriteFails
    split
    . exact fun _ => trivial
    . exact fun _ => trivial
    . exact False.elim
  replied hf := by
    revert hf
    unfold WriteFails
    split <;> simp

section

variable {σ : Type} {w : Writer} {plan : List PlannedWrite} {result : Option (Except Error Unit)}

theorem heedsWrite_writeFaults : w.HeedsWrite plan (w.writeFaults plan) where
  fails _ := Iff.rfl
  fails_begins := Iff.rfl

theorem fails_unique (he : w.WriteFails plan before e err) (he' : w.WriteFails plan before e err')
    : err = err' := by
  unfold WriteFails at he he'
  split at he
  . exact Option.some.inj (he.symm.trans he')
  . exact Option.some.inj (he.right.symm.trans he'.right)
  . exact he.elim

theorem writeError_iff {t : List Event}
    (ht : (w.writeFaults plan).stopping (fun _ : Unit => none) result s now t)
    : result = some (.error err) ↔ result ≠ none ∧ (w.writeFaults plan).Stopped err t := by
  constructor
  . rintro rfl
    exact ⟨nofun, ht⟩
  . rintro ⟨hend, before, e, after, hsplit, hclean, hfails, hafter⟩
    rcases result with _ | err' | a
    . exact absurd rfl hend
    . have stopped : (w.writeFaults plan).Stopped err' t := ht
      rw [hsplit] at stopped
      rw [fails_unique hfails (stopped.first hclean hfails).left]
    . exact absurd ht (Faults.Stopped.not_clean ⟨before, e, after, hsplit, hclean, hfails, hafter⟩)

theorem bound_cardItems : w.cardItems.Bound := by
  unfold cardItems
  split <;> simp [Agenda.Bound]

theorem transfers_partsAgenda
    : (w.partsAgenda plan).calls.filter DeviceCall.transfers =
        (if w.emulator then plan else plan.takeWhile PlannedWrite.needsStorage).map
          PlannedWrite.transfer := by
  induction plan with
  | nil => split <;> rfl
  | cons p plan ih =>
    rw [partsAgenda, List.flatMap_cons, ← partsAgenda, partItems]
    cases hneeds : p.needsStorage with
    | true =>
      rw [if_pos rfl, List.singleton_append, Agenda.calls,
        List.filter_cons_of_pos p.transfers_transfer, ih, List.takeWhile_cons_of_pos hneeds]
      split <;> rfl
    | false =>
      cases hbound : w.emulator with
      | true =>
        have silent : (DeviceCall.activate .emulator).transfers = false := rfl
        rw [hbound, if_pos rfl] at ih
        simp [Agenda.calls, silent, p.transfers_transfer, ih]
      | false => simp [Agenda.calls, hneeds]

theorem transfers_writeAgenda
    : (w.writeAgenda plan).calls.filter DeviceCall.transfers =
        (w.reachable plan).map PlannedWrite.transfer := by
  have card : w.cardItems.calls.filter DeviceCall.transfers = [] := by
    rw [List.filter_eq_nil_iff]
    intro c hc
    rcases mem_cardItems hc with rfl | rfl <;> nofun
  rw [writeAgenda, bound_cardItems.calls_append, List.filter_append, card, List.nil_append,
    reachable, storageItems]
  cases plan.any PlannedWrite.needsStorage with
  | false => simpa using transfers_partsAgenda
  | true =>
    cases w.storage with
    | false => rfl
    | true => simpa [Agenda.calls, DeviceCall.transfers] using transfers_partsAgenda

theorem transfers_eq_filter_calls {t : List Event}
    : transfers t = (calls t).filter DeviceCall.transfers := by
  rw [transfers, calls, List.filter_filterMap]
  congr 1
  funext e
  cases e.call with
  | device c => rfl
  | host c => rfl
  | interrupt limit => rfl
  | sleep ms => rfl
  | clock => rfl
  | mark m => rfl

theorem bound_storageItems_iff
    : (w.storageItems plan).Bound ↔
        (plan.any PlannedWrite.needsStorage = true → w.storage = true) := by
  unfold storageItems
  split
  . split <;> simp_all [Agenda.Bound]
  . simp_all [Agenda.Bound]

theorem bound_partItems_iff
    : Agenda.Bound (w.partItems p) ↔ (p.needsStorage = false → w.emulator = true) := by
  unfold partItems
  split
  . simp_all [Agenda.Bound]
  . split <;> simp_all [Agenda.Bound]

theorem bound_writeAgenda_iff : (w.writeAgenda plan).Bound ↔ w.Equipped plan := by
  rw [writeAgenda, Agenda.bound_append, Agenda.bound_append, bound_storageItems_iff, partsAgenda,
    Agenda.bound_flatMap]
  constructor
  . rintro ⟨_, hstorage, hparts⟩
    exact ⟨hstorage, fun p hp => bound_partItems_iff.mp (hparts p hp)⟩
  . rintro ⟨hstorage, hparts⟩
    exact ⟨bound_cardItems, hstorage, fun p hp => bound_partItems_iff.mpr (hparts p hp)⟩

theorem mem_storageItems (hc : c ∈ (w.storageItems plan).calls)
    : c = .activate .storage ∧ plan.any PlannedWrite.needsStorage = true ∧ w.storage = true := by
  unfold storageItems at hc
  split at hc
  . split at hc
    . simp_all [Agenda.calls]
    . cases hc
  . cases hc

theorem mem_cardTaken (hc : c ∈ w.cardTaken) : c = .mux .device := by
  unfold cardTaken at hc
  split at hc
  . exact List.mem_singleton.mp hc
  . cases hc

theorem releases_of_mem_taken (hc : c ∈ w.taken h) : Releases (.device c) := by
  rcases List.mem_append.mp hc with hc | hc
  . unfold storageTaken at hc
    split at hc
    . obtain rfl := List.mem_singleton.mp hc
      trivial
    . cases hc
  . obtain rfl := mem_cardTaken hc
    trivial

theorem Releases.onLine? {c : Call} (hr : Releases c) (hc : c.onLine? = some d)
    : Releases (.device d) := by
  cases c with
  | device c => exact Option.some.inj hc ▸ hr
  | sleep ms => cases hc
  | _ => exact hr.elim

theorem not_releases (hc : c ∈ (w.writeAgenda plan).calls) : ¬Releases (.device c) := by
  rcases Agenda.mem_calls_append hc with hc | hc
  . rcases mem_cardItems hc with rfl | rfl <;> exact id
  . rcases Agenda.mem_calls_append hc with hc | hc
    . obtain ⟨rfl, _⟩ := mem_storageItems hc
      exact id
    . intro hreleases
      have part := (mem_partsAgenda hc).left
      unfold Releases at hreleases
      split at hreleases <;> simp_all [DeviceCall.writesPart]

theorem host_not_mem (hc : Agenda.Carried w.cardItems result h)
    (hend : ∀ a, result ≠ some (.ok a))
    : w.sdmux = true ∧ .mux .host ∉ successes h := by
  have fewer := hc.successes_length_lt hend bound_cardItems
  have order := hc.successes_prefix
  unfold cardItems at fewer order
  split at fewer
  . next hmux =>
    rw [if_pos hmux] at order
    refine ⟨hmux, ?_⟩
    intro hmem
    have order : successes h <+: [.activate .sdmux] ++ [.mux .host] := order
    rcases List.prefix_concat_iff.mp order with all | first
    . rw [all] at fewer
      exact absurd fewer (Nat.lt_irrefl 2)
    . cases List.mem_singleton.mp (first.subset hmem)
  . exact absurd fewer (Nat.not_lt_zero _)

theorem carried_storage
    (hc : Agenda.Carried (.call (.activate .storage) id :: w.partsAgenda plan) result h)
    : ∃ rest, calls h = .activate .storage :: rest ∧ (∀ c ∈ rest, c.writesPart = true) ∧
        (.activate .storage ∉ successes h → rest = []) := by
  obtain ⟨before, start, stop, reply, after, rfl, hbefore, hreply⟩ := hc.head
  refine ⟨calls after, ?_, ?_⟩
  . rw [calls_append, calls_eq_nil_iff.mpr hbefore]
    rfl
  . rcases reply with _ | e | v
    . obtain ⟨_, rfl⟩ := hreply
      simp [calls]
    . have nothing : calls after = [] := calls_eq_nil_iff.mpr hreply.right
      simp [nothing]
    . constructor
      . intro c hc
        exact (mem_partsAgenda (hreply.calls_prefix.subset hc)).left
      . intro hfailed
        exact absurd (by simp [successes, Event.success?]) hfailed

section

variable (hw : Carries (w.writeAgenda plan) w.taken result t)
include hw

theorem carries_transfers
    : transfers t <+: (w.reachable plan).map PlannedWrite.transfer ∧
        ((∀ e ∈ t, e.Failed → Releases e.call) →
          transfers t = (w.reachable plan).map PlannedWrite.transfer) := by
  obtain ⟨first, h, u, rfl, hcarried, hu⟩ := hw
  have silent : (calls u).filter DeviceCall.transfers = [] := by
    rw [List.filter_eq_nil_iff]
    intro c hc
    have releases := releases_of_mem_taken (hu.calls_prefix.subset hc)
    unfold Releases at releases
    split at releases <;> simp_all [DeviceCall.transfers]
  have taken : transfers (h ++ u) = (calls h).filter DeviceCall.transfers := by
    rw [transfers_eq_filter_calls, calls_append, List.filter_append, silent, List.append_nil]
  rw [taken, ← transfers_writeAgenda]
  refine ⟨hcarried.calls_prefix.filter _, ?_⟩
  intro hfailed
  have clean : ∀ e ∈ h, ¬e.Failed := by
    intro e he hbad
    obtain ⟨c, hc⟩ := Option.ne_none_iff_exists'.mp hbad.left
    have called : c ∈ calls h := List.mem_filterMap.mpr ⟨e, he, hc⟩
    have releases : Releases (.device c) := (hfailed e (List.mem_append_left u he) hbad).onLine? hc
    exact not_releases (hcarried.calls_prefix.subset called) releases
  rw [calls_eq_successes clean, hcarried.successes_eq_of_clean clean]

theorem carries_stops (hsplit : t = before ++ e :: after) (he : e.Failed)
    : ∀ c ∈ calls after, Releases (.device c) := by
  obtain ⟨first, h, u, rfl, hcarried, hu⟩ := hw
  intro c hc
  have released (hmem : c ∈ calls u) : Releases (.device c) :=
    releases_of_mem_taken (hu.calls_prefix.subset hmem)
  rcases append_eq_append_cons_iff.mp hsplit with ⟨rest, rfl, rfl⟩ | ⟨front, rfl, rfl⟩
  . have nothing : calls rest = [] := calls_eq_nil_iff.mpr (hcarried.stops he).right
    rw [calls_append, nothing] at hc
    exact released hc
  . apply released
    rw [List.append_cons, calls_append]
    exact List.mem_append_right _ hc

theorem carries_ok_iff : result = some (.ok ()) ↔ (∀ e ∈ t, ¬e.Failed) ∧ w.Equipped plan := by
  obtain ⟨first, h, u, rfl, hcarried, hu⟩ := hw
  rw [hu.ok_iff, List.forall_mem_append, ← bound_writeAgenda_iff]
  constructor
  . rintro ⟨rfl, hclean⟩
    exact ⟨⟨hcarried.not_failed, hclean⟩, hcarried.bound⟩
  . rintro ⟨⟨hclean, hreleased⟩, hbound⟩
    refine ⟨?_, hreleased⟩
    by_contra hend
    obtain ⟨e, he, hfailed⟩ := hcarried.exists_failed (fun ⟨⟩ => hend) hbound
    exact hclean e he hfailed

theorem carries_spares (hopen : ¬(plan.any PlannedWrite.needsStorage = true ∧ w.storage = true ∧
      (w.sdmux = true → .mux .host ∈ successes t)))
    : ∀ c ∈ calls t, c.device ≠ .storage := by
  obtain ⟨first, h, u, rfl, hcarried, hu⟩ := hw
  have card {c : DeviceCall} (hc : c ∈ w.cardItems.calls) : c.device ≠ .storage := by
    rcases mem_cardItems hc with rfl | rfl <;> nofun
  have written : ∀ c ∈ calls h, c.device ≠ .storage := by
    intro c hc
    rcases hcarried.split with ⟨front, back, rfl, hfront, hback⟩ | ⟨_, hfront⟩
    . rw [calls_append, List.mem_append] at hc
      rcases hc with hc | hc
      . exact card (hfront.calls_prefix.subset hc)
      . intro hdevice
        have hc := hback.calls_prefix.subset hc
        have hneeds : plan.any PlannedWrite.needsStorage = true := by
          rcases Agenda.mem_calls_append hc with hc | hc
          . exact (mem_storageItems hc).right.left
          . exact (mem_partsAgenda hc).right hdevice
        have hbound : w.storage = true := by
          by_contra hunbound
          simp [storageItems, hneeds, hunbound, Agenda.calls] at hc
        apply hopen
        refine ⟨hneeds, hbound, ?_⟩
        intro hmux
        rw [successes_append, successes_append, hfront.successes_eq]
        simp [cardItems, hmux, Agenda.calls]
    . exact card (hfront.calls_prefix.subset hc)
  have nothing : storageTaken h = [] := by
    apply storageTaken_eq_nil
    intro hmem
    exact absurd rfl (written _ (mem_calls_of_mem_successes hmem))
  intro c hc
  rw [calls_append, List.mem_append] at hc
  rcases hc with hc | hc
  . exact written c hc
  . have hc := hu.calls_prefix.subset hc
    rw [taken, nothing, List.nil_append] at hc
    rw [mem_cardTaken hc]
    nofun

theorem carries_holds (hneeds : plan.any PlannedWrite.needsStorage = true)
    (hbound : w.storage = true) (hcard : w.sdmux = true → .mux .host ∈ successes t)
    : HoldsStorage result t := by
  obtain ⟨first, h, u, rfl, hcarried, hu⟩ := hw
  have released {c : DeviceCall} (hc : c ∈ calls u) : Releases (.device c) :=
    releases_of_mem_taken (hu.calls_prefix.subset hc)
  have before {c : DeviceCall} (hc : c ∈ successes (h ++ u)) (hr : ¬Releases (.device c))
      : c ∈ successes h := by
    rw [successes_append, List.mem_append] at hc
    exact hc.resolve_right fun hc => hr (released (mem_calls_of_mem_successes hc))
  have back : ∀ c ∈ w.cardTaken, ¬c.OnCard := by
    intro c hc
    rw [mem_cardTaken hc]
    simp [DeviceCall.OnCard, DeviceCall.device]
  rcases hcarried.split with ⟨front, later, rfl, hfront, hlater⟩ | ⟨hend, hfront⟩
  . rw [storageItems, if_pos hneeds, if_pos hbound] at hlater
    obtain ⟨rest, hcalls, hparts, hfailed⟩ := carried_storage hlater
    refine ⟨calls front, rest ++ calls u, by simp [hcalls], ?_, ?_, ?_⟩
    . intro c hc
      rcases mem_cardItems (hfront.calls_prefix.subset hc) with rfl | rfl <;>
        simp [DeviceCall.OnCard, DeviceCall.device]
    . intro hmem
      rcases List.mem_append.mp hmem with hmem | hmem
      . cases hparts _ hmem
      . exact released hmem
    . split
      . next hactive =>
        rw [taken, storageTaken, if_pos (before hactive id)] at hu
        have unreleased : .deactivate .storage ∉ rest := fun hmem => by cases hparts _ hmem
        cases first with
        | none =>
          cases hu
          exact .inl ⟨rfl, by simpa [calls] using unreleased⟩
        | some r =>
          have order := hu.calls_prefix
          have mem := hu.head_mem
          generalize calls u = released at order mem
          cases released with
          | nil => cases mem
          | cons c after =>
            obtain ⟨rfl, hafter⟩ := List.cons_prefix_cons.mp order
            exact .inr ⟨rest, after, rfl, unreleased, fun c hc => back c (hafter.subset hc)⟩
      . next hinactive =>
        have refused : .activate .storage ∉ successes (front ++ later) := by
          intro hmem
          exact hinactive (by rw [successes_append]; exact List.mem_append_left _ hmem)
        rw [taken, storageTaken_eq_nil refused] at hu
        intro c hc
        have nothing : rest = [] := by
          apply hfailed
          intro hmem
          exact refused (by rw [successes_append]; exact List.mem_append_right _ hmem)
        rw [nothing] at hc
        exact back c (hu.calls_prefix.subset hc)
  . obtain ⟨hmux, hhost⟩ := host_not_mem hfront hend
    exact absurd (before (hcard hmux) id) hhost

end

end

theorem write_of_error {σ : Type} {w : Writer} (hplan : w.planWrite dir = .error err)
    : (w.write dir : Program σ Error Unit) = raise err := by
  rw [write, hplan]
  rfl

theorem write_of_plan {σ : Type} {w : Writer} (hplan : w.planWrite dir = .ok plan)
    : (w.write dir : Program σ Error Unit) = asPart .write (w.writeCard plan) := by
  rw [write, hplan]
  rfl

/--
Writing makes no call if it can not be planned. If it can be, the planned parts are written in order
up to the first that needs a line that is not bound, or to the first call that does not succeed,
after which only the storage and the card are released. The storage is held meanwhile if it is
needed, it is bound, and the card could be attached to the lab where there is a multiplexer. If not,
the storage is not called. All is well exactly if each call succeeded and each line that is needed
is bound. An error is the one of the first failure, and of a failure in a part with the part's role.
-/
theorem write_carried_out {σ : Type} (w : Writer) (dir : String) (lab : Lab ω) (s : σ) (x : ω)
    (now : Nat)
    : let run := (w.write dir : Program σ Error Unit).run lab none s x now
      match w.planWrite dir with
      | .error e => run.result = some (.error e) ∧ run.trace = []
      | .ok plan =>
        (transfers run.trace <+: (w.reachable plan).map PlannedWrite.transfer ∧
          ((∀ e ∈ run.trace, e.Failed → Releases e.call) →
            transfers run.trace = (w.reachable plan).map PlannedWrite.transfer)) ∧
        (∀ before e after, run.trace = before ++ e :: after → e.Failed →
          ∀ c ∈ calls after, Releases (.device c)) ∧
        (if plan.any PlannedWrite.needsStorage = true ∧ w.storage = true ∧
            (w.sdmux = true → .mux .host ∈ successes run.trace) then
          HoldsStorage run.result run.trace
        else ∀ c ∈ calls run.trace, c.device ≠ .storage) ∧
        (run.result = some (.ok ()) ↔ (∀ e ∈ run.trace, ¬e.Failed) ∧ w.Equipped plan) ∧
        ∀ err, run.result = some (.error err) ↔
          run.result ≠ none ∧ (w.writeFaults plan).Stopped err run.trace := by
  cases hplan : w.planWrite dir with
  | error e =>
    rw [write_of_error hplan]
    exact ⟨rfl, rfl⟩
  | ok plan =>
    rw [write_of_plan hplan]
    have ensured : (asPart .write (w.writeCard plan) : Program σ Error Unit).Ensures
        (fun r s now t => Carries (w.writeAgenda plan) w.taken r t ∧
          (w.writeFaults plan).stopping (fun _ => none) r s now t)
        s now [] :=
      write_carries.and (heedsWrite_writeFaults.write_stops (by simp) rfl Faults.clean_nil)
    have ended := ensured.run lab x
    rw [List.nil_append] at ended
    obtain ⟨carries, stopped⟩ := ended
    refine ⟨carries_transfers carries, ?_, ?_, carries_ok_iff carries, ?_⟩
    . intro before e after hsplit he
      exact carries_stops carries hsplit he
    . split
      . next hopen => exact carries_holds carries hopen.left hopen.right.left hopen.right.right
      . next hopen => exact carries_spares carries hopen
    . intro err
      exact writeError_iff stopped

theorem unattached_not_activated
    : let w := (Strategy.wired (.forBoard "rpi_3") .rpi3).writer
      let run := (w.write "build" : Program Unit Error Unit).run (.prompt (· = .mux .host)) none
        () () 0
      (∃ plan, w.planWrite "build" = .ok plan ∧ plan.any PlannedWrite.needsStorage = true) ∧
        w.storage = true ∧ (calls run.trace).count (.activate .storage) = 0 := by
  refine ⟨⟨_, rfl, rfl⟩, rfl, by decide⟩

end Writer

end BringUp
