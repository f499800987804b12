import BringUp.Proofs.Boot.Drive
import BringUp.Proofs.Image.FailStop
import BringUp.Proofs.Image.Transfers
import BringUp.Proofs.Lab.Agenda

/-!
This module contains the order in which an image is sent. The main statement is that the planned
parts are sent one after another, and that what was sent is started only if all of it was.
-/

namespace BringUp

open Program Trace Agenda

namespace Writer

def loadError (w : Writer) (p : PlannedSend) (e : Error) : Error :=
  .sendFailed p.role w.method.name e.message

def loadAgenda (w : Writer) (plan : List PlannedSend) : Agenda :=
  .call (.activate .usbLoader) id :: plan.map fun p => .call p.transfer (w.loadError p)

def sendAgenda (w : Writer) (plan : List PlannedSend) : Agenda :=
  w.loadAgenda plan ++ [.call .execute fun e => .sendFailed "execute" w.method.name e.message]

def loads (plan : List PlannedSend) : List DeviceCall :=
  .activate .usbLoader :: plan.map PlannedSend.transfer

section

variable {σ : Type} {w : Writer} {plan : List PlannedSend}

theorem planSend_error (hplan : w.planSend dir = .error err)
    : err = .unsupportedWriteMethod "sending" w.method.name := by
  unfold planSend Method.planSend at hplan
  split at hplan
  . cases hplan
  . exact (Except.error.inj hplan).symm

theorem send_of_error (hplan : w.planSend dir = .error err)
    : (w.send dir : Program σ Error Unit) = raise err := by
  rw [send, hplan]
  rfl

theorem send_of_plan (hplan : w.planSend dir = .ok plan)
    : (w.send dir : Program σ Error Unit) =
        if w.usbLoader then asPart .send (w.sendParts plan)
        else raise (.capability "usb-loader" s!"method {w.method.name} sends over USB") := by
  rw [send, hplan]
  rfl

theorem bound_loadAgenda : (w.loadAgenda plan).Bound := by
  simp [Bound, loadAgenda]

theorem bound_sendAgenda : (w.sendAgenda plan).Bound := by
  simp [Bound, sendAgenda, loadAgenda]

theorem calls_loadAgenda : (w.loadAgenda plan).calls = loads plan := by
  apply congrArg (_ :: ·)
  induction plan with
  | nil => rfl
  | cons p plan ih => exact congrArg (_ :: ·) ih

theorem calls_sendAgenda : (w.sendAgenda plan).calls = loads plan ++ [.execute] := by
  rw [sendAgenda, bound_loadAgenda.calls_append, calls_loadAgenda]
  rfl

theorem execute_not_mem_loads : .execute ∉ loads plan := by
  simp [loads, PlannedSend.transfer]

theorem sendParts_follows
    : (w.sendParts plan : Program σ Error Unit).Follows (w.sendAgenda plan) := by
  have loading : (forEach
      (fun p : PlannedSend =>
        (device (.load p.source p.phase)).mapError fun e =>
          .sendFailed p.role w.method.name e.message)
      plan : Program σ Error Unit).Follows
      (plan.map fun p => .call p.transfer (w.loadError p)) := by
    rw [List.map_eq_flatMap]
    exact follows_forEach plan fun p => follows_mapError follows_device
  exact follows_device_bind fun _ => follows_bind loading fun _ => follows_mapError follows_device

theorem execute_mem_iff {r : Option (Except Error Unit)} (hc : (w.sendAgenda plan).Carried r t)
    : .execute ∈ Trace.calls t ↔ loads plan <+: successes t := by
  rcases hc.split with ⟨h, u, rfl, hloads, hexecute⟩ | ⟨hend, hloads⟩
  -- All parts were sent, so there is a call to start them.
  . have sent : successes h = loads plan := hloads.successes_eq.trans calls_loadAgenda
    have started : .execute ∈ Trace.calls u := hexecute.head_mem
    simp [started, sent]
  -- One part was not sent, which ends the whole.
  . have fewer := hloads.successes_length_lt hend bound_loadAgenda
    rw [calls_loadAgenda] at fewer
    constructor
    . intro hmem
      have hmem := hloads.calls_prefix.subset hmem
      rw [calls_loadAgenda] at hmem
      exact absurd hmem execute_not_mem_loads
    . intro hprefix
      exact absurd hprefix.length_le (Nat.not_le.mpr fewer)

theorem execute_count {r : Option (Except Error Unit)} (hc : (w.sendAgenda plan).Carried r t)
    : (Trace.calls t).count .execute = if loads plan <+: successes t then 1 else 0 := by
  have calls := hc.calls_prefix
  rw [calls_sendAgenda] at calls
  have once : (loads plan ++ [DeviceCall.execute]).count .execute = 1 := by
    rw [List.count_append, List.count_eq_zero.mpr execute_not_mem_loads]
    rfl
  have atMost : (Trace.calls t).count .execute ≤ 1 := once ▸ calls.sublist.count_le _
  split
  . next hsent =>
    have made : .execute ∈ Trace.calls t := (execute_mem_iff hc).mpr hsent
    exact Nat.le_antisymm atMost (List.count_pos_iff.mpr made)
  . next hsent => exact List.count_eq_zero.mpr fun hmem => hsent ((execute_mem_iff hc).mp hmem)

theorem send_progress {r : Option (Except Error Unit)} (hc : (w.sendAgenda plan).Carried r t)
    : (Trace.calls t).head? = some (.activate .usbLoader) ∧
        ((∀ e ∈ t, ¬e.Failed) → Trace.calls t = loads plan ++ [.execute]) := by
  constructor
  . obtain ⟨before, start, stop, reply, after, rfl, hbefore, _⟩ := hc.head
    rw [Trace.calls_append, calls_eq_nil_iff.mpr hbefore]
    rfl
  . intro hclean
    rw [calls_eq_successes hclean, hc.successes_eq_of_clean hclean, calls_sendAgenda]

theorem loaded_of_loadAgenda (hc : (w.loadAgenda plan).Carried (some (.ok ())) h)
    : loaded h = plan.length := by
  have count : loaded h = (successes h).countP DeviceCall.loadsPart := by
    rw [successes, List.countP_filterMap]
    apply List.countP_congr
    intro e _
    cases e.success? <;> simp
  have all : (plan.map PlannedSend.transfer).countP DeviceCall.loadsPart = plan.length := by
    rw [List.countP_map, List.countP_eq_length]
    simp [PlannedSend.transfer, DeviceCall.loadsPart]
  rw [count, hc.successes_eq, calls_loadAgenda, loads, List.countP_cons, all]
  rfl

theorem sendError?_of_agenda (hitem : w.sendAgenda plan = front ++ .call c report :: rest)
    (hfront : Carried front (some (.ok ())) h)
    : w.sendError? plan h c (.error e) = some (report e) := by
  rcases List.append_eq_append_iff.mp hitem with ⟨last, rfl, hlast⟩ | ⟨later, hload, hrest⟩
  . cases last with
    | nil =>
      obtain ⟨⟨rfl, rfl⟩, _⟩ := by simpa using hlast
      rfl
    | cons x last => simp at hlast
  . cases later with
    | nil =>
      obtain ⟨⟨rfl, rfl⟩, _⟩ := by simpa using hrest
      rfl
    | cons x later =>
      obtain ⟨rfl, rfl⟩ := List.cons_eq_cons.mp hrest
      cases front with
      | nil =>
        obtain ⟨⟨rfl, rfl⟩, _⟩ := by simpa [loadAgenda] using hload
        rfl
      | cons y front =>
        obtain ⟨rfl, hparts⟩ := List.cons_eq_cons.mp hload
        obtain ⟨sent, unsent, rfl, rfl, hunsent⟩ := List.map_eq_append_iff.mp hparts
        obtain ⟨p, unsent, rfl, hp, _⟩ := List.map_eq_cons_iff.mp hunsent
        obtain ⟨rfl, rfl⟩ := by simpa using hp
        have hsent : loaded h = sent.length := loaded_of_loadAgenda hfront
        simp [sendError?, PlannedSend.transfer, hsent, loadError]

theorem sendError?_ok : w.sendError? plan h c (.ok v) = none := by
  cases c <;> rfl

theorem sendError_iff {r : Option (Except Error Unit)} (hc : (w.sendAgenda plan).Carried r t)
    : r = some (.error err) ↔
        ∃ before c start stop reply after,
          t = before ++ ⟨.device c, start, stop, some reply⟩ :: after ∧
            w.sendError? plan before c reply = some err := by
  constructor
  . rintro rfl
    obtain ⟨front, c, report, rest, h, start, stop, e, after, hitem, rfl, hfront, rfl⟩ :=
      hc.error_call bound_sendAgenda
    exact ⟨h, c, start, stop, _, after, rfl, sendError?_of_agenda hitem hfront⟩
  . rintro ⟨before, c, start, stop, reply, after, rfl, herr⟩
    cases reply with
    | ok v => simp [sendError?_ok] at herr
    | error e =>
      have failed : Event.Failed ⟨.device c, start, stop, some (.error e)⟩ := Event.failed_error
      obtain ⟨hbefore, _⟩ := hc.stops failed
      rcases r with _ | err' | a
      . obtain ⟨h, c', start', stop', hsplit, hh⟩ := hc.none_cases
        obtain ⟨_, heq, _⟩ := first_unique hsplit hbefore failed hh Event.failed_unreplied
        cases heq
      . obtain ⟨front, c', report, rest, h, _, _, e', _, hitem, hsplit, hfront, rfl⟩ :=
          hc.error_call bound_sendAgenda
        obtain ⟨rfl, heq, _⟩ :=
          first_unique hsplit hbefore failed hfront.not_failed Event.failed_error
        cases heq
        rw [sendError?_of_agenda hitem hfront] at herr
        rw [Option.some.inj herr]
      . exact absurd failed (hc.not_failed _ (by simp))

end

/--
Sending makes no call if the method does not send, or else if the line is not bound. If it can be
sent, the line is activated, and unless a call fails, the planned parts are sent in order and then
started. If a call fails, it is the last one, and its error is reported: of the activation as it is,
of a part with its role, and of the start as such. What was sent is started, once, exactly if the
line was activated and all of it was sent.
-/
theorem send_carried_out {σ : Type} (w : Writer) (dir : String) (lab : Lab ω) (s : σ) (x : ω)
    (now : Nat)
    : let run := (w.send dir : Program σ Error Unit).run lab none s x now
      match w.planSend dir with
      | .error e =>
        e = .unsupportedWriteMethod "sending" w.method.name ∧
          run.result = some (.error e) ∧ run.trace = []
      | .ok plan =>
        if w.usbLoader then
          Trace.calls run.trace <+: loads plan ++ [.execute] ∧
            (Trace.calls run.trace).head? = some (.activate .usbLoader) ∧
            ((∀ e ∈ run.trace, ¬e.Failed) →
              Trace.calls run.trace = loads plan ++ [.execute]) ∧
            (∀ before e after, run.trace = before ++ e :: after → e.Failed →
              Trace.calls after = []) ∧
            ((Trace.calls run.trace).count .execute =
              if loads plan <+: successes run.trace then 1 else 0) ∧
            (run.result = some (.ok ()) ↔ ∀ e ∈ run.trace, ¬e.Failed) ∧
            ∀ err, run.result = some (.error err) ↔
              ∃ before c start stop reply after,
                run.trace = before ++ ⟨.device c, start, stop, some reply⟩ :: after ∧
                  w.sendError? plan before c reply = some err
        else
          run.result =
              some (.error (.capability "usb-loader" s!"method {w.method.name} sends over USB")) ∧
            run.trace = [] := by
  cases hplan : w.planSend dir with
  | error e =>
    rw [send_of_error hplan]
    exact ⟨planSend_error hplan, rfl, rfl⟩
  | ok plan =>
    rw [send_of_plan hplan]
    split
    . have follows : (asPart .send (w.sendParts plan) : Program σ Error Unit).Follows
          (w.sendAgenda plan) :=
        follows_asPart sendParts_follows
      have carried := follows.run lab s x now
      have calls := carried.calls_prefix
      rw [calls_sendAgenda] at calls
      obtain ⟨activated, complete⟩ := send_progress carried
      refine ⟨calls, activated, complete, ?_, execute_count carried, ?_, fun err =>
        sendError_iff carried⟩
      . intro before e after hsplit hfailed
        rw [hsplit] at carried
        exact calls_eq_nil_iff.mpr (carried.stops hfailed).right
      . constructor
        . intro hok
          rw [hok] at carried
          exact carried.not_failed
        . intro hclean
          by_contra hend
          obtain ⟨e, he, hfailed⟩ := carried.exists_failed (fun ⟨⟩ => hend) bound_sendAgenda
          exact hclean e he hfailed
    . exact ⟨rfl, rfl⟩

theorem sunxi_carried_out
    : let w := (Strategy.wired (.forBoard "bananapi") .sunxi).writer
      let sent := (w.send "build" : Program Unit Error Unit).run (.prompt fun _ => false) none
        () () 0
      let spl := DeviceCall.load (some "build/spl/sunxi-spl.bin") (some "spl")
      let stuck := (w.send "build" : Program Unit Error Unit).run (.prompt (· = spl)) none () () 0
      (sent.result = some (.ok ()) ∧
        Trace.calls sent.trace =
          [.activate .usbLoader, spl, .load (some "build/u-boot.bin") none, .execute]) ∧
        stuck.result =
            some (.error (.sendFailed "spl" "sunxi"
              (Error.message (.capability "lab" "failure")))) ∧
          Trace.calls stuck.trace = [.activate .usbLoader, spl] := by
  intro w sent spl stuck
  obtain ⟨_, _, complete, _, _, clean, _⟩ :=
    send_carried_out w "build" (.prompt fun _ => false) () () 0
  obtain ⟨_, _, _, _, _, _, error⟩ :=
    send_carried_out w "build" (.prompt (· = spl)) () () 0
  have ended : sent.result = some (.ok ()) := rfl
  have failed : stuck.trace =
      stuck.trace.take 2 ++
        ⟨.device spl, 0, 0, some (.error (.capability "lab" "failure"))⟩ ::
          stuck.trace.drop 3 := rfl
  exact ⟨⟨ended, complete (clean.mp ended)⟩,
    (error _).mpr ⟨_, _, _, _, _, _, failed, rfl⟩, rfl⟩

end Writer

end BringUp
