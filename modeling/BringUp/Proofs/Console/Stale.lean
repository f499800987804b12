import BringUp.Proofs.Console.Reading

/-!
This module contains what a session makes of input that was typed before it began. The main
statement is that none of it is ever received, in whatever order the reader and the session take
turns, exactly if all of it that the reader will ever put into the queue is there when the session
begins.
-/

namespace BringUp

structure Channel.Stuck (c : Channel) (typed : List Delivery) : Prop where
  held : c.held = none
  silent : c.stopped = true ∨ c.size = 0 ∨ ∃ d, Delivery.next? typed = some d ∧ d.yields = false

namespace Stdin

def untaken (s : Stdin) : List UInt8 := s.waiting.flatten ++ s.unread

def takenBytes (moves : List Move) : List UInt8 :=
  ((takenChunks moves).map Prod.snd).flatten

/--
Whether the reader of the leased channel has bytes that are not in the queue, or finds some when it
reads.
-/
def behind (s : Stdin) : Bool :=
  match s.lease.channel?.bind fun channel => s.channels[channel]? with
  | some c =>
    c.held.isSome || !c.stopped && c.size ≠ 0 && (Delivery.next? s.typed).any Delivery.yields
  | none => false

inductive Session (s : Stdin) : List Move → Stdin → Prop where
  | begun : Session s [] s
  | step (session : Session s moves t) (hstep : t.step? a = some t') (ha : a ≠ .release)
      : Session s (moves ++ [⟨t, a, t'⟩]) t'

/--
Whether a session receives nothing of what had been typed when it began: all of that was taken out
of the queue before it receives a chunk.
-/
def Spared (stale : List UInt8) (moves : List Move) : Prop :=
  ∀ earlier m later, moves = earlier ++ m :: later → m.action = .receive →
    stale.length ≤ (takenBytes earlier).length

/--
The only channel is leased, and of the bytes that were typed before, no more will be received:
either they were taken, or they wait in the queue and the session still discards what it finds
there, or they will never come into the queue.
-/
structure Guarded (stale taken : Nat) (s : Stdin) (c : Channel) : Prop where
  shared : Shared s c
  leased : s.lease ≠ .free
  spared : stale ≤ taken ∨
    s.lease = .draining 0 ∧ stale ≤ taken + c.queue.flatten.length ∨
    c.Stuck s.typed ∧ (s.lease = .draining 0 ∨ c.queue = [])

section

variable {s s' t t' u : Stdin} {c : Channel} {a : Action} {moves more before during : List Move}
variable {channel stale taken : Nat} {typed later : List Delivery} {lease : Lease}
variable {bs : List UInt8}

theorem takenBytes_concat (m : Move)
    : takenBytes (moves ++ [m]) =
        takenBytes moves ++ (((m.before.takenChunk? m.action).map Prod.snd).toList).flatten := by
  simp [takenBytes, takenChunks_concat, Option.toList_map]

@[simp]
theorem takenBytes_append : takenBytes (moves ++ more) = takenBytes moves ++ takenBytes more := by
  simp [takenBytes, takenChunks]

theorem Runs.taken_conserved (runs : Runs moves s)
    : typedBytes moves = takenBytes moves ++ s.untaken := by
  rw [runs.typed_conserved, runs.conserved, takenBytes, untaken, List.flatten_append,
    List.append_assoc]

theorem Runs.ne_nil_of_mem_waiting (runs : Runs moves s) (hbs : bs ∈ s.waiting) : bs ≠ [] := by
  have hread : bs ∈ readChunks moves := by
    rw [runs.conserved]
    exact List.mem_append_right _ hbs
  exact ne_nil_of_mem_readChunks hread

theorem Session.runs (session : Session s during t) (runs : Runs before s)
    : Runs (before ++ during) t := by
  induction session with
  | begun => simpa using runs
  | step _ hstep _ ih => simpa using ih.step hstep

theorem Session.trans (first : Session s moves t) (second : Session t more u)
    : Session s (moves ++ more) u := by
  induction second with
  | begun => simpa using first
  | step _ hstep ha ih => simpa using ih.step hstep ha

theorem Session.single (hstep : s.step? a = some s') (ha : a ≠ .release)
    : Session s [⟨s, a, s'⟩] s' :=
  Session.begun.step hstep ha

theorem Session.play (session : Session s moves t) (actions : List Action)
    (hactions : .release ∉ actions)
    : Session s (moves ++ (t.play actions).fst) (t.play actions).snd := by
  induction actions generalizing moves t with
  | nil => simpa [Stdin.play] using session
  | cons a rest ih =>
    rw [List.mem_cons, not_or] at hactions
    unfold Stdin.play
    split
    . next t' hstep => simpa using ih (session.step hstep (Ne.symm hactions.left)) hactions.right
    . simpa using session

theorem Session.split (session : Session s moves t) (hsplit : moves = before ++ m :: after)
    : Session s before m.before ∧ m.before.step? m.action = some m.after ∧
        m.action ≠ .release := by
  induction session generalizing after with
  | begun => simp at hsplit
  | step session hstep ha ih =>
    rcases List.eq_nil_or_concat after with rfl | ⟨rest, last, rfl⟩
    . obtain ⟨rfl, rfl⟩ := List.append_singleton_inj.mp hsplit
      exact ⟨session, hstep, ha⟩
    . rw [List.concat_eq_append, ← List.cons_append, ← List.append_assoc] at hsplit
      exact ih (List.append_singleton_inj.mp hsplit).left

theorem Session.conserved (session : Session s during t) (runs : Runs before s)
    : s.untaken ++ typedBytes during = takenBytes during ++ t.untaken := by
  have total := (session.runs runs).taken_conserved
  rw [typedBytes_append, takenBytes_append, runs.taken_conserved] at total
  simpa using total

theorem Runs.untaken_acquire (runs : Runs before s)
    (hstep : s.step? (.acquire size starts) = some s')
    : s'.untaken = s.untaken := by
  have session := Session.single hstep (by simp)
  have balance := session.conserved runs
  simpa [typedBytes, Action.typed, takenBytes, takenChunks] using balance.symm

theorem Runs.acquired (runs : Runs before s)
    (hstep : s.step? (.acquire size starts) = some s')
    : ∃ c, Shared s' c ∧ s'.lease = .draining 0 := by
  rcases (runs.step hstep).sound with ⟨hnone, _⟩ | ⟨_, c, shared⟩
  . simpa [Action.acquires] using hnone _ (List.mem_concat_self ..)
  . obtain ⟨channel, hlease⟩ := draining_of_acquires hstep rfl
    obtain ⟨rfl, _⟩ := shared.of_lease (congrArg Lease.channel? hlease)
    exact ⟨c, shared, hlease⟩

theorem Shared.behind (shared : Shared s c) (hlease : s.lease.channel? = some 0)
    : s.behind =
        (c.held.isSome ||
          !c.stopped && c.size ≠ 0 && (Delivery.next? s.typed).any Delivery.yields) := by
  simp [Stdin.behind, hlease, shared.channels]

theorem Channel.Stuck.type (stuck : c.Stuck typed) : c.Stuck (typed ++ later) where
  held := stuck.held
  silent :=
    stuck.silent.imp_right (Or.imp_right fun ⟨d, hd, hyields⟩ =>
      ⟨d, Delivery.next?_append hd, hyields⟩)

theorem Channel.Stuck.after (stuck : c.Stuck typed) (hstopped : c.stopped = false)
    (hread : Delivery.read c.size typed = some (r, later)) : (c.after r).Stuck later := by
  obtain ⟨rfl, rfl⟩ | ⟨rfl, _⟩ | ⟨_, _, _, hsize, _, hyields, _⟩ := Delivery.read_cases hread
  . refine ⟨stuck.held, ?_⟩
    simpa only [Delivery.next?_interrupted, Channel.after] using stuck.silent
  . exact ⟨stuck.held, .inl rfl⟩
  -- A reader that gets a chunk was not stuck.
  . rcases stuck.silent with hstop | hzero | ⟨d, hd, hsilent⟩
    . simp [hstop] at hstopped
    . omega
    . simp [hd, hsilent] at hyields

theorem Guarded.receive (guarded : Guarded stale taken s c) (hstep : s.step? .receive = some s')
    : stale ≤ taken := by
  obtain ⟨hlease, htake⟩ := guarded.shared.receive_eq hstep
  obtain ⟨_, _, hqueue, _⟩ := guarded.shared.takeStep_eq htake
  rcases guarded.spared with hspared | ⟨hdraining, _⟩ | ⟨_, hdraining | hempty⟩
  . exact hspared
  . simp [hlease] at hdraining
  . simp [hlease] at hdraining
  . simp [hempty] at hqueue

theorem Guarded.step (guarded : Guarded stale taken s c) (hstep : s.step? a = some s')
    (ha : a ≠ .release)
    : ∃ c', Guarded stale
        (taken + (((s.takenChunk? a).map Prod.snd).toList).flatten.length) s' c' := by
  obtain ⟨shared, leased, spared⟩ := guarded
  cases a with
  | type d =>
    cases hstep
    refine ⟨c, shared.retype _, leased, ?_⟩
    simpa using spared.imp_right (Or.imp_right (And.imp_left Channel.Stuck.type))
  | read channel =>
    obtain ⟨r, hstopped, _, hread, _, hlease, shared'⟩ := shared.readStep_eq hstep
    refine ⟨_, shared', hlease ▸ leased, ?_⟩
    rw [hlease]
    simpa using spared.imp_right (Or.imp_right (And.imp_left fun stuck =>
      Channel.Stuck.after stuck hstopped hread))
  | send channel =>
    obtain ⟨bs, _, hheld, _, hlease, shared'⟩ := shared.sendStep_eq hstep
    refine ⟨_, shared', hlease ▸ leased, ?_⟩
    rw [hlease]
    rcases spared with hspared | ⟨hdraining, hspared⟩ | ⟨stuck, _⟩
    . exact .inl (Nat.le_add_right_of_le hspared)
    . refine .inr (.inl ⟨hdraining, ?_⟩)
      simp only [List.flatten_append, List.length_append]
      omega
    . simp [stuck.held] at hheld
  | acquire size starts => exact absurd (acquire_eq_some hstep).left leased
  | discard =>
    obtain ⟨hdraining, htake⟩ := shared.discard_eq hstep
    obtain ⟨bs, queue, hqueue, hhead, htyped, hlease, shared'⟩ := shared.takeStep_eq htake
    have htaken : s.takenChunk? .discard = some (.discarded, bs) := by
      simp [takenChunk?, received, discarded, hdraining, hhead]
    refine ⟨_, shared', hlease ▸ leased, ?_⟩
    rw [hlease, hdraining, htaken]
    rcases spared with hspared | ⟨_, hspared⟩ | ⟨stuck, _⟩
    . exact .inl (Nat.le_add_right_of_le hspared)
    . have hbefore : c.queue.flatten.length = bs.length + queue.flatten.length := by
        simp [hqueue]
      refine .inr (.inl ⟨rfl, ?_⟩)
      rw [hbefore, ← Nat.add_assoc] at hspared
      simpa using hspared
    . exact .inr (.inr ⟨⟨stuck.held, htyped ▸ stuck.silent⟩, .inl rfl⟩)
  | ready =>
    obtain ⟨_, hempty, htyped, hlease, shared'⟩ := shared.ready_eq hstep
    refine ⟨c, shared', by simp [hlease], ?_⟩
    rw [htyped]
    rcases spared with hspared | ⟨_, hspared⟩ | ⟨stuck, _⟩
    . exact .inl (Nat.le_add_right_of_le hspared)
    . exact .inl (by simpa [hempty] using hspared)
    . exact .inr (.inr ⟨stuck, .inr hempty⟩)
  | receive =>
    have hspared := Guarded.receive ⟨shared, leased, spared⟩ hstep
    obtain ⟨_, htake⟩ := shared.receive_eq hstep
    obtain ⟨_, _, _, _, _, hlease, shared'⟩ := shared.takeStep_eq htake
    exact ⟨_, shared', hlease ▸ leased, .inl (Nat.le_add_right_of_le hspared)⟩
  | release => exact absurd rfl ha

theorem Session.guarded (session : Session s moves t) (guarded : Guarded stale 0 s c)
    : ∃ c', Guarded stale (takenBytes moves).length t c' := by
  induction session with
  | begun => exact ⟨c, guarded⟩
  | step _ hstep ha ih =>
    obtain ⟨c', guarded'⟩ := ih
    rw [takenBytes_concat, List.length_append]
    exact guarded'.step hstep ha

theorem Shared.guarded (shared : Shared s c) (hlease : s.lease = .draining 0)
    (hbehind : s.behind = false)
    : Guarded s.untaken.length 0 s c := by
  rw [shared.behind (congrArg Lease.channel? hlease), Bool.or_eq_false_iff,
    Option.isSome_eq_false_iff, Option.isNone_iff_eq_none] at hbehind
  obtain ⟨hheld, hlive⟩ := hbehind
  refine ⟨shared, by simp [hlease], .inr ?_⟩
  by_cases hsilent : c.stopped = true ∨ c.size = 0 ∨
      ∃ d, Delivery.next? s.typed = some d ∧ d.yields = false
  . exact .inr ⟨⟨hheld, hsilent⟩, .inl hlease⟩
  . simp only [not_or, Bool.not_eq_true] at hsilent
    obtain ⟨hstopped, hsize, hnext⟩ := hsilent
    have hinterrupted : Delivery.next? s.typed = none := by
      cases hd : Delivery.next? s.typed with
      | none => rfl
      | some d => simp_all
    have hunread : s.unread = [] := Delivery.content_of_next?_eq_none hinterrupted
    refine .inl ⟨hlease, ?_⟩
    simp [untaken, shared.waiting, Channel.waiting, hheld, hunread]

def serving (typed : List Delivery) (c : Channel) (lease : Lease) : Stdin :=
  ⟨typed, [c], none, lease⟩

theorem Shared.eq_serving (shared : Shared s c) (hlease : s.lease.channel? = some 0)
    : s = serving s.typed c s.lease := by
  obtain ⟨_, hslot⟩ := shared.of_lease hlease
  rw [serving, ← shared.channels, ← hslot]

theorem Session.discards
    : ∃ moves, Session (serving typed ⟨size, held, stopped, queue⟩ (.draining 0)) moves
          (serving typed ⟨size, held, stopped, []⟩ (.draining 0)) ∧ typedBytes moves = [] := by
  induction queue with
  | nil => exact ⟨[], .begun, rfl⟩
  | cons bs queue ih =>
    obtain ⟨moves, session, htyped⟩ := ih
    have first : Session (serving typed ⟨size, held, stopped, bs :: queue⟩ (.draining 0)) _
        (serving typed ⟨size, held, stopped, queue⟩ (.draining 0)) :=
      Session.single (a := .discard) rfl (by simp)
    refine ⟨_, first.trans session, ?_⟩
    rw [typedBytes_append, htyped]
    rfl

theorem Session.reads (hsize : size ≠ 0)
    (hyields : (Delivery.next? typed).any Delivery.yields = true)
    : ∃ moves later bs, Session (serving typed ⟨size, none, false, queue⟩ lease) moves
          (serving later ⟨size, some bs, false, queue⟩ lease) ∧ typedBytes moves = [] := by
  induction typed with
  | nil => simp [Delivery.next?] at hyields
  | cons d rest ih =>
    cases d with
    | interrupted =>
      obtain ⟨moves, later, bs, session, htyped⟩ := ih hyields
      have again : (serving (.interrupted :: rest) ⟨size, none, false, queue⟩ lease).step?
          (.read 0) = some (serving rest ⟨size, none, false, queue⟩ lease) := by
        simp [step?, readStep?, Stdin.read, serving, Delivery.read_interrupted hsize]
      refine ⟨_, later, bs, (Session.single again (by simp)).trans session, ?_⟩
      rw [typedBytes_append, htyped]
      rfl
    | bytes bs =>
      cases bs with
      | nil => cases hyields
      | cons b bs =>
        obtain ⟨later, hread⟩ := Delivery.read_bytes b bs rest hsize
        have chunk : (serving (.bytes (b :: bs) :: rest) ⟨size, none, false, queue⟩ lease).step?
            (.read 0) =
              some (serving later ⟨size, some ((b :: bs).take size), false, queue⟩ lease) := by
          simp [step?, readStep?, Stdin.read, serving, hread, update]
        exact ⟨_, later, _, Session.single chunk (by simp), rfl⟩
    | failed | closed => cases hyields

theorem Runs.unspared (runs : Runs before s) (session : Session s during t)
    (htyped : typedBytes during = []) (hbs : bs ∈ t.waiting)
    : ¬ Spared s.untaken (during ++ [⟨t, .receive, t'⟩]) := by
  intro spared
  have htaken := spared during _ [] rfl rfl
  have balance := congrArg List.length (session.conserved runs)
  have hpos := List.length_pos_iff.mpr ((session.runs runs).ne_nil_of_mem_waiting hbs)
  have hwaits := (List.sublist_flatten_of_mem hbs).length_le
  have hleft : t.untaken.length = t.waiting.flatten.length + t.unread.length :=
    List.length_append
  rw [htyped, List.append_nil, List.length_append] at balance
  omega

theorem Runs.not_spared (runs : Runs before s) (shared : Shared s c)
    (hlease : s.lease = .draining 0) (hbehind : s.behind = true)
    : ∃ during t, Session s during t ∧ ¬ Spared s.untaken during := by
  rw [shared.behind (congrArg Lease.channel? hlease)] at hbehind
  have hserving := shared.eq_serving (congrArg Lease.channel? hlease)
  rw [hlease] at hserving
  obtain ⟨size, held, stopped, queue⟩ := c
  obtain ⟨discards, emptied, hdiscards⟩ : ∃ moves,
      Session s moves (serving s.typed ⟨size, held, stopped, []⟩ (.draining 0)) ∧
      typedBytes moves = [] :=
    hserving ▸ Session.discards
  obtain ⟨reads, later, bs, holding, hreads⟩ : ∃ moves later bs,
      Session (serving s.typed ⟨size, held, stopped, []⟩ (.taken 0)) moves
        (serving later ⟨size, some bs, stopped, []⟩ (.taken 0)) ∧ typedBytes moves = [] := by
    cases held with
    | some bs => exact ⟨[], s.typed, bs, .begun, rfl⟩
    | none =>
      obtain ⟨⟨rfl, hsize⟩, hyields⟩ : (stopped = false ∧ size ≠ 0) ∧
          (Delivery.next? s.typed).any Delivery.yields = true := by
        simpa using hbehind
      exact Session.reads hsize hyields
  have readied : Session s _ (serving s.typed ⟨size, held, stopped, []⟩ (.taken 0)) :=
    emptied.step (a := .ready) rfl (by simp)
  have filled : Session s _ (serving later ⟨size, none, stopped, [bs]⟩ (.taken 0)) :=
    (readied.trans holding).step (a := .send 0) rfl (by simp)
  have received : Session s _ (serving later ⟨size, none, stopped, []⟩ (.taken 0)) :=
    filled.step (a := .receive) rfl (by simp)
  refine ⟨_, _, received, runs.unspared filled ?_ (List.mem_singleton_self bs)⟩
  simp only [typedBytes_append, hdiscards, hreads]
  rfl

/--
What a session takes is what had been typed when it began, followed by what is typed during it.
Nothing of the former is ever received, whatever the reader and the typist do, exactly if the reader
holds nothing of it when the session begins and finds nothing of it that it could still read.
-/
theorem Runs.stale_spared_iff (runs : Runs before s)
    (hacquire : s.step? (.acquire size starts) = some s')
    : typedBytes before = takenBytes before ++ s.untaken ∧
        (∀ during t, Session s' during t →
          s.untaken ++ typedBytes during = takenBytes during ++ t.untaken) ∧
        ((∀ during t, Session s' during t → Spared s.untaken during) ↔ s'.behind = false) := by
  have runs' := runs.step hacquire
  have huntaken := runs.untaken_acquire hacquire
  obtain ⟨c, shared, hlease⟩ := runs.acquired hacquire
  refine ⟨runs.taken_conserved, fun during t session => ?_, fun hspared => ?_, ?_⟩
  . rw [← huntaken]
    exact session.conserved runs'
  . refine Bool.eq_false_iff.mpr fun hbehind => ?_
    obtain ⟨during, t, session, hunspared⟩ := runs'.not_spared shared hlease hbehind
    exact hunspared (huntaken ▸ hspared during t session)
  . intro hbehind during t session earlier m later hsplit hreceive
    obtain ⟨first, hstep, _⟩ := session.split hsplit
    obtain ⟨c', guarded⟩ := first.guarded (shared.guarded hlease hbehind)
    rw [← huntaken]
    exact guarded.receive (hreceive ▸ hstep)

end

namespace sessions

def kept : Stdin := ⟨[], [⟨4, none, false, [[99]]⟩], some 0, .free⟩

def resumed : Stdin := { kept with slot := none, lease := .draining 0 }

def first : List Move := (fresh.play (actions.take 10)).fst

theorem first_runs : Runs first kept := Runs.fresh.play (actions.take 10)

end sessions

theorem sessions_stale_spared
    : Runs sessions.first sessions.kept ∧
        sessions.kept.step? (.acquire 4 true) = some sessions.resumed ∧
        sessions.kept.untaken = [99] ∧
        ∀ during t, Session sessions.resumed during t →
          Spared sessions.kept.untaken during := by
  have hacquire : sessions.kept.step? (.acquire 4 true) = some sessions.resumed := rfl
  obtain ⟨_, _, spared⟩ := sessions.first_runs.stale_spared_iff hacquire
  exact ⟨sessions.first_runs, hacquire, by decide, spared.mpr (by decide)⟩

namespace overfull

def actions : List Action :=
  [.acquire 2 true, .ready, .release, .type (.bytes (List.replicate 34 99))] ++
    (List.replicate 16 [.read 0, .send 0]).flatten ++ [.read 0]

def resumption : List Action :=
  List.replicate 16 .discard ++ [.ready, .send 0, .receive]

def full : Stdin :=
  ⟨[], [⟨2, some [99, 99], false, List.replicate 16 [99, 99]⟩], some 0, .free⟩

def resumed : Stdin := { full with slot := none, lease := .draining 0 }

def last : Stdin := ⟨[], [⟨2, none, false, []⟩], none, .taken 0⟩

def first : List Move := (fresh.play actions).fst

def during : List Move := (resumed.play resumption).fst

theorem runs : Runs first full := Runs.fresh.play actions

theorem session : Session resumed during last :=
  Session.begun.play resumption (by decide)

end overfull

theorem overfull_unspared
    : Runs overfull.first overfull.full ∧
        overfull.full.step? (.acquire 2 true) = some overfull.resumed ∧
        Session overfull.resumed overfull.during overfull.last ∧
        typedBytes overfull.during = [] ∧ receivedChunks overfull.during = [[99, 99]] ∧
        ¬ Spared overfull.full.untaken overfull.during := by
  refine ⟨overfull.runs, rfl, overfull.session, by decide, by decide, fun spared => ?_⟩
  have hreceive := spared (overfull.during.take 18) _ [] rfl rfl
  exact absurd hreceive (by decide)

end Stdin

end BringUp
