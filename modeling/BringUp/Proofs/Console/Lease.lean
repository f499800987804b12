import BringUp.Console.Stdin

/-!
This module contains what becomes of the local input over several sessions. The main statement is
that one channel serves them all, and that a chunk read from the input is received by a session
unless it was discarded or still waits.
-/

namespace BringUp

def Channel.waiting (c : Channel) : List (List UInt8) := c.queue ++ c.held.toList

def Reading.chunk? : Reading → Option (List UInt8)
  | chunk bs => some bs
  | again | stop => none

def Channel.after (c : Channel) : Reading → Channel
  | .chunk bs => { c with held := some bs }
  | .again => c
  | .stop => { c with stopped := true }

@[simp]
theorem Channel.after_queue (c : Channel) (r : Reading) : (c.after r).queue = c.queue := by
  cases r <;> rfl

namespace Stdin

structure Move where
  before : Stdin
  action : Action
  after : Stdin

/--
What has happened since before the first session. A session begins only when no other is on;
otherwise the typist, the readers and the sessions take turns in any way.
-/
inductive Runs : List Move → Stdin → Prop where
  | fresh : Runs [] .fresh
  | step (runs : Runs moves s) (hstep : s.step? a = some s') : Runs (moves ++ [⟨s, a, s'⟩]) s'

inductive Fate where
  | received
  | discarded
deriving DecidableEq

def Action.acquires : Action → Bool
  | acquire _ _ => true
  | _ => false

def discarded (s : Stdin) : Action → Option (List UInt8)
  | .discard =>
    match s.lease with
    | .draining channel => (s.queued channel).head?
    | _ => none
  | _ => none

def readChunk? (s : Stdin) : Action → Option (List UInt8)
  | .read channel =>
    match s.read channel with
    | some (.chunk bs, _) => some bs
    | _ => none
  | _ => none

def takenChunk? (s : Stdin) (a : Action) : Option (Fate × List UInt8) :=
  ((s.received a).map (Fate.received, ·)).or ((s.discarded a).map (Fate.discarded, ·))

def waiting (s : Stdin) : List (List UInt8) := s.channels.flatMap Channel.waiting

structure Untouched (s : Stdin) : Prop where
  channels : s.channels = []
  slot : s.slot = none
  lease : s.lease = .free

structure Shared (s : Stdin) (c : Channel) : Prop where
  channels : s.channels = [c]
  holder : s.slot = some 0 ∧ s.lease = .free ∨ s.slot = none ∧ s.lease.channel? = some 0

section

variable {s s' : Stdin} {c : Channel} {a : Action} {moves : List Move} {channel : Nat}

@[simp]
theorem readChunk?_eq_none (ha : ∀ channel, a ≠ .read channel) : s.readChunk? a = none := by
  cases a <;> simp_all [readChunk?]

@[simp]
theorem takenChunk?_eq_none (hreceive : a ≠ .receive) (hdiscard : a ≠ .discard)
    : s.takenChunk? a = none := by
  cases a <;> simp_all [takenChunk?, received, discarded]

theorem read_eq_some (hread : s.read channel = some r)
    : ∃ c, s.channels[channel]? = some c ∧ c.stopped = false ∧ c.held = none ∧
        Delivery.read c.size s.typed = some r := by
  unfold Stdin.read at hread
  split at hread
  . next c hc =>
    split at hread
    . cases hread
    . next hidle =>
      simp only [Bool.or_eq_true, not_or, Bool.not_eq_true, Option.isSome_eq_false_iff,
        Option.isNone_iff_eq_none] at hidle
      exact ⟨c, hc, hidle.left, hidle.right, hread⟩
  . cases hread

theorem acquire_eq_some (hstep : s.step? (.acquire size starts) = some s')
    : s.lease = .free ∧
        ((∃ channel, s.slot = some channel ∧
            s' = { s with slot := none, lease := .draining channel }) ∨
          s.slot = none ∧
            s' = { s with
              channels := s.channels ++ [⟨size, none, !starts, []⟩]
              lease := .draining s.channels.length }) := by
  unfold step? at hstep
  dsimp only at hstep
  split at hstep
  . next channel hlease hslot =>
    exact ⟨hlease, .inl ⟨channel, hslot, (Option.some.inj hstep).symm⟩⟩
  . next hlease hslot => exact ⟨hlease, .inr ⟨hslot, (Option.some.inj hstep).symm⟩⟩
  . cases hstep

theorem discard_eq_some (hstep : s.step? .discard = some s')
    : ∃ channel, s.lease = .draining channel ∧ s.takeStep? channel = some s' := by
  cases hlease : s.lease with
  | draining channel => exact ⟨channel, rfl, by simpa [step?, hlease] using hstep⟩
  | free | taken => simp [step?, hlease] at hstep

theorem ready_eq_some (hstep : s.step? .ready = some s')
    : ∃ channel, s.lease = .draining channel ∧ (s.queued channel).isEmpty = true ∧
        s' = { s with lease := .taken channel } := by
  cases hlease : s.lease with
  | draining channel =>
    obtain ⟨hempty, rfl⟩ : (s.queued channel).isEmpty = true ∧
        { s with lease := .taken channel } = s' := by
      simpa [step?, hlease] using hstep
    exact ⟨channel, rfl, hempty, rfl⟩
  | free | taken => simp [step?, hlease] at hstep

theorem receive_eq_some (hstep : s.step? .receive = some s')
    : ∃ channel, s.lease = .taken channel ∧ s.takeStep? channel = some s' := by
  cases hlease : s.lease with
  | taken channel => exact ⟨channel, rfl, by simpa [step?, hlease] using hstep⟩
  | free | draining => simp [step?, hlease] at hstep

theorem release_eq_some (hstep : s.step? .release = some s')
    : ∃ channel, s.lease = .taken channel ∧
        s' = { s with slot := some channel, lease := .free } := by
  cases hlease : s.lease with
  | taken channel =>
    refine ⟨channel, rfl, ?_⟩
    simpa [step?, hlease] using hstep.symm
  | free | draining => simp [step?, hlease] at hstep

theorem draining_of_acquires (hstep : s.step? a = some s') (hacquires : a.acquires = true)
    : ∃ channel, s'.lease = .draining channel := by
  cases a with
  | acquire size starts =>
    obtain ⟨_, ⟨channel, _, rfl⟩ | ⟨_, rfl⟩⟩ := acquire_eq_some hstep
    . exact ⟨channel, rfl⟩
    . exact ⟨_, rfl⟩
  | type | read | send | discard | ready | receive | release => cases hacquires

theorem Untouched.waiting (untouched : Untouched s) : s.waiting = [] := by
  simp [Stdin.waiting, untouched.channels]

theorem Shared.waiting (shared : Shared s c) : s.waiting = c.waiting := by
  simp [Stdin.waiting, shared.channels]

theorem Shared.queued (shared : Shared s c) : s.queued 0 = c.queue := by
  simp [Stdin.queued, shared.channels]

theorem Shared.keeps (shared : Shared s c) : s.keeps 0 = true := by
  rcases shared.holder with ⟨hslot, _⟩ | ⟨_, hlease⟩
  . simp [Stdin.keeps, hslot]
  . simp [Stdin.keeps, hlease]

theorem Shared.update (shared : Shared s c) (f : Channel → Channel)
    : Shared (s.update 0 f) (f c) where
  channels := by simp [Stdin.update, shared.channels]
  holder := shared.holder

theorem Shared.retype (shared : Shared s c) (typed : List Delivery)
    : Shared { s with typed } c where
  channels := shared.channels
  holder := shared.holder

theorem Shared.of_getElem? (shared : Shared s c) (hc : s.channels[channel]? = some c')
    : channel = 0 ∧ c' = c := by
  rw [shared.channels] at hc
  cases channel with
  | zero => exact ⟨rfl, (Option.some.inj hc).symm⟩
  | succ n => cases hc

theorem Shared.of_lease (shared : Shared s c) (hlease : s.lease.channel? = some channel)
    : channel = 0 ∧ s.slot = none := by
  rcases shared.holder with ⟨_, hfree⟩ | ⟨hslot, hleased⟩
  . rw [hfree] at hlease
    cases hlease
  . exact ⟨Option.some.inj (hlease.symm.trans hleased), hslot⟩

theorem Shared.slot_of_free (shared : Shared s c) (hfree : s.lease = .free) : s.slot = some 0 := by
  rcases shared.holder with ⟨hslot, _⟩ | ⟨_, hleased⟩
  . exact hslot
  . rw [hfree] at hleased
    cases hleased

theorem Shared.readStep_eq (shared : Shared s c) (hstep : s.readStep? channel = some s')
    : ∃ r, c.stopped = false ∧ c.held = none ∧ Delivery.read c.size s.typed = some (r, s'.typed) ∧
        s.readChunk? (.read channel) = r.chunk? ∧ s'.lease = s.lease ∧ Shared s' (c.after r) := by
  unfold readStep? at hstep
  unfold readChunk?
  dsimp only
  cases hread : s.read channel with
  | none => simp [hread] at hstep
  | some result =>
    obtain ⟨r, typed⟩ := result
    obtain ⟨c', hc, hstopped, hheld, hread'⟩ := read_eq_some hread
    obtain ⟨rfl, rfl⟩ := shared.of_getElem? hc
    rw [hread] at hstep
    refine ⟨r, hstopped, hheld, ?_⟩
    cases r with
    | again =>
      cases hstep
      exact ⟨hread', rfl, rfl, shared.retype typed⟩
    | stop | chunk =>
      cases hstep
      exact ⟨hread', rfl, rfl, (shared.retype typed).update _⟩

theorem Shared.sendStep_eq (shared : Shared s c) (hstep : s.sendStep? channel = some s')
    : ∃ bs, channel = 0 ∧ c.held = some bs ∧ s'.typed = s.typed ∧ s'.lease = s.lease ∧
        Shared s' { c with held := none, queue := c.queue ++ [bs] } := by
  unfold sendStep? at hstep
  split at hstep
  . cases hstep
  . next bs hbs =>
    obtain ⟨c', hc, hheld⟩ := Option.bind_eq_some_iff.mp hbs
    obtain ⟨rfl, rfl⟩ := shared.of_getElem? hc
    rw [shared.keeps, Bool.not_true, if_neg Bool.false_ne_true] at hstep
    split at hstep
    . cases hstep
      exact ⟨bs, rfl, hheld, rfl, rfl, shared.update _⟩
    . cases hstep

theorem Shared.takeStep_eq (shared : Shared s c) (hstep : s.takeStep? 0 = some s')
    : ∃ bs queue, c.queue = bs :: queue ∧ (s.queued 0).head? = some bs ∧ s'.typed = s.typed ∧
        s'.lease = s.lease ∧ Shared s' { c with queue } := by
  unfold takeStep? at hstep
  rw [shared.queued] at hstep ⊢
  split at hstep
  . cases hstep
  . next hqueue =>
    cases hstep
    obtain ⟨bs, queue, hqueue⟩ := List.exists_cons_of_ne_nil (by simpa using hqueue)
    have after := shared.update fun c => { c with queue := c.queue.tail }
    rw [hqueue] at after
    exact ⟨bs, queue, hqueue, by simp [hqueue], rfl, rfl, after⟩

theorem Shared.acquire_eq (shared : Shared s c) (hstep : s.step? (.acquire size starts) = some s')
    : s.lease = .free ∧ s'.typed = s.typed ∧ s'.lease = .draining 0 ∧ Shared s' c := by
  obtain ⟨hfree, ⟨channel, hslot, rfl⟩ | ⟨hslot, _⟩⟩ := acquire_eq_some hstep
  . obtain rfl : channel = 0 := Option.some.inj (hslot.symm.trans (shared.slot_of_free hfree))
    exact ⟨hfree, rfl, rfl, shared.channels, .inr ⟨rfl, rfl⟩⟩
  . rw [shared.slot_of_free hfree] at hslot
    cases hslot

theorem Shared.ready_eq (shared : Shared s c) (hstep : s.step? .ready = some s')
    : s.lease = .draining 0 ∧ c.queue = [] ∧ s'.typed = s.typed ∧ s'.lease = .taken 0 ∧
        Shared s' c := by
  obtain ⟨channel, hlease, hempty, rfl⟩ := ready_eq_some hstep
  obtain ⟨rfl, hslot⟩ := shared.of_lease (congrArg Lease.channel? hlease)
  rw [shared.queued, List.isEmpty_iff] at hempty
  exact ⟨hlease, hempty, rfl, rfl, shared.channels, .inr ⟨hslot, rfl⟩⟩

theorem Shared.release_eq (shared : Shared s c) (hstep : s.step? .release = some s')
    : s.lease = .taken 0 ∧ s'.typed = s.typed ∧ s'.lease = .free ∧ Shared s' c := by
  obtain ⟨channel, hlease, rfl⟩ := release_eq_some hstep
  obtain ⟨rfl, _⟩ := shared.of_lease (congrArg Lease.channel? hlease)
  exact ⟨hlease, rfl, rfl, shared.channels, .inl ⟨rfl, rfl⟩⟩

theorem Shared.discard_eq (shared : Shared s c) (hstep : s.step? .discard = some s')
    : s.lease = .draining 0 ∧ s.takeStep? 0 = some s' := by
  obtain ⟨channel, hlease, htake⟩ := discard_eq_some hstep
  obtain ⟨rfl, _⟩ := shared.of_lease (congrArg Lease.channel? hlease)
  exact ⟨hlease, htake⟩

theorem Shared.receive_eq (shared : Shared s c) (hstep : s.step? .receive = some s')
    : s.lease = .taken 0 ∧ s.takeStep? 0 = some s' := by
  obtain ⟨channel, hlease, htake⟩ := receive_eq_some hstep
  obtain ⟨rfl, _⟩ := shared.of_lease (congrArg Lease.channel? hlease)
  exact ⟨hlease, htake⟩

theorem Shared.step (shared : Shared s c) (hstep : s.step? a = some s')
    : ∃ c', Shared s' c' ∧
        c.waiting ++ (s.readChunk? a).toList =
          ((s.takenChunk? a).map Prod.snd).toList ++ c'.waiting := by
  cases a with
  | type d =>
    obtain rfl := Option.some.inj hstep
    exact ⟨c, shared.retype _, by simp⟩
  | read channel =>
    obtain ⟨r, _, hheld, _, hchunk, _, shared'⟩ := shared.readStep_eq hstep
    refine ⟨_, shared', ?_⟩
    rw [hchunk]
    cases r <;> simp [Channel.waiting, Channel.after, Reading.chunk?, hheld]
  | send channel =>
    obtain ⟨bs, _, hheld, _, _, shared'⟩ := shared.sendStep_eq hstep
    exact ⟨_, shared', by simp [Channel.waiting, hheld]⟩
  | acquire size starts =>
    obtain ⟨_, _, _, shared'⟩ := shared.acquire_eq hstep
    exact ⟨c, shared', by simp⟩
  | discard =>
    obtain ⟨hlease, htake⟩ := shared.discard_eq hstep
    obtain ⟨bs, queue, hqueue, hhead, _, _, shared'⟩ := shared.takeStep_eq htake
    refine ⟨_, shared', ?_⟩
    simp [takenChunk?, received, discarded, hlease, hhead, Channel.waiting, hqueue]
  | ready =>
    obtain ⟨_, _, _, _, shared'⟩ := shared.ready_eq hstep
    exact ⟨c, shared', by simp⟩
  | receive =>
    obtain ⟨hlease, htake⟩ := shared.receive_eq hstep
    obtain ⟨bs, queue, hqueue, hhead, _, _, shared'⟩ := shared.takeStep_eq htake
    refine ⟨_, shared', ?_⟩
    simp [takenChunk?, received, hlease, hhead, Channel.waiting, hqueue]
  | release =>
    obtain ⟨_, _, _, shared'⟩ := shared.release_eq hstep
    exact ⟨c, shared', by simp⟩

theorem Untouched.step_eq (untouched : Untouched s) (hstep : s.step? a = some s')
    : (∃ d, a = .type d ∧ s' = { s with typed := s.typed ++ [d] }) ∨
        ∃ size starts, a = .acquire size starts ∧ s'.typed = s.typed ∧
          Shared s' ⟨size, none, !starts, []⟩ := by
  cases a with
  | type d => exact .inl ⟨d, rfl, (Option.some.inj hstep).symm⟩
  | acquire size starts =>
    rw [step?, untouched.lease, untouched.slot] at hstep
    obtain rfl := Option.some.inj hstep
    refine .inr ⟨size, starts, rfl, rfl, ?_, .inr ⟨rfl, ?_⟩⟩
    . simp [untouched.channels]
    . simp [untouched.channels, Lease.channel?]
  | read channel => simp [step?, readStep?, Stdin.read, untouched.channels] at hstep
  | send channel => simp [step?, sendStep?, untouched.channels] at hstep
  | discard | ready | receive | release => simp [step?, untouched.lease] at hstep

theorem Untouched.step (untouched : Untouched s) (hstep : s.step? a = some s')
    : a.acquires = true ∧ (∃ c, Shared s' c ∧ c.waiting = []) ∨
        a.acquires = false ∧ Untouched s' := by
  obtain ⟨d, rfl, rfl⟩ | ⟨size, starts, rfl, _, shared⟩ := untouched.step_eq hstep
  . exact .inr ⟨rfl, untouched.channels, untouched.slot, untouched.lease⟩
  . exact .inl ⟨rfl, _, shared, rfl⟩

theorem Untouched.takenChunk? (untouched : Untouched s) : s.takenChunk? a = none := by
  cases a <;> simp [Stdin.takenChunk?, received, discarded, untouched.lease]

theorem Untouched.readChunk? (untouched : Untouched s) : s.readChunk? a = none := by
  cases a <;> simp [Stdin.readChunk?, Stdin.read, untouched.channels]

theorem Runs.sound (runs : Runs moves s)
    : (∀ m ∈ moves, m.action.acquires = false) ∧ Untouched s ∨
        (∃ m ∈ moves, m.action.acquires = true) ∧ ∃ c, Shared s c := by
  induction runs with
  | fresh => exact .inl ⟨by simp, rfl, rfl, rfl⟩
  | step _ hstep ih =>
    rcases ih with ⟨hnone, untouched⟩ | ⟨⟨m, hmem, hacquires⟩, c, shared⟩
    . rcases untouched.step hstep with ⟨hacquires, c, shared, _⟩ | ⟨hother, untouched⟩
      . exact .inr ⟨⟨_, List.mem_concat_self .., hacquires⟩, c, shared⟩
      . left
        refine ⟨List.forall_mem_append.mpr ⟨hnone, ?_⟩, untouched⟩
        simpa using hother
    . obtain ⟨c', shared', _⟩ := shared.step hstep
      exact .inr ⟨⟨m, List.mem_append_left _ hmem, hacquires⟩, c', shared'⟩

theorem Runs.split (runs : Runs moves s) (hsplit : moves = before ++ m :: after)
    : Runs before m.before ∧ m.before.step? m.action = some m.after := by
  induction runs generalizing after with
  | fresh => simp at hsplit
  | step runs hstep ih =>
    rcases List.eq_nil_or_concat after with rfl | ⟨rest, last, rfl⟩
    . obtain ⟨rfl, rfl⟩ := List.append_singleton_inj.mp hsplit
      exact ⟨runs, hstep⟩
    . rw [List.concat_eq_append, ← List.cons_append, ← List.append_assoc] at hsplit
      exact ih (List.append_singleton_inj.mp hsplit).left

theorem filterMap_concat (f : Move → Option α) (m : Move)
    : (moves ++ [m]).filterMap f = moves.filterMap f ++ (f m).toList := by
  cases h : f m <;> simp [h]

def readChunks (moves : List Move) : List (List UInt8) :=
  moves.filterMap fun m => m.before.readChunk? m.action

def takenChunks (moves : List Move) : List (Fate × List UInt8) :=
  moves.filterMap fun m => m.before.takenChunk? m.action

def receivedChunks (moves : List Move) : List (List UInt8) :=
  moves.filterMap fun m => m.before.received m.action

theorem readChunks_concat (m : Move)
    : readChunks (moves ++ [m]) =
        readChunks moves ++ (m.before.readChunk? m.action).toList :=
  filterMap_concat (fun m => m.before.readChunk? m.action) m

theorem takenChunks_concat (m : Move)
    : takenChunks (moves ++ [m]) =
        takenChunks moves ++ (m.before.takenChunk? m.action).toList :=
  filterMap_concat (fun m => m.before.takenChunk? m.action) m

theorem Runs.conserved (runs : Runs moves s)
    : readChunks moves = (takenChunks moves).map Prod.snd ++ s.waiting := by
  induction runs with
  | fresh => rfl
  | @step moves s a s' runs hstep ih =>
    have balance : s.waiting ++ (s.readChunk? a).toList =
        ((s.takenChunk? a).map Prod.snd).toList ++ s'.waiting := by
      rcases runs.sound with ⟨_, untouched⟩ | ⟨_, c, shared⟩
      . rw [untouched.waiting, untouched.readChunk?, untouched.takenChunk?]
        rcases untouched.step hstep with ⟨_, c, shared, hwaiting⟩ | ⟨_, untouched⟩
        . simp [shared.waiting, hwaiting]
        . simp [untouched.waiting]
      . obtain ⟨c', shared', hwaiting⟩ := shared.step hstep
        rw [shared.waiting, shared'.waiting, hwaiting]
    rw [readChunks_concat, takenChunks_concat, ih, List.append_assoc, balance, List.map_append,
      List.append_assoc, Option.toList_map]

theorem receivedChunks_eq
    : receivedChunks moves =
        ((takenChunks moves).filter fun (fate, _) => fate = .received).map Prod.snd := by
  rw [receivedChunks, takenChunks, List.filter_filterMap, List.map_filterMap]
  congr 1
  funext m
  rw [Stdin.takenChunk?]
  cases m.before.received m.action with
  | some bs => rfl
  | none => cases m.before.discarded m.action <;> rfl

/--
A channel is opened by the first session and by no other. Every session leases it and hands it back
to be kept for the next. Of the chunks that were read, in order, each was received by a session or
discarded by one, unless it still waits.
-/
theorem Runs.one_channel (runs : Runs moves s)
    : (∀ before m after, moves = before ++ m :: after →
          (m.before.channels.length < m.after.channels.length ↔
            m.action.acquires = true ∧ ∀ x ∈ before, x.action.acquires = false)) ∧
        (∀ m ∈ moves, m.action.acquires = true → m.after.lease = .draining 0) ∧
        (∀ m ∈ moves, m.action = .release →
          m.before.lease = .taken 0 ∧ m.after.slot = some 0 ∧ m.after.channels.length = 1) ∧
        readChunks moves = (takenChunks moves).map Prod.snd ++ s.waiting ∧
        receivedChunks moves =
          ((takenChunks moves).filter fun (fate, _) => fate = .received).map Prod.snd ∧
        (receivedChunks moves).Sublist (readChunks moves) := by
  have sublist : (receivedChunks moves).Sublist (readChunks moves) := by
    rw [receivedChunks_eq, runs.conserved]
    exact (List.filter_sublist.map _).trans (List.sublist_append_left ..)
  refine ⟨?_, ?_, ?_, runs.conserved, receivedChunks_eq, sublist⟩
  . intro before m after hsplit
    obtain ⟨earlier, hstep⟩ := runs.split hsplit
    rcases earlier.sound with ⟨hnone, untouched⟩ | ⟨⟨x, hx, hacquires⟩, c, shared⟩
    . rcases untouched.step hstep with ⟨hacquires, c, shared, _⟩ | ⟨hother, untouched'⟩
      . simpa [untouched.channels, shared.channels, hacquires] using hnone
      . simp [untouched.channels, untouched'.channels, hother]
    . obtain ⟨c', shared', _⟩ := shared.step hstep
      simp only [shared.channels, shared'.channels, List.length_singleton, Nat.lt_irrefl,
        false_iff, not_and, Classical.not_forall]
      exact fun _ => ⟨x, hx, by simp [hacquires]⟩
  . intro m hm hacquires
    obtain ⟨before, after, hsplit⟩ := List.append_of_mem hm
    obtain ⟨earlier, hstep⟩ := runs.split hsplit
    obtain ⟨channel, hlease⟩ := draining_of_acquires hstep hacquires
    rcases (earlier.step hstep).sound with ⟨hnone, _⟩ | ⟨_, c, shared⟩
    . simp [hnone _ (List.mem_concat_self ..)] at hacquires
    . obtain ⟨rfl, _⟩ := shared.of_lease (congrArg Lease.channel? hlease)
      exact hlease
  . intro m hm hrelease
    obtain ⟨before, after, hsplit⟩ := List.append_of_mem hm
    obtain ⟨earlier, hstep⟩ := runs.split hsplit
    rw [hrelease] at hstep
    obtain ⟨channel, hlease, hafter⟩ := release_eq_some hstep
    rcases earlier.sound with ⟨_, untouched⟩ | ⟨_, c, shared⟩
    . simp [untouched.lease] at hlease
    . obtain ⟨rfl, _⟩ := shared.of_lease (congrArg Lease.channel? hlease)
      exact ⟨hlease, by rw [hafter], by simp [hafter, shared.channels]⟩

def play (s : Stdin) : List Action → List Move × Stdin
  | [] => ([], s)
  | a :: rest =>
    match s.step? a with
    | some s' => (⟨s, a, s'⟩ :: (play s' rest).fst, (play s' rest).snd)
    | none => ([], s)

theorem Runs.play (runs : Runs before s) (actions : List Action)
    : Runs (before ++ (s.play actions).fst) (s.play actions).snd := by
  induction actions generalizing before s with
  | nil => simpa [Stdin.play] using runs
  | cons a rest ih =>
    unfold Stdin.play
    split
    . next s' hstep => simpa using ih (runs.step hstep)
    . simpa using runs

end

namespace sessions

def actions : List Action :=
  [.acquire 4 true, .ready, .type (.bytes [97, 98]), .read 0, .send 0, .receive, .release,
    .type (.bytes [99]), .read 0, .send 0, .acquire 4 true, .discard, .ready,
    .type (.bytes [100, 101, 102, 103, 104]), .read 0, .send 0, .receive, .read 0, .release]

def moves : List Move := (fresh.play actions).fst

def last : Stdin := ⟨[], [⟨4, some [104], false, []⟩], some 0, .free⟩

theorem runs : Runs moves last := Runs.fresh.play actions

end sessions

theorem sessions_one_channel
    : Runs sessions.moves sessions.last ∧ sessions.moves.length = sessions.actions.length ∧
        takenChunks sessions.moves =
          [(.received, [97, 98]), (.discarded, [99]), (.received, [100, 101, 102, 103])] ∧
        readChunks sessions.moves = [[97, 98], [99], [100, 101, 102, 103], [104]] ∧
        (receivedChunks sessions.moves).Sublist (readChunks sessions.moves) := by
  obtain ⟨_, _, _, conserved, _, sublist⟩ := sessions.runs.one_channel
  have taken : takenChunks sessions.moves =
      [(.received, [97, 98]), (.discarded, [99]), (.received, [100, 101, 102, 103])] := by decide
  refine ⟨sessions.runs, by decide, taken, ?_, sublist⟩
  rw [conserved, taken]
  rfl

end Stdin

end BringUp
