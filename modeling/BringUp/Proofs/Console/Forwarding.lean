import BringUp.Console.Relay
import BringUp.Proofs.Console.Stale

/-!
This module contains how much of the local input its reader forwards. The main statement is that
this is all of it up to its end, in whatever pieces it arrives, exactly if the reader's buffer has
room for a byte or there is nothing to forward.
-/

namespace BringUp

namespace Delivery

def ends : Delivery → Bool
  | closed | failed => true
  | bytes bs => bs.isEmpty
  | interrupted => false

def upToEnd (deliveries : List Delivery) : List UInt8 :=
  (deliveries.takeWhile fun d => !d.ends).flatMap content

/--
What it takes to read all that is there: a step for each delivery, and for each byte at most a read,
a step that puts it into the queue and one that takes it from there.
-/
def workload (deliveries : List Delivery) : Nat :=
  deliveries.length + 3 * (deliveries.flatMap content).length

variable {size : Nat} {deliveries rest later : List Delivery} {d : Delivery}

@[simp]
theorem upToEnd_nil : upToEnd [] = [] :=
  rfl

theorem upToEnd_cons
    : upToEnd (d :: rest) = if d.ends then [] else d.content ++ upToEnd rest := by
  unfold upToEnd
  cases hd : d.ends <;> simp [hd]

theorem upToEnd_append
    : upToEnd (deliveries ++ later) =
        if deliveries.any ends then upToEnd deliveries
        else upToEnd deliveries ++ upToEnd later := by
  induction deliveries with
  | nil => simp
  | cons d rest ih =>
    rw [List.cons_append, upToEnd_cons, upToEnd_cons, ih]
    cases hd : d.ends <;> cases hrest : rest.any ends <;> simp [hd, hrest]

theorem any_ends_iff
    : deliveries.any ends = true ↔ ∀ later, upToEnd (deliveries ++ later) = upToEnd deliveries := by
  refine ⟨fun hends later => by rw [upToEnd_append, if_pos hends], fun hsame => ?_⟩
  have hmore := hsame [bytes [0]]
  rw [upToEnd_append] at hmore
  split at hmore
  . assumption
  . simp [upToEnd, ends, content] at hmore

theorem upToEnd_remaining (more : List UInt8)
    : upToEnd ((if more.isEmpty then rest else bytes more :: rest) ++ later) =
        more ++ upToEnd (rest ++ later) := by
  cases more with
  | nil => rfl
  | cons b bs => simp [upToEnd_cons, ends, content]

theorem read_eq_none_iff : read size deliveries = none ↔ size ≠ 0 ∧ deliveries = [] := by
  unfold read
  split
  . simp_all
  . split <;> simp_all

theorem read_upToEnd (hsize : size ≠ 0) (hread : read size deliveries = some (r, rest))
    : r = .again ∧ (∀ later, upToEnd (deliveries ++ later) = upToEnd (rest ++ later)) ∨
        r = .stop ∧ (∀ later, upToEnd (deliveries ++ later) = []) ∨
        ∃ bs, r = .chunk bs ∧
          ∀ later, upToEnd (deliveries ++ later) = bs ++ upToEnd (rest ++ later) := by
  unfold read at hread
  rw [if_neg hsize] at hread
  split at hread
  . cases hread
  . cases hread
    exact .inl ⟨rfl, fun later => by simp [upToEnd_cons, ends, content]⟩
  . cases hread
    exact .inr (.inl ⟨rfl, fun later => by simp [upToEnd_cons, ends]⟩)
  . cases hread
    exact .inr (.inl ⟨rfl, fun later => by simp [upToEnd_cons, ends]⟩)
  . cases hread
    exact .inr (.inl ⟨rfl, fun later => by simp [upToEnd_cons, ends]⟩)
  . next b bs rest' =>
    obtain ⟨rfl, rfl⟩ := Prod.mk.inj (Option.some.inj hread)
    refine .inr (.inr ⟨_, rfl, fun later => ?_⟩)
    rw [upToEnd_remaining, ← List.append_assoc, List.take_append_drop, List.cons_append,
      upToEnd_cons]
    rfl

theorem read_length_le (hread : read size deliveries = some (r, rest))
    : rest.length ≤ deliveries.length := by
  unfold read at hread
  split at hread
  . cases hread
    exact Nat.le_refl _
  . split at hread
    . cases hread
    . cases hread
      exact Nat.le_succ _
    . cases hread
      exact Nat.le_succ _
    . cases hread
      exact Nat.le_refl _
    . cases hread
      exact Nat.le_refl _
    . obtain ⟨rfl, rfl⟩ := Prod.mk.inj (Option.some.inj hread)
      split
      . exact Nat.le_succ _
      . exact Nat.le_refl _

theorem read_workload (hread : read size deliveries = some (r, rest))
    : r = .again ∧ workload rest < workload deliveries ∨
        r = .stop ∧ workload rest ≤ workload deliveries ∨
        ∃ bs, r = .chunk bs ∧ workload rest + 2 < workload deliveries := by
  have hlength := read_length_le hread
  obtain ⟨rfl, rfl⟩ | ⟨rfl, hcontent⟩ | ⟨bs, rfl, hne, _, _, _, hcontent⟩ := read_cases hread
  . refine .inl ⟨rfl, ?_⟩
    simp [workload, content]
  . refine .inr (.inl ⟨rfl, ?_⟩)
    rw [workload, workload, hcontent]
    omega
  . refine .inr (.inr ⟨bs, rfl, ?_⟩)
    have hpos := List.length_pos_iff.mpr hne
    rw [workload, workload, hcontent, List.length_append]
    omega

end Delivery

def Channel.workload (c : Channel) : Nat :=
  (if c.stopped then 0 else 1) + 2 * c.held.toList.length + c.queue.length

def Lease.workload : Lease → Nat
  | free => 2
  | draining _ => 1
  | taken _ => 0

namespace Stdin

def Action.delivery? : Action → Option Delivery
  | type d => some d
  | _ => none

def typedDeliveries (moves : List Move) : List Delivery :=
  moves.filterMap fun m => m.action.delivery?

def sentChunk? (s : Stdin) : Action → Option (List UInt8)
  | .send channel => if s.keeps channel then s.channels[channel]?.bind Channel.held else none
  | _ => none

def sentChunks (moves : List Move) : List (List UInt8) :=
  moves.filterMap fun m => m.before.sentChunk? m.action

def opening? (moves : List Move) : Option Action :=
  (moves.map Move.action).find? Action.acquires

def closed (s : Stdin) (channel : Nat) : Bool :=
  s.channels[channel]?.any fun c => c.stopped && c.held.isNone

/--
A session is on, and nothing can happen unless something is typed or the session ends.
-/
structure Rests (s : Stdin) : Prop where
  leased : s.lease ≠ .free
  idle : ∀ a s', s.step? a = some s' → a = .release ∨ ∃ d, a = .type d

def workload (s : Stdin) : Nat :=
  Delivery.workload s.typed + s.channels.foldr (·.workload + ·) 0 + s.lease.workload

/--
The reader has started on a buffer of this size. What it has read is what it has put into the queue
and the chunk that it holds. If the buffer has any room, then what was read and what the reader
still finds are the input up to its end, whatever is typed next.
-/
structure Opened (size : Nat) (moves : List Move) (s : Stdin) (c : Channel) : Prop where
  shared : Shared s c
  size_eq : c.size = size
  read : readChunks moves = sentChunks moves ++ c.held.toList
  fits : ∀ bs ∈ readChunks moves, bs ≠ [] ∧ bs.length ≤ size
  forwards : size ≠ 0 → ∀ later,
    Delivery.upToEnd (typedDeliveries moves ++ later) =
      (readChunks moves).flatten ++
        if c.stopped then [] else Delivery.upToEnd (s.typed ++ later)

section

variable {s s' t : Stdin} {c : Channel} {a : Action} {moves during : List Move}
variable {channel size : Nat}

theorem typedDeliveries_concat (m : Move)
    : typedDeliveries (moves ++ [m]) = typedDeliveries moves ++ m.action.delivery?.toList :=
  filterMap_concat (fun m => m.action.delivery?) m

theorem sentChunks_concat (m : Move)
    : sentChunks (moves ++ [m]) = sentChunks moves ++ (m.before.sentChunk? m.action).toList :=
  filterMap_concat (fun m => m.before.sentChunk? m.action) m

theorem opening?_concat (m : Move)
    : opening? (moves ++ [m]) =
        (opening? moves).or (if m.action.acquires then some m.action else none) := by
  rw [opening?, List.map_append, List.find?_append, ← opening?]
  cases hm : m.action.acquires <;> simp [hm]

@[simp]
theorem sentChunk?_eq_none (ha : ∀ channel, a ≠ .send channel) : s.sentChunk? a = none := by
  cases a <;> simp_all [sentChunk?]

@[simp]
theorem delivery?_eq_none (ha : ∀ d, a ≠ .type d) : a.delivery? = none := by
  cases a <;> simp_all [Action.delivery?]

theorem Shared.session_step (shared : Shared s c) (hstep : s.step? a = some s')
    (htype : ∀ d, a ≠ .type d) (hread : ∀ channel, a ≠ .read channel)
    (hsend : ∀ channel, a ≠ .send channel)
    : s'.typed = s.typed ∧ ∃ queue, Shared s' { c with queue } ∧
        (a ≠ .release →
          queue.length + s'.lease.workload < c.queue.length + s.lease.workload) := by
  have taking (htake : s.takeStep? 0 = some s')
      : s'.typed = s.typed ∧ ∃ queue, Shared s' { c with queue } ∧
        (a ≠ .release →
          queue.length + s'.lease.workload < c.queue.length + s.lease.workload) := by
    obtain ⟨_, queue, hqueue, _, htyped, hlease, shared'⟩ := shared.takeStep_eq htake
    refine ⟨htyped, queue, shared', fun _ => ?_⟩
    rw [hlease, hqueue, List.length_cons]
    omega
  cases a with
  | type d => exact absurd rfl (htype d)
  | read channel => exact absurd rfl (hread channel)
  | send channel => exact absurd rfl (hsend channel)
  | acquire size starts =>
    obtain ⟨hfree, htyped, hlease, shared'⟩ := shared.acquire_eq hstep
    exact ⟨htyped, c.queue, shared', fun _ => by simp [hfree, hlease, Lease.workload]⟩
  | discard => exact taking (shared.discard_eq hstep).right
  | ready =>
    obtain ⟨hlease, _, htyped, hlease', shared'⟩ := shared.ready_eq hstep
    exact ⟨htyped, c.queue, shared', fun _ => by simp [hlease, hlease', Lease.workload]⟩
  | receive => exact taking (shared.receive_eq hstep).right
  | release =>
    obtain ⟨_, htyped, _, shared'⟩ := shared.release_eq hstep
    exact ⟨htyped, c.queue, shared', fun hne => absurd rfl hne⟩

theorem Opened.read_step (opened : Opened size moves s c)
    (hstep : s.step? (.read channel) = some s')
    : ∃ c', Opened size (moves ++ [⟨s, .read channel, s'⟩]) s' c' := by
  obtain ⟨r, hstopped, hheld, hread, hchunk, _, shared'⟩ := opened.shared.readStep_eq hstep
  rw [opened.size_eq] at hread
  have hreads : readChunks (moves ++ [⟨s, .read channel, s'⟩]) =
      sentChunks moves ++ r.chunk?.toList := by
    rw [readChunks_concat, opened.read, hchunk, hheld, Option.toList_none, List.append_nil]
  refine ⟨_, shared', ?_, ?_, ?_, ?_⟩
  . cases r <;> exact opened.size_eq
  . rw [hreads, sentChunks_concat, sentChunk?_eq_none (by simp), Option.toList_none,
      List.append_nil]
    cases r <;> simp [Reading.chunk?, Channel.after, hheld]
  . intro bs hbs
    rw [readChunks_concat, hchunk, List.mem_append, Option.mem_toList] at hbs
    rcases hbs with hearlier | hnew
    . exact opened.fits bs hearlier
    . obtain ⟨rfl, _⟩ | ⟨rfl, _⟩ | ⟨bs', rfl, hne, _, hlength, _⟩ := Delivery.read_cases hread
      . cases hnew
      . cases hnew
      . cases hnew
        exact ⟨hne, hlength⟩
  . intro hsize later
    rw [typedDeliveries_concat, delivery?_eq_none (by simp), Option.toList_none, List.append_nil,
      opened.forwards hsize, hstopped, if_neg Bool.false_ne_true, readChunks_concat, hchunk]
    obtain ⟨rfl, hsame⟩ | ⟨rfl, hnone⟩ | ⟨bs, rfl, hfront⟩ := Delivery.read_upToEnd hsize hread
    . simp [Channel.after, Reading.chunk?, hstopped, hsame]
    . simp [Channel.after, Reading.chunk?, hnone]
    . simp [Channel.after, Reading.chunk?, hstopped, hfront]

theorem Opened.step (opened : Opened size moves s c) (hstep : s.step? a = some s')
    : ∃ c', Opened size (moves ++ [⟨s, a, s'⟩]) s' c' := by
  -- Only a read changes what was read.
  have reads (ha : ∀ channel, a ≠ .read channel)
      : readChunks (moves ++ [⟨s, a, s'⟩]) = readChunks moves := by
    rw [readChunks_concat, readChunk?_eq_none ha, Option.toList_none, List.append_nil]
  by_cases htype : ∃ d, a = .type d
  . obtain ⟨d, rfl⟩ := htype
    cases hstep
    refine ⟨c, opened.shared.retype _, opened.size_eq, ?_, ?_, fun hsize later => ?_⟩
    . rw [reads (by simp), sentChunks_concat, sentChunk?_eq_none (by simp)]
      simpa using opened.read
    . rw [reads (by simp)]
      exact opened.fits
    . rw [reads (by simp), typedDeliveries_concat]
      simpa [Action.delivery?] using opened.forwards hsize (d :: later)
  by_cases hread : ∃ channel, a = .read channel
  . obtain ⟨channel, rfl⟩ := hread
    exact opened.read_step hstep
  have hnotype : typedDeliveries (moves ++ [⟨s, a, s'⟩]) = typedDeliveries moves := by
    rw [typedDeliveries_concat, delivery?_eq_none (not_exists.mp htype), Option.toList_none,
      List.append_nil]
  replace reads := reads (not_exists.mp hread)
  by_cases hsend : ∃ channel, a = .send channel
  . obtain ⟨channel, rfl⟩ := hsend
    obtain ⟨bs, rfl, hheld, htyped, _, shared'⟩ := opened.shared.sendStep_eq hstep
    have hsent : s.sentChunk? (.send 0) = some bs := by
      simp [sentChunk?, opened.shared.keeps, opened.shared.channels, hheld]
    refine ⟨_, shared', opened.size_eq, ?_, reads ▸ opened.fits, ?_⟩
    . rw [reads, opened.read, sentChunks_concat, hsent, hheld]
      simp
    . rw [reads, hnotype, htyped]
      exact opened.forwards
  . obtain ⟨htyped, queue, shared', _⟩ := opened.shared.session_step hstep
      (not_exists.mp htype) (not_exists.mp hread) (not_exists.mp hsend)
    refine ⟨_, shared', opened.size_eq, ?_, reads ▸ opened.fits, ?_⟩
    . rw [reads, opened.read, sentChunks_concat, sentChunk?_eq_none (not_exists.mp hsend)]
      simp
    . rw [reads, hnotype, htyped]
      exact opened.forwards

theorem Runs.unopened (runs : Runs moves s) (hopening : opening? moves = none)
    : Untouched s ∧ readChunks moves = [] ∧ sentChunks moves = [] ∧
        typedDeliveries moves = s.typed := by
  induction runs with
  | fresh => exact ⟨⟨rfl, rfl, rfl⟩, rfl, rfl, rfl⟩
  | @step moves s a s' runs hstep ih =>
    rw [opening?_concat, Option.or_eq_none_iff] at hopening
    obtain ⟨untouched, hreads, hsends, htyped⟩ := ih hopening.left
    obtain ⟨d, rfl, rfl⟩ | ⟨size, starts, rfl, _⟩ := untouched.step_eq hstep
    . refine ⟨⟨untouched.channels, untouched.slot, untouched.lease⟩, ?_, ?_, ?_⟩
      . simp [readChunks_concat, hreads]
      . simp [sentChunks_concat, hsends]
      . simp [typedDeliveries_concat, htyped, Action.delivery?]
    . simp [Action.acquires] at hopening

theorem Runs.opened (runs : Runs moves s) (hopening : opening? moves = some (.acquire size true))
    : ∃ c, Opened size moves s c := by
  induction runs with
  | fresh => cases hopening
  | @step moves s a s' runs hstep ih =>
    rw [opening?_concat] at hopening
    cases hfirst : opening? moves with
    | some first =>
      rw [hfirst, Option.some_or] at hopening
      obtain ⟨c, opened⟩ := ih (hfirst.trans hopening)
      exact opened.step hstep
    | none =>
      obtain ⟨untouched, hreads, hsends, htyped⟩ := runs.unopened hfirst
      obtain ⟨d, rfl, _⟩ | ⟨size', starts, rfl, htyped', shared⟩ := untouched.step_eq hstep
      . simp [hfirst, Action.acquires] at hopening
      . obtain ⟨rfl, rfl⟩ : size' = size ∧ starts = true := by
          simpa [hfirst, Action.acquires] using hopening
        refine ⟨_, shared, rfl, ?_, ?_, fun _ later => ?_⟩
        . simp [readChunks_concat, sentChunks_concat, hreads, hsends]
        . simp [readChunks_concat, hreads]
        . simp [readChunks_concat, typedDeliveries_concat, hreads, htyped, htyped']

theorem Shared.step_workload (shared : Shared s c) (hstep : s.step? a = some s')
    (htype : a.delivery? = none) (ha : a ≠ .release)
    : ∃ c', Shared s' c' ∧ s'.workload < s.workload := by
  have htype : ∀ d, a ≠ .type d := fun d hd => by simp [hd, Action.delivery?] at htype
  by_cases hread : ∃ channel, a = .read channel
  . obtain ⟨channel, rfl⟩ := hread
    obtain ⟨r, hstopped, hheld, hread, _, hlease, shared'⟩ := shared.readStep_eq hstep
    refine ⟨_, shared', ?_⟩
    rw [workload, workload, shared.channels, shared'.channels, hlease]
    obtain ⟨rfl, hless⟩ | ⟨rfl, hless⟩ | ⟨bs, rfl, hless⟩ := Delivery.read_workload hread
    . simpa [Channel.after] using hless
    . simp [Channel.after, Channel.workload, hstopped]
      omega
    . simp [Channel.after, Channel.workload, hheld]
      omega
  by_cases hsend : ∃ channel, a = .send channel
  . obtain ⟨channel, rfl⟩ := hsend
    obtain ⟨bs, _, hheld, htyped, hlease, shared'⟩ := shared.sendStep_eq hstep
    refine ⟨_, shared', ?_⟩
    rw [workload, workload, shared.channels, shared'.channels, hlease, htyped]
    simp [Channel.workload, hheld]
    omega
  . obtain ⟨htyped, queue, shared', hless⟩ := shared.session_step hstep htype
      (not_exists.mp hread) (not_exists.mp hsend)
    refine ⟨_, shared', ?_⟩
    have hless := hless ha
    rw [workload, workload, shared.channels, shared'.channels, htyped]
    simp [Channel.workload]
    omega

theorem Session.length_le (session : Session s during t) (shared : Shared s c)
    (htyped : typedDeliveries during = [])
    : ∃ c', Shared t c' ∧ during.length + t.workload ≤ s.workload := by
  induction session with
  | begun => exact ⟨c, shared, by simp⟩
  | step _ hstep ha ih =>
    rw [typedDeliveries_concat, List.append_eq_nil_iff] at htyped
    obtain ⟨c', shared', hlength⟩ := ih htyped.left
    obtain ⟨c'', shared'', hless⟩ :=
      shared'.step_workload hstep (Option.toList_eq_nil_iff.mp htyped.right) ha
    refine ⟨c'', shared'', ?_⟩
    rw [List.length_append, List.length_singleton]
    omega

theorem Rests.step_eq_none (rests : s.Rests) (htype : a.delivery? = none) (ha : a ≠ .release)
    : s.step? a = none := by
  cases hstep : s.step? a with
  | none => rfl
  | some s' =>
    rcases rests.idle a s' hstep with hrelease | ⟨d, rfl⟩
    . exact absurd hrelease ha
    . cases htype

theorem Shared.takeStep_eq_none (shared : Shared s c) (htake : s.takeStep? 0 = none)
    : c.queue = [] := by
  unfold takeStep? at htake
  rw [shared.queued] at htake
  simpa using htake

theorem Shared.queue_of_rests (shared : Shared s c) (rests : s.Rests)
    : c.queue = [] := by
  cases hlease : s.lease with
  | free => exact absurd hlease rests.leased
  | draining channel =>
    obtain ⟨rfl, _⟩ := shared.of_lease (congrArg Lease.channel? hlease)
    have hdiscard := rests.step_eq_none (a := .discard) rfl (by simp)
    rw [step?, hlease] at hdiscard
    exact shared.takeStep_eq_none hdiscard
  | taken channel =>
    obtain ⟨rfl, _⟩ := shared.of_lease (congrArg Lease.channel? hlease)
    have hreceive := rests.step_eq_none (a := .receive) rfl (by simp)
    rw [step?, hlease] at hreceive
    exact shared.takeStep_eq_none hreceive

theorem Shared.reader_of_rests (shared : Shared s c) (rests : s.Rests)
    : c.held = none ∧ (c.stopped = true ∨ c.size ≠ 0 ∧ s.typed = []) := by
  have hchannel : s.channels[0]? = some c := by rw [shared.channels]; rfl
  have hheld : c.held = none := by
    cases hheld : c.held with
    | none => rfl
    | some bs =>
      have hsend := rests.step_eq_none (a := .send 0) rfl (by simp)
      simp [step?, sendStep?, hchannel, hheld, shared.keeps, shared.queued,
        shared.queue_of_rests rests, Channel.capacity] at hsend
  refine ⟨hheld, ?_⟩
  cases hstopped : c.stopped with
  | true => exact .inl rfl
  | false =>
    have hread := rests.step_eq_none (a := .read 0) rfl (by simp)
    rw [step?, readStep?] at hread
    cases hread' : s.read 0 with
    | none =>
      simp only [Stdin.read, hchannel, hstopped, hheld] at hread'
      exact .inr (Delivery.read_eq_none_iff.mp hread')
    | some r =>
      obtain ⟨r, typed⟩ := r
      cases r <;> simp [hread'] at hread

theorem Opened.closed_iff (opened : Opened size moves s c)
    : s.closed 0 = true ↔ c.stopped = true ∧ c.held = none := by
  simp [closed, opened.shared.channels]

theorem Opened.sent_of_zero (opened : Opened 0 moves s c)
    : sentChunks moves = [] := by
  refine List.eq_nil_iff_forall_not_mem.mpr fun bs hbs => ?_
  obtain ⟨hne, hlength⟩ := opened.fits bs (opened.read ▸ List.mem_append_left _ hbs)
  exact hne (List.length_eq_zero_iff.mp (Nat.le_zero.mp hlength))

theorem Opened.sent_all (opened : Opened size moves s c) (hsize : size ≠ 0)
    (hheld : c.held = none) (hdone : c.stopped = true ∨ s.typed = [])
    : (sentChunks moves).flatten = Delivery.upToEnd (typedDeliveries moves) := by
  have hforwards := opened.forwards hsize []
  rw [opened.read, hheld, List.append_nil, List.append_nil] at hforwards
  rcases hdone with hstopped | htyped
  . simpa [hstopped] using hforwards.symm
  . simpa [htyped] using hforwards.symm

theorem Opened.stopped_iff (opened : Opened size moves s c) (hsize : size ≠ 0)
    (hdone : c.stopped = true ∨ s.typed = [])
    : c.stopped = true ↔ (typedDeliveries moves).any Delivery.ends = true := by
  have hforwards := opened.forwards hsize
  rw [Delivery.any_ends_iff]
  refine ⟨fun hstopped later => ?_, fun hended => ?_⟩
  . rw [hforwards later, ← List.append_nil (typedDeliveries moves), hforwards [], hstopped]
    rfl
  . rcases hdone with hstopped | htyped
    . exact hstopped
    . have hmore := hended [.bytes [0]]
      rw [hforwards, ← List.append_nil (typedDeliveries moves), hforwards [], htyped] at hmore
      cases hstopped : c.stopped with
      | true => rfl
      | false => simp [hstopped, Delivery.upToEnd, Delivery.ends, Delivery.content] at hmore

/--
A reader puts chunks into the queue that are not empty and fit into its buffer, and together they
are the front of the input. As long as the session goes on and nothing is typed, everything comes to
rest. A reader that has closed its channel, or is at rest, has put all of the input up to its end
into the queue exactly if its buffer has room for a byte or there is nothing to put. At rest, it has
closed the channel exactly if the input has ended or its buffer is empty.
-/
theorem Runs.forwarded_iff (o : RelayOptions) (runs : Runs moves s)
    (hopening : opening? moves = some (.acquire o.bufferSize true))
    : (∀ bs ∈ sentChunks moves, bs ≠ [] ∧ bs.length ≤ o.readSize) ∧
        (sentChunks moves).flatten <+: Delivery.upToEnd (typedDeliveries moves) ∧
        (∀ during t, Session s during t → typedDeliveries during = [] →
          during.length ≤ s.workload) ∧
        (s.closed 0 = true ∨ s.Rests →
          ((sentChunks moves).flatten = Delivery.upToEnd (typedDeliveries moves) ↔
            o.bufferSize ≠ 0 ∨ Delivery.upToEnd (typedDeliveries moves) = [])) ∧
        (s.Rests →
          (s.closed 0 = true ↔
            o.bufferSize = 0 ∨ (typedDeliveries moves).any Delivery.ends = true)) := by
  obtain ⟨c, opened⟩ := runs.opened hopening
  refine ⟨fun bs hbs => ?_, ?_, fun during t session htyped => ?_, fun hdone => ?_,
    fun rests => ?_⟩
  . obtain ⟨hne, hlength⟩ := opened.fits bs (opened.read ▸ List.mem_append_left _ hbs)
    exact ⟨hne, Nat.le_trans hlength (Nat.le_max_left ..)⟩
  . by_cases hsize : o.bufferSize = 0
    . rw [hsize] at opened
      simp [opened.sent_of_zero]
    . have hforwards := opened.forwards hsize []
      rw [opened.read, List.flatten_append, List.append_nil, List.append_assoc] at hforwards
      exact ⟨_, hforwards.symm⟩
  . obtain ⟨_, _, hlength⟩ := session.length_le opened.shared htyped
    omega
  . by_cases hsize : o.bufferSize = 0
    . rw [hsize] at opened
      simp [opened.sent_of_zero, hsize]
    . have hidle : c.held = none ∧ (c.stopped = true ∨ s.typed = []) := by
        rcases hdone with hclosed | rests
        . obtain ⟨hstopped, hheld⟩ := opened.closed_iff.mp hclosed
          exact ⟨hheld, .inl hstopped⟩
        . obtain ⟨hheld, hreader⟩ := opened.shared.reader_of_rests rests
          exact ⟨hheld, hreader.imp_right And.right⟩
      simp [opened.sent_all hsize hidle.left hidle.right, hsize]
  . obtain ⟨hheld, hreader⟩ := opened.shared.reader_of_rests rests
    rw [opened.closed_iff, and_iff_left hheld]
    by_cases hsize : o.bufferSize = 0
    . simpa [opened.size_eq, hsize] using hreader
    . rw [opened.stopped_iff hsize (hreader.imp_right And.right)]
      simp [hsize]

end

namespace broken

def actions : List Action :=
  [.type .interrupted, .type (.bytes [97, 98, 99]), .acquire 2 true, .ready, .type .interrupted,
    .type (.bytes [100]), .type .failed, .type (.bytes [101]), .read 0, .read 0, .send 0, .read 0,
    .send 0, .receive, .read 0, .read 0, .send 0, .read 0, .receive]

def options : RelayOptions := { RelayOptions.initial with bufferSize := 2 }

def moves : List Move := (fresh.play actions).fst

def last : Stdin := ⟨[.bytes [101]], [⟨2, none, true, [[100]]⟩], none, .taken 0⟩

theorem runs : Runs moves last := Runs.fresh.play actions

end broken

theorem broken_forwarded
    : Runs broken.moves broken.last ∧
        opening? broken.moves = some (.acquire broken.options.bufferSize true) ∧
        broken.last.closed 0 = true ∧ sentChunks broken.moves = [[97, 98], [99], [100]] ∧
        (sentChunks broken.moves).flatten =
          Delivery.upToEnd (typedDeliveries broken.moves) := by
  have hopening : opening? broken.moves = some (.acquire broken.options.bufferSize true) := rfl
  obtain ⟨_, _, _, forwarded, _⟩ := broken.runs.forwarded_iff broken.options hopening
  exact ⟨broken.runs, hopening, rfl, by decide, (forwarded (.inl rfl)).mpr (.inl (by decide))⟩

namespace roomless

def actions : List Action := [.type (.bytes [29, 29]), .acquire 0 true, .ready, .read 0]

def options : RelayOptions := { RelayOptions.initial with bufferSize := 0 }

def moves : List Move := (fresh.play actions).fst

def last : Stdin := ⟨[.bytes [29, 29]], [⟨0, none, true, []⟩], none, .taken 0⟩

theorem runs : Runs moves last := Runs.fresh.play actions

end roomless

theorem roomless_unforwarded
    : Runs roomless.moves roomless.last ∧
        opening? roomless.moves = some (.acquire roomless.options.bufferSize true) ∧
        roomless.last.closed 0 = true ∧
        (typedDeliveries roomless.moves).any Delivery.ends = false ∧
        Delivery.upToEnd (typedDeliveries roomless.moves) = [29, 29] ∧
        sentChunks roomless.moves = [] :=
  ⟨roomless.runs, rfl, rfl, by decide, by decide, by decide⟩

end Stdin

end BringUp
