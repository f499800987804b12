/-!
This module contains the local input that several sessions share, one after another. A reader cuts
it into chunks and puts them into a queue of limited length. A session leases this channel, discards
what it finds there before it takes chunks for itself, and hands the channel back in the end. A
channel is opened only if none is kept.
-/

namespace BringUp

inductive Delivery where
  | bytes (bs : List UInt8)
  | interrupted
  | failed
  | closed
deriving DecidableEq

inductive Reading where
  | chunk (bs : List UInt8)
  | again
  | stop
deriving DecidableEq

/--
Read into a buffer. A read into an empty buffer yields nothing, as one at the end of the input does.
Without any input, a read waits.
-/
def Delivery.read (size : Nat) (deliveries : List Delivery) : Option (Reading × List Delivery) :=
  if size = 0 then some (.stop, deliveries)
  else
    match deliveries with
    | [] => none
    | .interrupted :: rest => some (.again, rest)
    | .failed :: rest => some (.stop, rest)
    | .closed :: _ | .bytes [] :: _ => some (.stop, deliveries)
    | .bytes (b :: bs) :: rest =>
      let more := (b :: bs).drop size
      some (.chunk ((b :: bs).take size), if more.isEmpty then rest else .bytes more :: rest)

structure Channel where
  size : Nat
  held : Option (List UInt8)
  stopped : Bool
  queue : List (List UInt8)
deriving DecidableEq

inductive Lease where
  | free
  | draining (channel : Nat)
  | taken (channel : Nat)
deriving DecidableEq

structure Stdin where
  typed : List Delivery
  channels : List Channel
  slot : Option Nat
  lease : Lease
deriving DecidableEq

def Channel.capacity : Nat := 16

def Lease.channel? : Lease → Option Nat
  | free => none
  | draining channel | taken channel => some channel

namespace Stdin

def fresh : Stdin := ⟨[], [], none, .free⟩

inductive Action where
  | type (d : Delivery)
  | read (channel : Nat)
  | send (channel : Nat)
  /--
  A session leases the channel that is kept, or else opens one, with a buffer of this size. The
  reader of a channel that is opened may fail to start.
  -/
  | acquire (size : Nat) (starts : Bool)
  | discard
  | ready
  | receive
  | release
deriving DecidableEq

def update (s : Stdin) (channel : Nat) (f : Channel → Channel) : Stdin :=
  { s with channels := s.channels.modify channel f }

def keeps (s : Stdin) (channel : Nat) : Bool :=
  s.slot = some channel || s.lease.channel? = some channel

def queued (s : Stdin) (channel : Nat) : List (List UInt8) :=
  (s.channels[channel]?.map Channel.queue).getD []

def read (s : Stdin) (channel : Nat) : Option (Reading × List Delivery) :=
  match s.channels[channel]? with
  | some c => if c.stopped || c.held.isSome then none else Delivery.read c.size s.typed
  | none => none

def readStep? (s : Stdin) (channel : Nat) : Option Stdin :=
  match s.read channel with
  | none => none
  | some (.again, typed) => some { s with typed }
  | some (.stop, typed) =>
    some ({ s with typed }.update channel fun c => { c with stopped := true })
  | some (.chunk bs, typed) =>
    some ({ s with typed }.update channel fun c => { c with held := some bs })

/--
Let the reader of a channel put the chunk it holds into the queue, once there is room. If nobody
takes chunks any more, the reader stops.
-/
def sendStep? (s : Stdin) (channel : Nat) : Option Stdin :=
  match s.channels[channel]?.bind Channel.held with
  | none => none
  | some bs =>
    if !s.keeps channel then
      some (s.update channel fun c => { c with held := none, stopped := true })
    else if (s.queued channel).length < Channel.capacity then
      some (s.update channel fun c => { c with held := none, queue := c.queue ++ [bs] })
    else none

def takeStep? (s : Stdin) (channel : Nat) : Option Stdin :=
  if (s.queued channel).isEmpty then none
  else some (s.update channel fun c => { c with queue := c.queue.tail })

def step? (s : Stdin) : Action → Option Stdin
  | .type d => some { s with typed := s.typed ++ [d] }
  | .read channel => s.readStep? channel
  | .send channel => s.sendStep? channel
  | .acquire size starts =>
    match s.lease, s.slot with
    | .free, some channel => some { s with slot := none, lease := .draining channel }
    | .free, none =>
      some { s with
        channels := s.channels ++ [⟨size, none, !starts, []⟩]
        lease := .draining s.channels.length }
    | _, _ => none
  | .discard =>
    match s.lease with
    | .draining channel => s.takeStep? channel
    | _ => none
  | .ready =>
    match s.lease with
    | .draining channel =>
      if (s.queued channel).isEmpty then some { s with lease := .taken channel } else none
    | _ => none
  | .receive =>
    match s.lease with
    | .taken channel => s.takeStep? channel
    | _ => none
  | .release =>
    match s.lease with
    | .taken channel => some { s with slot := some channel, lease := .free }
    | _ => none

def received (s : Stdin) : Action → Option (List UInt8)
  | .receive =>
    match s.lease with
    | .taken channel => (s.queued channel).head?
    | _ => none
  | _ => none

def atEnd (s : Stdin) : Bool :=
  match s.lease.channel?.bind fun channel => s.channels[channel]? with
  | some c => c.stopped && c.held.isNone && c.queue.isEmpty
  | none => false

end Stdin

end BringUp
