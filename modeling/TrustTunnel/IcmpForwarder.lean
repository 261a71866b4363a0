import Mathlib.Data.List.Sort
import TrustTunnel.IcmpUtils
import TrustTunnel.Lib.Runs
import TrustTunnel.Lib.Table

/-!
# The ICMP forwarder (`icmp_forwarder.rs`)

One forwarder for all clients: a request's echo is a key of its multiplexer, which gets what
answers or quotes it. Several keys can equal an echo, so each event is given the table's layout,
in any order. `sent`, owners of deadlines and answered requests are not in the source.
-/

namespace TrustTunnel.IcmpForwarder

open Io Lib IcmpUtils
open NetUtils (IpAddr)

/-- `ipv6Available` is the socket that is there then. -/
structure Settings where
  allowPrivateNetworkConnections : Bool
  ipv6Available : Bool
  requestTimeout : Nat
  recvMessageQueueCapacity : Nat

/-! ## The table -/

/-- `ReplyWaiter`, with its key. -/
structure Waiter where
  key : Echo
  originalPeer : IpAddr
  multiplexer : Nat
  deriving DecidableEq

structure Expiry where
  deadline : Nat
  multiplexer : Nat
  request : Echo
  deriving DecidableEq

/-- `HashMap::insert`: a key that is there already is kept. -/
def put (waiter : Waiter) : List Waiter → List Waiter
  | [] => [waiter]
  | w :: layout =>
    if w.key.eq waiter.key then { waiter with key := w.key } :: layout
    else w :: put waiter layout

def get (echo : Echo) (layout : List Waiter) : Option Waiter := layout.find? (·.key.eq echo)

def remove (echo : Echo) (layout : List Waiter) : List Waiter := layout.eraseP (·.key.eq echo)

def removeAll (expired : List Expiry) (layout : List Waiter) : List Waiter :=
  expired.foldl (fun layout x => remove x.request layout) layout

def enqueue (x : Expiry) (deadlines : List Expiry) : List Expiry :=
  deadlines.orderedInsert (fun a b => a.deadline < b.deadline) x

/-! ## Clients -/

structure Received where
  peer : IpAddr
  message : Message
  origin : Option (Nat × Echo)
  deriving DecidableEq

/-- What its source has taken, what is left, and whether it is dropped. -/
structure Queue where
  taken : List Received
  waiting : List Received
  closed : Bool

def Queue.new : Queue := ⟨[], [], false⟩

def Queue.delivered (q : Queue) : List Received := q.taken ++ q.waiting

/-- `try_send`; `none` if the queue is full or closed. -/
def Queue.trySend (capacity : Nat) (q : Queue) (r : Received) : Option Queue :=
  if q.closed || capacity ≤ q.waiting.length then none
  else some { q with waiting := q.waiting ++ [r] }

structure IcmpDatagram where
  peer : IpAddr
  message : Message
  ttl : UInt8

/-- What the decoder makes of a record, with random data. -/
def decoded (identifier : UInt16) (destination : IpAddr) (sequenceNumber : UInt16) (ttl : UInt8)
    (data : Bytes) : IcmpDatagram :=
  let echo : Echo := ⟨0, identifier, sequenceNumber, data⟩
  ⟨destination,
    match destination with
    | .v4 _ => .v4 (.echo echo)
    | .v6 _ => .v6 (.echoRequest echo),
    ttl⟩

structure Writing where
  echo : Echo
  peer : IpAddr
  sentAt : Nat

structure State where
  now : Nat
  listening : Bool
  waiters : List Waiter
  deadlines : List Expiry
  queues : Table Nat Queue
  writing : Table Nat Writing
  sent : List (Nat × Echo)

def start : State := ⟨0, true, [], [], ∅, ∅, []⟩

/-! ## Steps -/

inductive Event where
  | makeMultiplexer (m : Nat)
  /-- `IcmpSink::write` up to `send_to`, with its result. -/
  | send (m : Nat) (datagram : IcmpDatagram) (result : Except IoError Unit)
  /-- The rest of `IcmpSink::write`; `stamp` is the time it reads. -/
  | register (m : Nat) (stamp : Nat) (layout : List Waiter)
  /-- `IcmpForwarder::listen` receives a message. -/
  | receive (received : Received) (layout : List Waiter)
  /-- `IcmpForwarder::maintain_listeners` wakes up. -/
  | expire (layout : List Waiter)
  | read (m : Nat)
  | dropSource (m : Nat)
  | pass (time : Nat)

/-- The checks of `IcmpSink::write`. -/
def Settings.passes (settings : Settings) (datagram : IcmpDatagram) : Option Echo :=
  if !settings.allowPrivateNetworkConnections && !NetUtils.isGlobalIp datagram.peer then none
  else datagram.message.toEcho.filter (fun _ => !datagram.peer.isIpv6 || settings.ipv6Available)

def quotes (message : Message) (request : Echo) : Bool :=
  match message.respondedEchoRequest with
  | some (some echo) =>
    echo.identifier == request.identifier && echo.sequenceNumber == request.sequenceNumber &&
      echo.data.isPrefixOf request.data
  | _ => true

def State.answers (s : State) (r : Received) : Bool :=
  match r.origin with
  | some (m, request) => s.sent.contains (m, request) && quotes r.message request
  | none => true

def State.deliver (capacity : Nat) (s : State) (r : Received) (echo : Echo) (layout : List Waiter)
    (w : Waiter) : State :=
  match (s.queues.lookup w.multiplexer).bind (fun q => q.trySend capacity r) with
  | some q => { s with waiters := layout, queues := s.queues.insert w.multiplexer q }
  | none => { s with waiters := remove echo layout }

def State.listen (capacity : Nat) (s : State) (r : Received) (layout : List Waiter) : State :=
  match r.message.respondedEchoRequest with
  | none => { s with listening := false }
  | some none => s
  | some (some echo) =>
    match get echo layout with
    | none => { s with waiters := layout }
    | some w => s.deliver capacity r echo layout w

def step (settings : Settings) (s : State) : Event → Option State
  | .makeMultiplexer m =>
    if m ∈ s.queues then none else some { s with queues := s.queues.insert m .new }
  | .send m datagram result =>
    if m ∈ s.queues ∧ m ∉ s.writing then
      match settings.passes datagram, result with
      | some echo, .ok () =>
        some { s with
          writing := s.writing.insert m ⟨echo, datagram.peer, s.now⟩,
          sent := (m, echo) :: s.sent }
      | _, _ => some s
    else none
  | .register m stamp layout =>
    match s.writing.lookup m with
    | some w =>
      if w.sentAt ≤ stamp ∧ stamp ≤ s.now ∧ layout.Perm s.waiters then
        some { s with
          waiters := put ⟨w.echo, w.peer, m⟩ layout,
          deadlines := enqueue ⟨stamp + settings.requestTimeout, m, w.echo⟩ s.deadlines,
          writing := s.writing.erase m }
      else none
    | none => none
  | .receive r layout =>
    if s.listening ∧ s.answers r ∧ layout.Perm s.waiters then
      some (s.listen settings.recvMessageQueueCapacity r layout)
    else none
  | .expire layout =>
    if s.listening ∧ layout.Perm s.waiters then
      some { s with
        waiters := removeAll (s.deadlines.filter (·.deadline ≤ s.now)) layout,
        deadlines := s.deadlines.filter (s.now < ·.deadline) }
    else none
  | .read m =>
    match s.queues.lookup m with
    | some ⟨taken, r :: waiting, false⟩ =>
      some { s with queues := s.queues.insert m ⟨taken ++ [r], waiting, false⟩ }
    | _ => none
  | .dropSource m =>
    (s.queues.lookup m).map (fun q =>
      { s with queues := s.queues.insert m { q with closed := true } })
  | .pass time => some { s with now := s.now + time }

end TrustTunnel.IcmpForwarder
