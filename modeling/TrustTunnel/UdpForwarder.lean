import TrustTunnel.UdpPipe

/-!
# The direct UDP forwarder (`udp_forwarder.rs`)

One connected socket for each flow; the sink wakes the source up when a socket was first written.
-/

namespace TrustTunnel.UdpForwarder

open Io NetUtils Forwarder Lib UdpPipe

structure UdpSocket where
  peer : SocketAddr

structure Connection where
  socket : UdpSocket
  beingListened : Bool

/-- The shared part, the source and the sink; `polled` are the flows waited for. -/
structure Multiplexer where
  connections : Table UdpDatagramMeta Connection
  wake : Channel
  pendingClosures : List (UdpDatagramMeta × IoError)
  polled : List UdpDatagramMeta

def makeMultiplexer : Multiplexer :=
  { connections := ∅, wake := .empty, pendingClosures := [], polled := [] }

/-- The waker, a readable socket with what `try_recv_buf` gives, or a failed one. -/
inductive PollEvent where
  | woken
  | pendingRead (m : UdpDatagramMeta) (r : Except IoError Bytes)
  | socketError (m : UdpDatagramMeta) (e : IoError)

def nonRoutableError : IoError :=
  ⟨.permissionDenied, "UDP destination is in a non-routable network"⟩

/-- `socket` is how `make_udp_socket` ended. -/
def onNewUdpConnection (settings : Settings) (f : Multiplexer)
    (m : Downstream.UdpDatagramMeta) (socket : Except IoError Unit) : Opening Multiplexer :=
  if settings.refuses m.destination.ip then .refused nonRoutableError f
  else if UdpDatagramMeta.ofDownstream m ∈ f.connections then
    .refused (.other "Already present") f
  else
    match socket with
    | .error e => .refused e f
    | .ok _ =>
      .opened { f with
        connections := f.connections.insert (.ofDownstream m) ⟨⟨m.destination⟩, false⟩ }

/-- `m` is reverse-oriented. -/
def onConnectionClosed (f : Multiplexer) (m : UdpDatagramMeta) : Multiplexer :=
  { f with connections := f.connections.erase m.reversed }

/-- `MultiplexerSink::write` up to the call of `send`. -/
def write (f : Multiplexer) (m : UdpDatagramMeta) : Except IoError SocketAddr :=
  match f.connections.lookup m with
  | none => .error (.ofKind .notFound)
  | some c => .ok c.socket.peer

/-- `MultiplexerSink::write` after the payload was sent. -/
def afterSend (f : Multiplexer) (m : UdpDatagramMeta) : Multiplexer × Except IoError Unit :=
  match f.connections.lookup m with
  | none => (f, .ok ())
  | some c =>
    if c.beingListened then (f, .ok ())
    else
      match f.wake.trySend with
      | none =>
        (f, .error (.other "Failed to wake up UDP listener task: channel closed"))
      | some wake =>
        ({ f with
            connections := f.connections.insert m { c with beingListened := true },
            wake := wake }, .ok ())

/-- `m` is the forward-oriented key. -/
def onSocketError (f : Multiplexer) (m : UdpDatagramMeta) (e : IoError) : Multiplexer :=
  if m ∈ f.connections then
    { f with connections := f.connections.erase m,
             pendingClosures := f.pendingClosures ++ [(m, e)] }
  else f

def readPendingSocket (f : Multiplexer) (m : UdpDatagramMeta) (r : Except IoError Bytes) :
    Multiplexer × ReadProgress :=
  if m ∈ f.connections then
    match r with
    | .ok payload => (f, .read ⟨m.reversed, payload⟩)
    | .error e => if e.kind = .wouldBlock then (f, .again) else (onSocketError f m e, .again)
  else (f, .again)

/-- `MultiplexerSource::read` up to its suspension in `poll_events`. -/
def beginRead (f : Multiplexer) : List (UdpDatagramMeta × IoError) × Multiplexer :=
  (f.pendingClosures, { f with pendingClosures := [], polled := f.connections.keys })

/-- `MultiplexerSource::read` from a return of `poll_events` on. -/
def onPollEvent (f : Multiplexer) : PollEvent → Option (Multiplexer × ReadProgress)
  | .woken =>
    match f.wake with
    | .empty => none
    | .full => some ({ f with wake := .empty }, .again)
    | .closed => some (f, .failed (.ofKind .unexpectedEof))
  | .pendingRead m r => if m ∈ f.polled then some (readPendingSocket f m r) else none
  | .socketError m e => if m ∈ f.polled then some (onSocketError f m e, .again) else none

def multiplexer (settings : Settings) : UdpForwarder Multiplexer Empty PollEvent where
  empty := makeMultiplexer
  onNewUdpConnection := onNewUdpConnection settings
  finishOpening := fun _ _ answer => nomatch answer
  onConnectionClosed := onConnectionClosed
  write := write
  afterSend := afterSend
  beginRead := beginRead
  onSource := onPollEvent

/-! ## What the calls can do -/

lemma onNewUdpConnection_cases (settings : Settings) (f : Multiplexer)
    (m : Downstream.UdpDatagramMeta) (socket : Except IoError Unit) :
    (∃ e, onNewUdpConnection settings f m socket = .refused e f) ∨
      settings.refuses m.destination.ip = false ∧
        onNewUdpConnection settings f m socket = .opened { f with
          connections := f.connections.insert (.ofDownstream m) ⟨⟨m.destination⟩, false⟩ } := by
  unfold onNewUdpConnection
  split
  · exact .inl ⟨_, rfl⟩
  · rename_i hr
    split
    · exact .inl ⟨_, rfl⟩
    · split
      · exact .inl ⟨_, rfl⟩
      · exact .inr ⟨by simpa using hr, rfl⟩

lemma afterSend_cases (f : Multiplexer) (m : UdpDatagramMeta) : (afterSend f m = (f, .ok ()) ∧
      ∀ c, f.connections.lookup m = some c → c.beingListened) ∨
    (f.wake = .closed ∧ ∃ e, afterSend f m = (f, .error e)) ∨
      ∃ c, f.connections.lookup m = some c ∧ afterSend f m = ({ f with
        connections := f.connections.insert m { c with beingListened := true },
        wake := .full }, .ok ()) := by
  unfold afterSend
  cases hc : f.connections.lookup m with
  | none => exact .inl ⟨rfl, fun c h => by cases h⟩
  | some c =>
    simp only
    split
    · rename_i hl
      exact .inl ⟨rfl, fun c' h => Option.some.inj h ▸ hl⟩
    · cases hw : f.wake with
      | closed => exact .inr (.inl ⟨rfl, _, rfl⟩)
      | empty | full => exact .inr (.inr ⟨c, rfl, rfl⟩)

lemma onPollEvent_cases (h : onPollEvent f ev = some (f', p)) :
    (f' = { f with wake := .empty } ∧ p = .again) ∨ (f' = f ∧ p ≠ .pending) ∨
      ∃ m e, f' = onSocketError f m e ∧ p = .again := by
  cases ev with
  | woken =>
    simp only [onPollEvent] at h
    split at h <;> cases h
    · exact .inl ⟨rfl, rfl⟩
    · exact .inr (.inl ⟨rfl, fun h => by cases h⟩)
  | pendingRead m =>
    simp only [onPollEvent, readPendingSocket] at h
    obtain ⟨-, h⟩ := Option.ite_none_right_eq_some.mp h
    split at h
    · split at h
      · cases h
        exact .inr (.inl ⟨rfl, fun h => by cases h⟩)
      · split at h <;> cases h
        · exact .inr (.inl ⟨rfl, fun h => by cases h⟩)
        · exact .inr (.inr ⟨m, _, rfl, rfl⟩)
    · cases h
      exact .inr (.inl ⟨rfl, fun h => by cases h⟩)
  | socketError m e =>
    simp only [onPollEvent] at h
    split at h <;> cases h
    exact .inr (.inr ⟨m, e, rfl, rfl⟩)

end TrustTunnel.UdpForwarder
