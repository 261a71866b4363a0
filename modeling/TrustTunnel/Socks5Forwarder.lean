import TrustTunnel.Socks5Client
import TrustTunnel.UdpPipe

/-!
# The SOCKS5 UDP forwarder (`socks5_forwarder.rs`)

One association for each client address, shared by its flows; `peers` are their destinations. The
`debug_assert!` is left out.
-/

namespace TrustTunnel.Socks5Forwarder

open Io NetUtils Forwarder Lib UdpPipe Socks5Client

structure UdpAssociation where
  peers : List SocketAddr

/-- `peers.remove(peer)`. -/
def UdpAssociation.without (a : UdpAssociation) (peer : SocketAddr) : UdpAssociation :=
  ⟨a.peers.filter (fun p => decide (p ≠ peer))⟩

@[simp] lemma UdpAssociation.mem_without (a : UdpAssociation) (peer p : SocketAddr) :
    p ∈ (a.without peer).peers ↔ p ∈ a.peers ∧ p ≠ peer := by
  simp [without]

/-- The shared part, the source and the sink; `polled` are the sources waited for, `receiving`
is in `recv_from`. -/
structure DatagramTransceiver where
  associations : Table SocketAddr UdpAssociation
  newSocket : Channel
  pendingClosures : List (UdpDatagramMeta × IoError)
  polled : List SocketAddr
  receiving : Option SocketAddr

def makeUdpDatagramMultiplexer : DatagramTransceiver :=
  { associations := ∅, newSocket := .empty, pendingClosures := [], polled := [],
    receiving := none }

/-- The server was not connected to, or the handshake ended. -/
inductive HandshakeAnswer where
  | connectError (e : IoError)
  | handshake (r : ConnectResult)

/-- What a suspended `DatagramSource::read` is woken by. -/
inductive PollEvent where
  | woken
  | readable (source : SocketAddr)
  | received (r : Except Socks5Client.Error (Bytes × SocketAddr))
  | socketError (source : SocketAddr) (e : IoError)

/-- `DatagramTransceiverShared::on_new_udp_connection` up to its suspension. -/
def onNewUdpConnection (settings : Settings) (f : DatagramTransceiver)
    (m : Downstream.UdpDatagramMeta) (_ : Except IoError Unit) : Opening DatagramTransceiver :=
  if settings.refuses m.destination.ip then
    .refused ⟨.permissionDenied, "UDP destination is in a non-routable network"⟩ f
  else
    match f.associations.lookup m.source with
    | some a =>
      .opened { f with
        associations := f.associations.insert m.source ⟨a.peers.insert m.destination⟩ }
    | none => .waiting

/-- The rest of it; an authentication failure drops every association. -/
def finishOpening (f : DatagramTransceiver) (m : Downstream.UdpDatagramMeta) :
    HandshakeAnswer → DatagramTransceiver × Except IoError Unit
  | .connectError e => (f, .error e)
  | .handshake (.failure code) =>
    (f, .error (.other ("SOCKS server replied with error code: " ++ code.debug)))
  | .handshake (.error (.io e)) => (f, .error e)
  | .handshake (.error (.protocol text)) =>
    (f, .error (.other ("SOCKS protocol error: " ++ text)))
  | .handshake (.error (.authentication text)) =>
    ({ f with associations := ∅ }, .error (.other ("Authentication error: " ++ text)))
  | .handshake .connected =>
    match f.newSocket.trySend with
    | some newSocket =>
      ({ f with associations := f.associations.insert m.source ⟨[m.destination]⟩,
                newSocket := newSocket }, .ok ())
    | none =>
      ({ f with associations := f.associations.erase m.source },
        .error (.other "Source waker is unexpectedly closed"))

/-- `DatagramTransceiverShared::on_connection_closed`: `m` is reverse-oriented. -/
def onConnectionClosed (f : DatagramTransceiver) (m : UdpDatagramMeta) : DatagramTransceiver :=
  match f.associations.lookup m.destination with
  | none => f
  | some a =>
    if (a.without m.source).peers.isEmpty then
      { f with associations := f.associations.erase m.destination }
    else { f with associations := f.associations.insert m.destination (a.without m.source) }

/-- `DatagramSink::write` up to the call of `send_to`. -/
def write (f : DatagramTransceiver) (m : UdpDatagramMeta) : Except IoError SocketAddr :=
  if m.source ∈ f.associations then .ok m.destination else .error (.ofKind .notFound)

/-- `DatagramSource::on_socket_error`: reports name the peer as the source. -/
def onSocketError (f : DatagramTransceiver) (source : SocketAddr) (e : IoError) :
    DatagramTransceiver :=
  match f.associations.lookup source with
  | none => f
  | some a =>
    { f with associations := f.associations.erase source,
             pendingClosures :=
               f.pendingClosures ++ a.peers.map (fun peer => (⟨peer, source⟩, e)) }

/-- `DatagramSource::read` up to its suspension in `poll_events`. -/
def beginRead (f : DatagramTransceiver) :
    List (UdpDatagramMeta × IoError) × DatagramTransceiver :=
  (f.pendingClosures,
    { f with pendingClosures := [], polled := f.associations.keys, receiving := none })

/-- `DatagramSource::read` from a wake-up on; a readable socket suspends it again. -/
def onPollEvent (f : DatagramTransceiver) : PollEvent →
    Option (DatagramTransceiver × ReadProgress)
  | .woken =>
    if f.receiving.isSome then none
    else
      match f.newSocket with
      | .empty => none
      | .full => some ({ f with newSocket := .empty }, .again)
      | .closed => some (f, .failed (.ofKind .unexpectedEof))
  | .readable source =>
    if f.receiving = none ∧ source ∈ f.polled then
      if source ∈ f.associations then some ({ f with receiving := some source }, .pending)
      else some (f, .again)
    else none
  | .received r =>
    match f.receiving with
    | none => none
    | some source =>
      match r with
      | .ok (payload, peer) => some (f, .read ⟨⟨peer, source⟩, payload⟩)
      | .error e => some (onSocketError f source e.toIoError, .again)
  | .socketError source e =>
    if f.receiving = none ∧ source ∈ f.polled then some (onSocketError f source e, .again)
    else none

def datagramTransceiver (settings : Settings) :
    UdpForwarder DatagramTransceiver HandshakeAnswer PollEvent where
  empty := makeUdpDatagramMultiplexer
  onNewUdpConnection := onNewUdpConnection settings
  finishOpening := finishOpening
  onConnectionClosed := onConnectionClosed
  write := write
  afterSend := fun f _ => (f, .ok ())
  beginRead := beginRead
  onSource := onPollEvent

end TrustTunnel.Socks5Forwarder
