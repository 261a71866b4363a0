import TrustTunnel.Lib.Table
import TrustTunnel.RetryToken

/-!
# The QUIC multiplexer

Connections of one UDP socket by id, with deadlines. A read gives many packets, and then deadlines
are set by the connection the first packet of an id went to.
-/

namespace TrustTunnel.QuicMultiplexer

open Io NetUtils Lib

/-! ## The multiplexer -/

inductive Connection where
  | handshake (quicConn : Nat)
  | established (quicConn : Nat)
  deriving DecidableEq

def Connection.quicConn : Connection → Nat
  | handshake quicConn => quicConn
  | established quicConn => quicConn

structure Multiplexer where
  connections : Table Bytes Connection
  deadlines : Table Bytes Nat
  closestDeadline : Option Nat
  /-- The number of the next `quiche::Connection`. -/
  nextQuicConn : Nat

def init : Multiplexer := ⟨∅, ∅, none, 0⟩

/-- `deadlines.values().min()`. -/
def minDeadline (deadlines : Table Bytes Nat) : Option Nat :=
  (deadlines.entries.map (fun entry => entry.2)).min?

def updateConnectionDeadline (m : Multiplexer) (connId : Bytes) (now duration : Nat) : Multiplexer :=
  let deadlines := m.deadlines.insert connId (now + duration)
  { m with deadlines := deadlines, closestDeadline := minDeadline deadlines }

/-- What the clock and `timeout` of a connection say when it is looked at. -/
structure Reading where
  now : Nat
  timeout : Option Nat

def setDeadline (readings : Nat → Reading) (m : Multiplexer) (connId : Bytes) (quicConn : Nat) :
    Multiplexer :=
  match (readings quicConn).timeout with
  | some timeout => updateConnectionDeadline m connId (readings quicConn).now timeout
  | none => m

/-- One turn of the loop in `process_timeouts`. -/
def onTimeout (readings : Nat → Reading) (m : Multiplexer) (connId : Bytes) : Multiplexer :=
  let m := { m with deadlines := m.deadlines.erase connId }
  match m.connections.lookup connId with
  | none => m
  | some conn => setDeadline readings m connId conn.quicConn

def timedout (m : Multiplexer) (now : Nat) : List Bytes :=
  Table.keysWhere m.deadlines (fun deadline => deadline ≤ now)

def processTimeouts (m : Multiplexer) (now : Nat) (readings : Nat → Reading) : Multiplexer :=
  let m := (timedout m now).foldl (onTimeout readings) m
  { m with closestDeadline := minDeadline m.deadlines }

/-! ## Packets -/

/-- What `quiche` answers for the connection that a packet goes to. -/
structure Answer where
  /-- The configuration is made, and the connection accepted. -/
  accept : Bool
  recv : Bool
  isClosed : Bool
  isDraining : Bool
  /-- `is_established` or `is_in_early_data`. -/
  isEstablished : Bool
  withTransport : Bool

structure Packet where
  peer : SocketAddr
  header : Header
  answer : Answer

inductive HandshakeStatus where
  | inProgress
  | complete

/-- `proceed_handshake`; nothing where it fails. -/
def proceedHandshake (answer : Answer) : Option HandshakeStatus :=
  if !answer.recv then none
  else if answer.isClosed then none
  else if answer.isDraining then some .inProgress
  else if !answer.isEstablished then some .inProgress
  else some .complete

/-- `finalize_established_connection`; nothing if no HTTP/3 session is opened. -/
def finalizeEstablishedConnection (m : Multiplexer) (connId : Bytes) (quicConn : Nat)
    (answer : Answer) : Option Multiplexer :=
  if answer.withTransport then
    some { m with connections := m.connections.insert connId (.established quicConn) }
  else none

/-- It becomes a socket, or stays in the background. -/
inductive Handled where
  | socket (quicConn : Nat)
  | background (quicConn : Nat)

/-- `on_new_connection`; nothing where no connection is made. -/
def onNewConnection (tokenPrefix : TokenPrefix) (m : Multiplexer) (packet : Packet) :
    Option (Multiplexer × Handled) :=
  match originalConnectionId tokenPrefix packet.peer packet.header with
  | .error _ => none
  | .ok _ =>
    if !packet.answer.accept || !packet.answer.recv then none
    else
      let quicConn := m.nextQuicConn
      let m := { m with nextQuicConn := quicConn + 1 }
      if packet.answer.isEstablished then
        match finalizeEstablishedConnection m packet.header.dcid quicConn packet.answer with
        | some m => some (m, .socket quicConn)
        | none => some (m, .background quicConn)
      else
        some ({ m with connections := m.connections.insert packet.header.dcid (.handshake quicConn) },
          .background quicConn)

/-- `on_quic_packet`; nothing where the packet is dropped. -/
def onQuicPacket (x : Network) (tokenPrefix : TokenPrefix) (m : Multiplexer) (packet : Packet) :
    Option (Multiplexer × Handled) :=
  let connId := packet.header.dcid
  match m.connections.lookup connId with
  | none =>
    match onUnknownQuicPacket x tokenPrefix packet.peer packet.header with
    | .ok (.process, _) => onNewConnection tokenPrefix m packet
    | .ok (.skip, _) => none
    | .error _ => none
  | some (.handshake quicConn) =>
    match proceedHandshake packet.answer with
    | some .complete =>
      let m := { m with
        deadlines := m.deadlines.erase connId, connections := m.connections.erase connId }
      match finalizeEstablishedConnection m connId quicConn packet.answer with
      | some m => some (m, .socket quicConn)
      | none => some (m, .background quicConn)
    | some .inProgress | none => some (m, .background quicConn)
  | some (.established quicConn) => some (m, .background quicConn)

structure Batch where
  mux : Multiplexer
  /-- The connection that the first packet under an id went to. -/
  pending : Table Bytes Nat

/-- `pending.entry(connId).or_insert_with(..)`. -/
def Batch.note (b : Batch) (mux : Multiplexer) (connId : Bytes) (quicConn : Nat) : Batch where
  mux := mux
  pending := if connId ∈ b.pending then b.pending else b.pending.insert connId quicConn

/-- The loop of `read_udp_socket`, which is left with a socket. -/
def readPackets (x : Network) (tokenPrefix : TokenPrefix) : Batch → List Packet → Batch
  | b, [] => b
  | b, packet :: packets =>
    match onQuicPacket x tokenPrefix b.mux packet with
    | none => readPackets x tokenPrefix b packets
    | some (mux, .socket quicConn) => b.note mux packet.header.dcid quicConn
    | some (mux, .background quicConn) =>
      readPackets x tokenPrefix (b.note mux packet.header.dcid quicConn) packets

def readBudget : Nat := 1024

def readBatch (x : Network) (tokenPrefix : TokenPrefix) (m : Multiplexer) (packets : List Packet) :
    Batch :=
  readPackets x tokenPrefix ⟨m, ∅⟩ (packets.take readBudget)

def readUdpSocket (x : Network) (tokenPrefix : TokenPrefix) (m : Multiplexer) (packets : List Packet)
    (readings : Nat → Reading) : Multiplexer :=
  let b := readBatch x tokenPrefix m packets
  b.pending.entries.foldl (fun m entry => setDeadline readings m entry.1 entry.2) b.mux

/-! ## The loop -/

inductive SocketMessage where
  | close (connId : Bytes)
  | refreshDeadline (connId : Bytes)

def onSocketMessage (m : Multiplexer) (message : SocketMessage) (readings : Nat → Reading) :
    Multiplexer :=
  match message with
  | .close connId => { m with connections := m.connections.erase connId }
  | .refreshDeadline connId =>
    match m.connections.lookup connId with
    | none => m
    | some conn =>
      match (readings conn.quicConn).timeout with
      | some timeout => updateConnectionDeadline m connId (readings conn.quicConn).now timeout
      | none =>
        if connId ∈ m.deadlines then
          let deadlines := m.deadlines.erase connId
          { m with deadlines := deadlines, closestDeadline := minDeadline deadlines }
        else m

def removeClosedConnections (m : Multiplexer) (isClosed : Nat → Bool) : Multiplexer :=
  let closed := Table.keysWhere m.connections (fun conn => isClosed conn.quicConn)
  { m with
    deadlines := Table.eraseAll m.deadlines closed, connections := Table.eraseAll m.connections closed }

/-- What a turn of `listen` is made of.  An error of the socket ends it. -/
inductive Event where
  | timeouts (now : Nat) (readings : Nat → Reading)
  | udpRead (packets : List Packet) (readings : Nat → Reading)
  | message (message : SocketMessage) (readings : Nat → Reading)
  | removeClosed (isClosed : Nat → Bool)

def step (x : Network) (tokenPrefix : TokenPrefix) (m : Multiplexer) (event : Event) :
    Option Multiplexer :=
  some (match event with
    | .timeouts now readings => processTimeouts m now readings
    | .udpRead packets readings => readUdpSocket x tokenPrefix m packets readings
    | .message message readings => onSocketMessage m message readings
    | .removeClosed isClosed => removeClosedConnections m isClosed)

end TrustTunnel.QuicMultiplexer
