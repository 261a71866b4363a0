import TrustTunnel.Http
import TrustTunnel.Lib.Items
import TrustTunnel.Lib.Table

/-!
# The HTTP/3 codec

`http3_codec.rs` and what it listens to in `quic_multiplexer.rs`: a loop over events and messages,
while other tasks use and drop the halves of streams, each with a channel for one message.
-/

namespace TrustTunnel.Http3Codec

open Io Http Lib

/-! ## The socket -/

/-- `quiche::Shutdown`. -/
inductive Direction where
  | read
  | write
  deriving DecidableEq

inductive QuicSocketEvent where
  | request (streamId : Nat) (request : RequestHeaders)
  | readable (streamId : Nat)
  | writable (streams : List Nat)
  | close (streamId : Nat)

/-- What `poll_h3_connection` returns. -/
inductive Poll where
  | headers (streamId : Nat) (list : List (Bytes × Bytes))
  | data (streamId : Nat)
  | finished (streamId : Nat)
  | reset (streamId code : Nat)
  | priorityUpdate
  | goAway
  | done
  | error (text : String)

/-- A part of a target that was set in a `uri::Builder`. -/
inductive UriPart where
  | scheme (value : Bytes)
  | authority (value : Bytes)
  | pathAndQuery (value : Bytes)

/-- A part of a request that was set in a `request::Builder`. -/
inductive RequestPart where
  | method (value : Bytes)
  | header (name : String) (value : Bytes)

/-- What is taken from `http`: the builders, and `HeaderName::from_lowercase`. -/
structure Builders where
  fromLowercase : Bytes → Option String
  uri : List UriPart → Except String Uri
  request : Version → List RequestPart → Uri → Except String RequestHeaders

def hexDump (buf : Bytes) : String :=
  buf.foldl (fun str b =>
    str ++ String.ofList [Nat.digitChar (b.toNat / 16), Nat.digitChar (b.toNat % 16)]) ""

def requestParts (x : Builders) (headers : List (Bytes × Bytes)) :
    Except IoError (List RequestPart × List UriPart) :=
  headers.foldlM (fun (parts : List RequestPart × List UriPart) h =>
    if h.1 = Http1.utf8 ":method" then .ok (parts.1 ++ [.method h.2], parts.2)
    else if h.1 = Http1.utf8 ":scheme" then .ok (parts.1, parts.2 ++ [.scheme h.2])
    else if h.1 = Http1.utf8 ":authority" then .ok (parts.1, parts.2 ++ [.authority h.2])
    else if h.1 = Http1.utf8 ":path" then .ok (parts.1, parts.2 ++ [.pathAndQuery h.2])
    else
      match x.fromLowercase h.1 with
      | some name => .ok (parts.1 ++ [.header name h.2], parts.2)
      | none => .error ⟨.invalidData, "Unexpected header name: 0x" ++ hexDump h.1⟩) ([], [])

/-- `QuicSocket::on_request`. -/
def requestOf (x : Builders) (headers : List (Bytes × Bytes)) : Except IoError RequestHeaders := do
  let (requestParts, uriParts) ← requestParts x headers
  let uri ← (x.uri uriParts).mapError (fun e => ⟨.invalidData, "Invalid URI: " ++ e⟩)
  (x.request .http3 requestParts uri).mapError (fun e => ⟨.other, "Invalid request: " ++ e⟩)

/-- What `listen` ends with: because of one stream, or of the connection. -/
inductive Failure where
  | stream (streamId : Nat) (error : IoError)
  | connection (error : IoError)

def processPendingH3Events (x : Builders) (poll : Poll) :
    Except Failure (Option QuicSocketEvent) :=
  match poll with
  | .headers streamId list =>
    match requestOf x list with
    | .ok request => .ok (some (.request streamId request))
    -- the response with the status 400 has been sent
    | .error e => .error (.stream streamId e)
  | .data streamId => .ok (some (.readable streamId))
  | .finished streamId | .reset streamId _ => .ok (some (.close streamId))
  | .priorityUpdate => .ok none
  | .goAway => .error (.connection ⟨.unexpectedEof, "Received GOAWAY"⟩)
  | .done => .ok none
  | .error text => .error (.connection (.other text))

/-! ## The codec -/

inductive StreamMessage where
  | waitingWritable (streamId : Nat)
  | shutdown (streamId : Nat) (direction : Option Direction)

def StreamMessage.streamId : StreamMessage → Nat
  | waitingWritable streamId => streamId
  | shutdown streamId _ => streamId

/-- `Stream`: the numbers of its channels, and which directions are shut down. -/
structure Stream where
  readableEventTx : Nat
  writableEventTx : Nat
  readShutdown : Bool
  writeShutdown : Bool

/-- A half is held by a task, `drop` has been called, or it is gone. -/
inductive Status where
  | held
  | dropping
  | dropped
  deriving DecidableEq

/-- A `StreamSource` or a `StreamSink`, and whether a message is in its channel. -/
structure Half where
  streamId : Nat
  direction : Direction
  queued : Bool
  status : Status

structure State where
  streams : Table Nat Stream
  halves : Table Nat Half
  nextHalf : Nat
  /-- What is in `stream_rx`. -/
  messages : List StreamMessage
  /-- `QuicSocket.waiting_writable_streams`. -/
  waitingWritable : List Nat
  /-- The calls of `shutdown_stream` by the codec. -/
  shutdowns : List (Nat × Direction)

def init : State := ⟨∅, ∅, 0, [], [], []⟩

inductive TrySendError where
  | full
  | closed

/-- `Sender::try_send` into the channel with this number. -/
def trySend (s : State) (half : Nat) : Except TrySendError State :=
  match s.halves.lookup half with
  | none => .error .closed
  | some h =>
    if h.status = .dropped then .error .closed
    else if h.queued then .error .full
    else .ok { s with halves := s.halves.insert half { h with queued := true } }

/-- `http3_data_frame_overhead(1) + 1`. -/
def minUsableQuicStreamCapacity : Nat := 3

def notifyStreamWaitingWritable (s : State) (streamId : Nat) : State :=
  if streamId ∈ s.waitingWritable then s
  else { s with waitingWritable := s.waitingWritable ++ [streamId] }

def onStreamShutdown (s : State) (streamId : Nat) (direction : Option Direction) :
    Except IoError State :=
  match s.streams.lookup streamId with
  | none => .error (.ofKind .notFound)
  | some stream =>
    let (closeRead, closeWrite) := match direction with
      | some .read => (true, false)
      | some .write => (false, true)
      | none => (true, true)
    let readCalls := if closeRead && !stream.readShutdown then [(streamId, Direction.read)] else []
    let writeCalls :=
      if closeWrite && !stream.writeShutdown then [(streamId, Direction.write)] else []
    let stream := { stream with
      readShutdown := stream.readShutdown || closeRead
      writeShutdown := stream.writeShutdown || closeWrite }
    .ok { s with
      shutdowns := s.shutdowns ++ readCalls ++ writeCalls
      streams :=
        if stream.readShutdown && stream.writeShutdown then s.streams.erase streamId
        else s.streams.insert streamId stream }

def onStreamMessage (s : State) (message : StreamMessage) : Except IoError State :=
  match message with
  | .waitingWritable streamId => .ok (notifyStreamWaitingWritable s streamId)
  | .shutdown streamId direction => onStreamShutdown s streamId direction

def onRequest (s : State) (streamId : Nat) : State :=
  { s with
    streams := s.streams.insert streamId ⟨s.nextHalf, s.nextHalf + 1, false, false⟩
    halves := (s.halves.insert s.nextHalf ⟨streamId, .read, false, .held⟩).insert (s.nextHalf + 1)
      ⟨streamId, .write, false, .held⟩
    nextHalf := s.nextHalf + 2 }

def onStreamReadable (s : State) (streamId : Nat) : Except IoError State :=
  match s.streams.lookup streamId with
  | none => .error (.ofKind .notFound)
  | some stream =>
    match trySend s stream.readableEventTx with
    | .ok s => .ok s
    | .error .full => .ok s
    | .error .closed => .error (.other "Failed to send stream readable event: channel closed")

/-- One turn of the loop in `notify_writable_streams`; errors are only logged. -/
def notifyWritableStream (capacity : Nat → Option Nat) (s : State) (streamId : Nat) : State :=
  match s.streams.lookup streamId, capacity streamId with
  | none, _ => s
  | some _, none => s
  | some stream, some cap =>
    if cap < minUsableQuicStreamCapacity then notifyStreamWaitingWritable s streamId
    else
      match trySend s stream.writableEventTx with
      | .ok s => s
      | .error _ => s

def onSocketEvent (capacity : Nat → Option Nat) (s : State) (event : QuicSocketEvent) :
    Except Failure State :=
  match event with
  | .request streamId _ => .ok (onRequest s streamId)
  | .readable streamId => (onStreamReadable s streamId).mapError (.stream streamId)
  | .writable streams => .ok (streams.foldl (notifyWritableStream capacity) s)
  | .close streamId =>
    match onStreamShutdown s streamId (some .read) with
    | .ok s => .ok s
    | .error _ => .ok s

/-- A turn of both `listen` loops; `capacity` is what `stream_capacity` returns, `closed` what
`is_closed`. -/
def onPoll (x : Builders) (poll : Poll) (capacity : Nat → Option Nat) (closed : Bool) (s : State) :
    Except Failure State := do
  let eof := Failure.connection (.ofKind .unexpectedEof)
  match ← processPendingH3Events x poll with
  | some event => if closed then .error eof else onSocketEvent capacity s event
  | none =>
    let writable := s.waitingWritable.filter
      (fun id => (capacity id).all (fun cap => minUsableQuicStreamCapacity ≤ cap))
    let s := { s with waitingWritable := s.waitingWritable.filter (fun id => id ∉ writable) }
    if writable.isEmpty then .ok s
    else if closed then .error eof
    else onSocketEvent capacity s (.writable writable)

def onMessage (s : State) (message : StreamMessage) : State :=
  match onStreamMessage s message with
  | .ok s => s
  | .error _ =>
    match onStreamShutdown s message.streamId none with
    | .ok s => s
    | .error _ => s

/-! ## Events -/

inductive Event where
  /-- `QuicSocket::listen` polls the connection. -/
  | poll (poll : Poll) (capacity : Nat → Option Nat) (closed : Bool)
  /-- `MultiplexerMessage::Close` is received. -/
  | closeMessage (closed : Bool)
  /-- The channel from the multiplexer is closed. -/
  | muxGone
  /-- The codec receives the next message of a stream. -/
  | message
  /-- `drop` is called on a half: a message is sent. -/
  | drop (half : Nat)
  /-- The half is gone with its receiver. -/
  | gone (half : Nat)
  /-- A half takes the message out of its channel. -/
  | received (half : Nat)
  /-- `wait_writable` or `flush` of a sink. -/
  | waitWritable (half : Nat)
  /-- The response of a sink is sent, and it was the end. -/
  | respondedEof (half : Nat)

def withHalf (s : State) (half : Nat) (status : Status) (f : Half → Option State) : Option State :=
  (s.halves.lookup half).bind (fun h => if h.status = status then f h else none)

def send (s : State) (message : StreamMessage) : State :=
  { s with messages := s.messages ++ [message] }

inductive Codec where
  | listening (s : State)
  | ended (failure : Failure)

def Codec.of : Except Failure State → Codec
  | .ok s => .listening s
  | .error failure => .ended failure

def onEvent (x : Builders) (s : State) (event : Event) : Option Codec :=
  match event with
  | .poll poll capacity closed => some (.of (onPoll x poll capacity closed s))
  | .closeMessage closed =>
    some (if closed then .ended (.connection (.ofKind .unexpectedEof)) else .listening s)
  | .muxGone => some (.ended (.connection (.ofKind .unexpectedEof)))
  | .message =>
    match s.messages with
    | [] => none
    | message :: messages =>
      -- the branch is there only if there are streams
      if s.streams.entries = [] then none
      else some (.listening (onMessage { s with messages := messages } message))
  | .drop half => (withHalf s half .held (fun h =>
      some (send { s with halves := s.halves.insert half { h with status := .dropping } }
        (.shutdown h.streamId (some h.direction))))).map .listening
  | .gone half => (withHalf s half .dropping (fun h =>
      some { s with halves := s.halves.insert half { h with status := .dropped } })).map .listening
  | .received half => (withHalf s half .held (fun h =>
      if h.queued then some { s with halves := s.halves.insert half { h with queued := false } }
      else none)).map .listening
  | .waitWritable half => (withHalf s half .held (fun h =>
      if h.direction = .write then some (send s (.waitingWritable h.streamId)) else none)).map
        .listening
  | .respondedEof half => (withHalf s half .held (fun h =>
      if h.direction = .write then some (send s (.shutdown h.streamId none)) else none)).map .listening

def step (x : Builders) (c : Codec) (event : Event) : Option Codec :=
  match c with
  | .listening s => onEvent x s event
  | .ended _ => none

end TrustTunnel.Http3Codec
