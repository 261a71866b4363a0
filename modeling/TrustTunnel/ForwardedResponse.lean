import TrustTunnel.ForwardedRequest

/-!
# Forwarded responses (`http_forwarded_stream.rs`)

`ForwardedStreamSink` converts the head of a response and passes the body on, unframed for HTTP/2
and HTTP/3. `fakeUnsent` marks an unsent rest that the client has not refused. `Httparse` and
`RespondCalls` are parameters.
-/

namespace TrustTunnel.HttpForwardedStream

open Io Http String
open Pipe (SinkCalls)
open Lib.Http1 (utf8 crlf)

/-! ## The parser (the `httparse` crate) -/

structure ParsedHeader where
  name : String
  value : Bytes
  deriving DecidableEq

structure ParsedResponse where
  code : Nat
  headers : List ParsedHeader
  deriving DecidableEq

inductive ResponseStatus where
  | complete (pos : Nat) (response : ParsedResponse)
  | needMore
  | tooManyHeaders
  | invalid (text : String)
  deriving DecidableEq

inductive ChunkSizeStatus where
  | complete (pos size : Nat)
  | needMore
  | invalid
  deriving DecidableEq

/-- `Response::parse`, with room for a number of headers, and
`parse_chunk_size`. -/
structure Httparse where
  parseResponse : Nat → Bytes → ResponseStatus
  parseChunkSize : Bytes → ChunkSizeStatus

/-! ## Texts -/

namespace Text

def isWhitespace (c : Char) : Bool :=
  (9 ≤ c.toNat && c.toNat ≤ 13) || (0x2000 ≤ c.toNat && c.toNat ≤ 0x200A)
    || [0x20, 0x85, 0xA0, 0x1680, 0x2028, 0x2029, 0x202F, 0x205F, 0x3000].contains c.toNat

def trimEnd (s : String) : String := ofList (s.toList.rdropWhile isWhitespace)

def trim (s : String) : String :=
  ofList ((s.toList.dropWhile isWhitespace).rdropWhile isWhitespace)

def toAsciiLowercase (s : String) : String := ofList (s.toList.map Char.toLower)

/-- `str::to_lowercase` where it gives ASCII: the Kelvin sign becomes `k`. -/
def toLowercase (s : String) : String :=
  ofList (s.toList.map (fun c => if c.toNat = 0x212A then 'k' else c.toLower))

def fromUtf8 (value : Bytes) : Option String := fromUTF8? ⟨value.toArray⟩

end Text

/-! ## The head -/

structure ResponseHeaders where
  version : Version
  status : Nat
  headers : List ParsedHeader
  deriving DecidableEq

structure Converting where
  headers : List ParsedHeader
  bodyLength : Option BodyLength
  dropHeaders : List String

/-- The headers a `Connection` header names. -/
def connectionOptions (value : Bytes) : List String :=
  match Text.fromUtf8 value with
  | none => []
  | some x =>
    ((x.splitOn ",").filter (fun x => x ≠ "close")).map
      (fun x => Text.toLowercase (Text.trim x))

def onResponseHeader (requestVersion : Version) (s : Converting) (h : ParsedHeader) :
    Except IoError Converting :=
  let name := Text.toAsciiLowercase h.name
  if name ∈ s.dropHeaders then .ok s
  else if name = "connection" then
    .ok { s with dropHeaders := s.dropHeaders ++ connectionOptions h.value }
  else if name = "transfer-encoding" ∧ (requestVersion = .http2 ∨ requestVersion = .http3) then
    .ok { s with
      bodyLength := if h.value = utf8 "chunked" then some .chunked else s.bodyLength
      dropHeaders := s.dropHeaders ++ ["content-length", "transfer-encoding"] }
  else
    let headers := s.headers ++ [⟨Text.trimEnd h.name, h.value⟩]
    if s.bodyLength = none ∧ name = "content-length" then
      match (Text.fromUtf8 h.value).bind parseU64 with
      | none => .error (.other "Invalid Content-Length header value: ")
      | some n => .ok { s with headers, bodyLength := some (.determined n) }
    else .ok { s with headers }

def onResponseHeaders (requestVersion : Version) :
    Converting → List ParsedHeader → Except IoError Converting
  | s, [] => .ok s
  | s, h :: headers =>
    match onResponseHeader requestVersion s h with
    | .error e => .error e
    | .ok s => onResponseHeaders requestVersion s headers

/-- A response the builder of the `http` crate accepts. -/
def ResponseHeaders.isValid (r : ResponseHeaders) : Bool :=
  (100 ≤ r.status && r.status ≤ 999)
    && r.headers.all (fun h => isToken h.name && isHeaderValue h.value)

def isBodiless (requestMethod : Method) (code : Nat) : Bool :=
  requestMethod = .head || (100 ≤ code && code < 200) || code = 204 || code = 304

/-- Dropped whether or not a `Connection` header names them. -/
def hopHeaders : List String := ["proxy-connection", "keep-alive", "upgrade"]

def convertResponse (requestMethod : Method) (requestVersion : Version)
    (response : ParsedResponse) : Except IoError (ResponseHeaders × Option BodyLength) :=
  match onResponseHeaders requestVersion ⟨[], none, hopHeaders⟩ response.headers with
  | .error e => .error e
  | .ok s =>
    let converted : ResponseHeaders := ⟨requestVersion, response.code, s.headers⟩
    if converted.isValid then
      .ok (converted,
        if isBodiless requestMethod response.code then some (.determined 0) else s.bodyLength)
    else .error (.other "Invalid response: ")

/-- Doubled up to `MAX_RESPONSE_HEADERS_NUM`. -/
def headersBufferSizes : List Nat := [32, 64, 128]

/-- The loop of `parse_response`. -/
def parseWithin (P : Httparse) (data : Bytes) : List Nat → ResponseStatus
  | [] => .tooManyHeaders
  | size :: sizes =>
    match P.parseResponse size data with
    | .tooManyHeaders => parseWithin P data sizes
    | status => status

/-! ## The sink -/

/-- The calls of `PendingRespond`, and of the sink it becomes. -/
structure RespondCalls (σ α : Type) extends SinkCalls σ α where
  sendIntermediateResponse : σ → ResponseHeaders → α → σ × Except IoError Unit
  sendResponse : σ → ResponseHeaders → Bool → α → σ × Except IoError Unit
  sendBadResponse : σ → Nat → α → σ × Except IoError Unit

inductive SinkState where
  | idle
  | waitingResponse (headersBuffer : Bytes) (requestMethod : Method) (requestVersion : Version)
  | transferringBodyNonEncoded (bodyLength : Option Nat) (sentBytes : Nat)
  | waitingChunkPrefix (buffer : Bytes)
  | transferringBodyChunked (remainingChunkSize : Nat)
  | waitingChunkSuffix (buffer : Bytes) (terminatingChunk : Bool)
  deriving DecidableEq

structure ForwardedStreamSink (σ : Type) where
  state : SinkState
  fakeUnsent : Bool
  client : σ

def badGateway : Nat := 502

/-- A failed `assert!` ends the task as an error does. -/
def assertionFailed : IoError := .other "assertion failed"

namespace ForwardedStreamSink

variable {σ α : Type} (C : RespondCalls σ α) (P : Httparse)

/-- `on_response_headers_chunk`, with the buffer of the state. -/
def onResponseHeadersChunk (s : ForwardedStreamSink σ) (headersBuffer : Bytes) (method : Method)
    (version : Version) (data : Bytes) (a : α) : ForwardedStreamSink σ × Except IoError Bytes :=
  let data := headersBuffer ++ data
  let waiting := { s with state := .waitingResponse [] method version }
  match parseWithin P data headersBufferSizes with
  | .needMore => ({ s with state := .waitingResponse data method version }, .ok [])
  | .tooManyHeaders =>
    (waiting, .error (.other "Failed to parse response: too many headers"))
  | .invalid text => (waiting, .error (.other ("Failed to parse response: " ++ text)))
  | .complete pos response =>
    match convertResponse method version response with
    | .error e => (waiting, .error e)
    | .ok (response, bodyLength) =>
      let tail := data.drop pos
      if 100 ≤ response.status ∧ response.status < 200 then
        match C.sendIntermediateResponse s.client response a with
        | (client, .error e) => ({ waiting with client }, .error e)
        -- `fake_unsent` is left as it was, also if there is a tail
        | (client, .ok _) => ({ waiting with client }, .ok tail)
      else
        match C.sendResponse s.client response (decide (bodyLength = some (.determined 0))) a with
        | (client, .error e) => ({ s with state := .idle, client }, .error e)
        | (client, .ok _) =>
          ({ client, fakeUnsent := !tail.isEmpty
             state := match bodyLength with
               | some .chunked => .waitingChunkPrefix []
               | some (.determined n) => .transferringBodyNonEncoded (some n) 0
               | none => .transferringBodyNonEncoded none 0 }, .ok tail)

def onNonEncodedChunk (s : ForwardedStreamSink σ) (bodyLength : Option Nat) (sentBytes : Nat)
    (data : Bytes) (a : α) : ForwardedStreamSink σ × Except IoError Bytes :=
  let send (toSend : Nat) : ForwardedStreamSink σ × Except IoError Bytes :=
    if toSend = 0 then (s, .ok data)
    else
      match C.write s.client (data.take toSend) a with
      | (client, .error e) => ({ s with client }, .error e)
      | (client, .ok unsent) =>
        let sentBytes := sentBytes + (data.length - unsent.length)
        let s := { s with client, state := .transferringBodyNonEncoded bodyLength sentBytes }
        let rest := data.drop (toSend - unsent.length)
        if some sentBytes = bodyLength then
          if unsent ≠ [] ∨ data.length ≠ toSend then (s, .error assertionFailed)
          else
            match C.eof s.client a with
            | (client, .error e) => ({ s with client }, .error e)
            | (client, .ok _) => ({ s with client }, .ok rest)
        else (s, .ok rest)
  match bodyLength with
  | none => send data.length
  | some n =>
    if n ≤ sentBytes then (s, .error (.ofKind .unexpectedEof))
    else send (min data.length (n - sentBytes))

def onEncodedChunkPrefix (s : ForwardedStreamSink σ) (buffer data : Bytes) :
    ForwardedStreamSink σ × Except IoError Bytes :=
  let data := buffer ++ data
  match P.parseChunkSize data with
  | .needMore => ({ s with state := .waitingChunkPrefix data }, .ok [])
  | .invalid =>
    ({ s with state := .waitingChunkPrefix [] }, .error (.other "Invalid encoded chunk size"))
  | .complete pos chunkSize =>
    let tail := data.drop pos
    ({ s with
       fakeUnsent := !tail.isEmpty
       state := if chunkSize = 0 then .waitingChunkSuffix [] true
         else .transferringBodyChunked chunkSize }, .ok tail)

/-- `on_encoded_chunk`; the state is put back when the chunk is complete. -/
def onEncodedChunk (s : ForwardedStreamSink σ) (remainingChunkSize : Nat) (data : Bytes) (a : α) :
    ForwardedStreamSink σ × Except IoError Bytes :=
  let toSend := min data.length remainingChunkSize
  match C.write s.client (data.take toSend) a with
  | (client, .error e) => ({ s with state := .idle, client }, .error e)
  | (client, .ok unsent) =>
    -- `to_send` counts as sent, whatever the client left of it
    ({ client, fakeUnsent := !data.isEmpty
       state := if remainingChunkSize - toSend > 0 then .idle
         else .waitingChunkSuffix [] false }, .ok (data.drop (toSend - unsent.length)))

def onEncodedChunkSuffix (s : ForwardedStreamSink σ) (buffer : Bytes) (terminatingChunk : Bool)
    (data : Bytes) (a : α) : ForwardedStreamSink σ × Except IoError Bytes :=
  let toRead := min data.length (crlf.length - buffer.length)
  let suffix := buffer ++ data.take toRead
  let data := data.drop toRead
  if ¬ suffix <+: crlf then
    ({ s with state := .idle }, .error (.other "Invalid encoded chunk suffix"))
  else if suffix.length < crlf.length then
    ({ s with state := .waitingChunkSuffix suffix terminatingChunk }, .ok data)
  else if terminatingChunk then
    match C.eof s.client a with
    | (client, .error e) => ({ s with state := .idle, client }, .error e)
    | (client, .ok _) => ({ s with state := .idle, client }, .ok [])
  else ({ s with state := .waitingChunkPrefix [] }, .ok data)

def write (s : ForwardedStreamSink σ) (data : Bytes) (a : α) :
    ForwardedStreamSink σ × Except IoError Bytes :=
  match s.state with
  | .idle => (s, .error (.other "Invalid state"))
  | .waitingResponse headersBuffer method version =>
    match onResponseHeadersChunk C P s headersBuffer method version data a with
    | (s, .error e) =>
      match s.state with
      | .waitingResponse _ _ _ =>
        ({ s with state := .idle, client := (C.sendBadResponse s.client badGateway a).1 },
          .error e)
      | _ => (s, .error e)
    | (s, .ok unsent) => (s, .ok unsent)
  | .transferringBodyNonEncoded bodyLength sentBytes =>
    onNonEncodedChunk C s bodyLength sentBytes data a
  | .waitingChunkPrefix buffer => onEncodedChunkPrefix P s buffer data
  | .transferringBodyChunked remainingChunkSize => onEncodedChunk C s remainingChunkSize data a
  | .waitingChunkSuffix buffer terminatingChunk =>
    onEncodedChunkSuffix C s buffer terminatingChunk data a

def eof (s : ForwardedStreamSink σ) (a : α) : ForwardedStreamSink σ × Except IoError Unit :=
  let (client, result) :=
    match s.state with
    | .idle => (s.client, .ok ())
    | .waitingResponse _ _ _ => C.sendBadResponse s.client badGateway a
    | _ => C.eof s.client a
  ({ s with state := .idle, client }, result)

def waitWritable (s : ForwardedStreamSink σ) (a : α) :
    ForwardedStreamSink σ × Except IoError Unit :=
  if s.fakeUnsent then ({ s with fakeUnsent := false }, .ok ())
  else
    match s.state with
    | .idle | .waitingResponse _ _ _ => (s, .error (.other "Invalid state"))
    | .waitingChunkPrefix _ | .waitingChunkSuffix _ _ => (s, .ok ())
    | .transferringBodyNonEncoded _ _ | .transferringBodyChunked _ =>
      let (client, result) := C.waitWritable s.client a
      ({ s with client }, result)

def flush (s : ForwardedStreamSink σ) (a : α) : ForwardedStreamSink σ × Except IoError Unit :=
  match s.state with
  | .idle | .waitingResponse _ _ _ => (s, .ok ())
  | _ =>
    let (client, result) := C.flush s.client a
    ({ s with client }, result)

def calls : SinkCalls (ForwardedStreamSink σ) α where
  write := write C P
  eof := eof C
  waitWritable := waitWritable C
  flush := flush C

/-- `into_forwarded`: the sink at its start. -/
def intoForwarded (method : Method) (version : Version) (client : σ) : ForwardedStreamSink σ :=
  ⟨.waitingResponse [] method version, false, client⟩

end ForwardedStreamSink

end TrustTunnel.HttpForwardedStream
