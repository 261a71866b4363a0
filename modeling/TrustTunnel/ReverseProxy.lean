import Mathlib.Data.List.Infix
import TrustTunnel.ConnectionLimiter
import TrustTunnel.ForwardedResponse
import TrustTunnel.Lib.Buffered
import TrustTunnel.Text

/-!
# The reverse proxy (`reverse_proxy.rs`, `http1_codec.rs`)

`handle_stream` sends a request to the server as HTTP/1 and passes the response on, as a state
machine (`Phase`, `Event`). `Httparse` and `ClientCalls` are parameters; of the `DuplexPipe` what
it passes on is kept.
-/

namespace TrustTunnel.ReverseProxy

open Io Http Lib
open Pipe (Data)
open Lib.Http1 (utf8 crlf)
open HttpForwardedStream (ParsedHeader ResponseHeaders Httparse parseU64 fieldLine)
open HttpForwardedStream (Text.fromUtf8 Text.trim Text.toAsciiLowercase Text.isWhitespace)

def h3BufferedBodyLimit : Nat := 2 * 1024 * 1024

/-! ## The request -/

def asStr : Protocol → String
  | .http1 => "HTTP1"
  | .http2 => "HTTP2"
  | .http3 => "HTTP3"

/-- `ORIGINAL_PROTOCOL_HEADER`, with its value. -/
def originalProtocol (protocol : Protocol) : Header where
  name := "x-original-protocol"
  value := utf8 (asStr protocol)
  valid := by cases protocol <;> decide +kernel

def translateRequest (protocol : Protocol) (h3BackwardCompatibility : Bool)
    (request : RequestHeaders) : RequestHeaders :=
  let translated : RequestHeaders :=
    match protocol with
    | .http1 => request
    | .http2 => { request with version := .http11 }
    | .http3 =>
      { request with
        version := .http11
        method := if h3BackwardCompatibility ∧ request.method = .get ∧ request.uri.path = "/" then
            .connect else request.method }
  { translated with headers := insertHeader (originalProtocol protocol) translated.headers }

def versionMinorDigit : Version → Nat
  | .http10 => 0
  | _ => 1

def requestTarget (request : RequestHeaders) : String := request.uri.pathAndQuery.getD "/"

def requestLine (request : RequestHeaders) : Bytes :=
  utf8 request.method.asStr ++ utf8 " " ++ utf8 (requestTarget request) ++ utf8 " HTTP/1."
    ++ utf8 (toString (versionMinorDigit request.version))

def fieldLines (request : RequestHeaders) : List Bytes :=
  (request.uri.authority.map (fun host => fieldLine "Host" (utf8 host.asStr))).toList
    ++ request.headers.map (fun h => fieldLine h.name h.value)

def encodeRequest (request : RequestHeaders) : Bytes :=
  requestLine request ++ crlf ++ ((fieldLines request).flatMap (fun l => l ++ crlf) ++ crlf)

/-! ## The head of the response -/

def maxHeadersNum : Nat := 32
def maxRawHeadersSize : Nat := 1024

inductive DecodeStatus where
  | incomplete (buffer : Bytes)
  | complete (response : ResponseHeaders) (tail : Bytes)

/-- `http1_codec::decode_response`, with the caller's version and names in lower case. -/
def decodeResponse (P : Httparse) (version : Version) (buffer : Bytes) :
    Except IoError DecodeStatus :=
  match P.parseResponse maxHeadersNum buffer with
  | .complete idx response =>
    let converted : ResponseHeaders :=
      ⟨version, response.code, response.headers.map (fun h => ⟨Text.toAsciiLowercase h.name, h.value⟩)⟩
    if converted.isValid then .ok (.complete converted (buffer.drop idx))
    else .error (.other "Invalid response: ")
  | .needMore =>
    if buffer.length < maxRawHeadersSize then .ok (.incomplete buffer)
    else .error (.other "Too long HTTP response headers")
  | .tooManyHeaders => .error (.other "too many headers")
  | .invalid text => .error (.other text)

/-- `HeaderMap::get`. -/
def getHeader (name : String) (headers : List ParsedHeader) : Option Bytes :=
  (headers.find? (fun h => h.name == name)).map ParsedHeader.value

def getText (name : String) (headers : List ParsedHeader) : Option String :=
  (getHeader name headers).bind Authentication.toStr

def isChunked (headers : List ParsedHeader) : Bool :=
  (getText "transfer-encoding" headers).any
    (fun v => decide ("chunked".toList <:+: (Text.toAsciiLowercase v).toList))

def hopByHop : List String :=
  ["connection", "transfer-encoding", "upgrade", "te", "trailer", "keep-alive", "proxy-connection"]

def stripResponse (protocol : Protocol) (response : ResponseHeaders) : ResponseHeaders :=
  if protocol = .http1 then response
  else { response with headers := response.headers.filter (fun h => h.name ∉ hopByHop) }

def contentLength (headers : List ParsedHeader) : Option Nat :=
  (getText "content-length" headers).bind parseU64

/-- `insert` of the length of a body that was buffered. -/
def withContentLength (n : Nat) (response : ResponseHeaders) : ResponseHeaders :=
  { response with headers := response.headers.filter (fun h => h.name ≠ "content-length")
      ++ [⟨"content-length", utf8 (toString n)⟩] }

/-- The response of `send_bad_gateway`. -/
def badGateway (version : Version) : ResponseHeaders := ⟨version, 502, []⟩

/-! ## Chunk sizes -/

/-- `char::to_digit(16)`. -/
def toDigit16 (c : Char) : Option Nat :=
  if '0' ≤ c ∧ c ≤ '9' then some (c.toNat - 48)
  else if 'a' ≤ c ∧ c ≤ 'f' then some (c.toNat - 87)
  else if 'A' ≤ c ∧ c ≤ 'F' then some (c.toNat - 55)
  else none

/-- The digits read so far are `n`. -/
def readDigit16 (n : Nat) (c : Char) : Option Nat :=
  (toDigit16 c).bind (fun d => if n * 16 + d < 2 ^ 64 then some (n * 16 + d) else none)

/-- `usize::from_str_radix(s, 16)`; a sign may come first. -/
def fromStrRadix16 (s : String) : Option Nat :=
  let digits := if s.toList.head? = some '+' then s.toList.tail else s.toList
  if digits = [] then none else digits.foldlM readDigit16 0

def chunkSize (line : Bytes) : Except IoError Nat :=
  match (Text.fromUtf8 line).bind (fun line => fromStrRadix16 (Text.trim (Text.firstPart ';' line))) with
  | some n => .ok n
  | none => .error (.ofKind .invalidData)

/-! ## Chunked bodies -/

/-- `send_response`, and `write_all` and `eof` of the sink. -/
structure ClientCalls (σ : Type) where
  sendResponse : σ → ResponseHeaders → Bool → σ × Except IoError Unit
  writeAll : σ → Bytes → σ × Except IoError Unit
  eof : σ → σ × Except IoError Unit

/-- A size line or data is read next, or what ends the body. -/
inductive Stage where
  | line
  | data (chunkSize : Nat)
  | last
  | failed (e : IoError)

/-- A failed `split_to` or an overflow ends the task. -/
def panicked : IoError := .ofKind .panicked

/-- If `chunk_size + 2` overflows, it or `split_to` panics. -/
def Stage.ofLine (line : Bytes) : Stage :=
  match chunkSize line with
  | .error e => .failed e
  | .ok n =>
    if n = 0 then .last
    else if n + 2 < 2 ^ 64 then .data n
    else .failed panicked

/-- The variables of the loop; the response is taken out when sent. -/
structure Decoder (σ : Type) where
  stage : Stage
  bufferedBody : Bytes
  response : Option ResponseHeaders
  client : σ

section

variable {σ : Type} (C : ClientCalls σ)

def sendWith (client : σ) (response : ResponseHeaders) (body : Bytes) : σ × Except IoError Unit :=
  match C.sendResponse client response false with
  | (client, .error e) => (client, .error e)
  | (client, .ok _) => C.writeAll client body

def Decoder.onData (d : Decoder σ) (data : Bytes) : Decoder σ :=
  match d.response with
  | some response =>
    let body := d.bufferedBody ++ data
    if body.length > h3BufferedBodyLimit then
      match sendWith C d.client response body with
      | (client, .error e) => ⟨.failed e, [], none, client⟩
      | (client, .ok _) => ⟨.line, [], none, client⟩
    else { d with stage := .line, bufferedBody := body }
  | none =>
    match C.writeAll d.client data with
    | (client, .error e) => { d with stage := .failed e, client }
    | (client, .ok _) => { d with stage := .line, client }

/-- One turn of the loop; the two bytes after the data are not looked at. -/
def Decoder.step (d : Decoder σ) (buffer : Bytes) : Option (Decoder σ × Bytes) :=
  match d.stage with
  | .line =>
    (Lib.Http1.takeLine buffer).map (fun x => ({ d with stage := Stage.ofLine x.1 }, x.2))
  | .data n =>
    if buffer.length < n + 2 then none
    else some (d.onData C (buffer.take n), buffer.drop (n + 2))
  | .last | .failed _ => none

def Decoder.finish (d : Decoder σ) : σ × Except IoError Unit :=
  match d.response with
  | some response =>
    match sendWith C d.client (withContentLength d.bufferedBody.length response) d.bufferedBody with
    | (client, .error e) => (client, .error e)
    | (client, .ok _) => C.eof client
  | none => C.eof d.client

end

/-! ## The future -/

/-- `piping` has the directions that are not finished. -/
inductive Phase (σ : Type) where
  | connecting
  | sendingRequest
  | waitingResponse (buffer : Bytes)
  | buffering (response : ResponseHeaders) (body : Bytes) (remaining : Nat)
  | decoding (decoder : Decoder σ) (buffer : Bytes)
  | skippingTrailers (decoder : Decoder σ) (buffer : Bytes)
  | fixedSize (remaining : Nat)
  | piping (upload download : Bool)
  | returned (result : Except IoError Unit)

/-- `unsent` is what is left of the client's body. -/
structure Stream (σ : Type) where
  phase : Phase σ
  client : σ
  written : Bytes
  unsent : Bytes

/-- Outcomes of `connect`, of the writes and of the server's `read`, and what the client's body
brings. -/
inductive Event where
  | connected (r : Except IoError Unit)
  | requestSent (r : Except IoError Unit)
  | upstream (data : Except IoError Data)
  | body (n : Nat) (r : Except IoError Unit)
  | bodyEnd (r : Except IoError Unit)
  | bodyFailed (e : IoError)
  | timeout

namespace Stream

variable {σ : Type} (C : ClientCalls σ)

def new (client : σ) (body : Bytes) : Stream σ := ⟨.connecting, client, [], body⟩

def finish (s : Stream σ) (x : σ × Except IoError Unit) : Stream σ :=
  { s with phase := .returned x.2, client := x.1 }

def skipTrailers (s : Stream σ) (d : Decoder σ) (buffer : Bytes) : Stream σ :=
  if crlf ++ crlf <:+: buffer then s.finish (d.finish C)
  else { s with phase := .skippingTrailers d buffer, client := d.client }

def onDecoded (s : Stream σ) (d : Decoder σ) (buffer : Bytes) : Stream σ :=
  match d.stage with
  | .line | .data _ => { s with phase := .decoding d buffer, client := d.client }
  | .failed e => s.finish (d.client, .error e)
  | .last =>
    -- if there are no trailers, the body ends with a single line end
    if crlf <+: buffer then s.finish (d.finish C) else s.skipTrailers C d buffer

/-- The loop over the chunks, up to its next `read`. -/
def decode (s : Stream σ) (d : Decoder σ) (buffer : Bytes) : Stream σ :=
  let x := Buffered.read (Decoder.step C) d buffer
  s.onDecoded C x.1 x.2

def buffer (s : Stream σ) (response : ResponseHeaders) (body : Bytes) (remaining : Nat) : Stream σ :=
  if remaining > 0 then { s with phase := .buffering response body remaining }
  else
    match sendWith C s.client response body with
    | (client, .error e) => s.finish (client, .error e)
    | (client, .ok _) => s.finish (C.eof client)

/-- The loop of the fixed-size body; whether `eof` fails is only logged. -/
def passOn (s : Stream σ) (remaining : Nat) : Stream σ :=
  if remaining > 0 then { s with phase := .fixedSize remaining }
  else s.finish ((C.eof s.client).1, .ok ())

def onResponse (protocol : Protocol) (s : Stream σ) (head : ResponseHeaders) (chunk : Bytes) :
    Stream σ :=
  let response := stripResponse protocol head
  let length := contentLength response.headers
  if protocol = .http3 ∧ length.any (fun n => n ≤ h3BufferedBodyLimit) then
    s.buffer C response chunk (length.getD 0 - chunk.length)
  else if isChunked head.headers ∧ protocol ≠ .http1 then
    s.decode C ⟨.line, [], some response, s.client⟩ chunk
  else
    match sendWith C s.client response chunk with
    | (client, .error e) => s.finish (client, .error e)
    | (client, .ok _) =>
      match length with
      | some n =>
        if chunk.length ≤ n then passOn C { s with client } (n - chunk.length)
        else { s with phase := .piping true true, client }
      | none => { s with phase := .piping true true, client }

def failPipe (s : Stream σ) (e : IoError) : Stream σ :=
  { s with phase := .returned (if e.kind = .unexpectedEof then .ok () else .error e) }

def settlePipe (s : Stream σ) (upload download : Bool) : Stream σ :=
  if upload ∨ download then { s with phase := .piping upload download }
  else { s with phase := .returned (.ok ()) }

def onUpstreamEof (version : Version) (s : Stream σ) : Option (Stream σ) :=
  match s.phase with
  | .waitingResponse _ => some (s.finish (C.sendResponse s.client (badGateway version) true))
  | .buffering _ _ _ | .decoding _ _ =>
    some { s with phase := .returned (.error (.ofKind .unexpectedEof)) }
  | .skippingTrailers d _ => some (s.finish (d.finish C))
  | .fixedSize _ => some (s.passOn C 0)
  | .piping upload true =>
    match C.eof s.client with
    | (client, .error e) => some ({ s with client }.failPipe e)
    | (client, .ok _) => some ({ s with client }.settlePipe upload false)
  | _ => none

def readHead (P : Httparse) (protocol : Protocol) (version : Version) (s : Stream σ)
    (buffer : Bytes) : Stream σ :=
  match decodeResponse P version buffer with
  | .error e => s.finish (s.client, .error e)
  | .ok (.incomplete buffer) => { s with phase := .waitingResponse buffer }
  | .ok (.complete head tail) => s.onResponse C protocol head tail

def onUpstreamChunk (P : Httparse) (protocol : Protocol) (version : Version) (s : Stream σ)
    (chunk : Bytes) : Option (Stream σ) :=
  match s.phase with
  | .waitingResponse buffer => some (s.readHead C P protocol version (buffer ++ chunk))
  | .buffering response body remaining =>
    let toTake := min chunk.length remaining
    some (s.buffer C response (body ++ chunk.take toTake) (remaining - toTake))
  | .decoding d buffer => some (s.decode C d (buffer ++ chunk))
  | .skippingTrailers d buffer => some (s.skipTrailers C d (buffer ++ chunk))
  | .fixedSize remaining =>
    let toSend := min chunk.length remaining
    match C.writeAll s.client (chunk.take toSend) with
    | (client, .error e) => some (s.finish (client, .error e))
    | (client, .ok _) => some (passOn C { s with client } (remaining - toSend))
  | .piping _ true =>
    match C.writeAll s.client chunk with
    | (client, .error e) => some ({ s with client }.failPipe e)
    | (client, .ok _) => some { s with client }
  | _ => none

/-- `handle_stream`, event by event; `none` when it does not wait for one. -/
def step (P : Httparse) (protocol : Protocol) (h3BackwardCompatibility : Bool)
    (request : RequestHeaders) (s : Stream σ) : Event → Option (Stream σ)
  | .connected r =>
    match s.phase, r with
    | .connecting, .ok _ => some { s with phase := .sendingRequest }
    | .connecting, .error e => some { s with phase := .returned (.error e) }
    | _, _ => none
  | .requestSent r =>
    match s.phase, r with
    | .sendingRequest, .ok _ =>
      some { s with phase := .waitingResponse [], written :=
        encodeRequest (translateRequest protocol h3BackwardCompatibility request) }
    | .sendingRequest, .error e => some { s with phase := .returned (.error e) }
    | _, _ => none
  | .upstream (.ok (.chunk chunk)) => s.onUpstreamChunk C P protocol request.version chunk
  | .upstream (.ok .eof) => s.onUpstreamEof C request.version
  | .upstream (.error e) =>
    match s.phase with
    | .connecting | .sendingRequest | .returned _ | .piping _ false => none
    | .piping _ true => some (s.failPipe e)
    | _ => some { s with phase := .returned (.error e) }
  | .body n r =>
    match s.phase, r with
    | .piping true _, .ok _ =>
      if 0 < n ∧ n ≤ s.unsent.length then
        some { s with written := s.written ++ s.unsent.take n, unsent := s.unsent.drop n }
      else none
    | .piping true _, .error e => some (s.failPipe e)
    | _, _ => none
  | .bodyEnd r =>
    match s.phase, r with
    | .piping true download, .ok _ =>
      if s.unsent = [] then some (s.settlePipe false download) else none
    | .piping true _, .error e => some (s.failPipe e)
    | _, _ => none
  | .bodyFailed e =>
    match s.phase with
    | .piping true _ => some (s.failPipe e)
    | _ => none
  | .timeout =>
    match s.phase with
    | .piping _ _ => some { s with phase := .returned (.error (.ofKind .timedOut)) }
    | _ => none

end Stream

end TrustTunnel.ReverseProxy
