import TrustTunnel.ConnectionLog
import TrustTunnel.HttpDemultiplexer
import TrustTunnel.ReverseProxy

/-!
# What a request logs (`http_downstream.rs`, `tunnel.rs`, `reverse_proxy.rs`)

The downstream scrubs what it dumps; the reverse proxy, the refusal of a method and that of a
request without an authority do not. `secrets_unlogged_iff` says, of connections and of requests,
exactly when nothing of the secrets shows.
-/

namespace TrustTunnel.Log

open Http Authentication TlsDemultiplexer HttpDemultiplexer Tunnel Rules.RulesEngine List
open ReverseProxy (translateRequest)

/-- The proxy fails, sends a body of known size, or joins the two streams. -/
inductive Answer where
  | failed (e : String)
  | bodyFailed (remaining : Nat) (e : String)
  | body (remaining : Nat) (closed : Except String Unit)
  | piped
  deriving DecidableEq

inductive RequestVerdict where
  | refused (error : ConnectionError) (sent : Except String Unit)
  | undirected (error : HttpDownstream.DestinationError) (sent : Except String Unit)
  | unexpectedMethod (sent : Except String Unit)
  | promoted (next : NextState)
  | proxied (answer : Except String Answer)
  | handled (channel : Channel)
  deriving DecidableEq

structure Stream where
  id : String
  protocol : Protocol
  demux : HttpDemux
  h3BackwardCompatibility : Bool
  context : Context
  policy : AuthenticationPolicy
  sendBadResponse : RequestHeaders → Except String Unit
  sendOkResponse : Except String Unit
  connect : RequestHeaders → Except String Unit
  answer : RequestHeaders → Answer

variable (f : Formats) (stream : Stream) (request : RequestHeaders)

/-! ## The reverse proxy -/

def bodyLine (remaining : Nat) : Line :=
  logId .debug stream.id ("Reverse proxy fixed-size body: remaining=" ++ toString remaining
    ++ " bytes after initial send")

def answerLines : Answer → List Line
  | .failed e => [logId .debug stream.id ("Request failed: " ++ e)]
  | .bodyFailed remaining e =>
    [bodyLine stream remaining, logId .debug stream.id ("Request failed: " ++ e)]
  | .body remaining (.ok ()) =>
    [bodyLine stream remaining, logId .debug stream.id "Reverse proxy client stream closed"]
  | .body remaining (.error e) =>
    [bodyLine stream remaining, logId .debug stream.id ("Failed to close client stream: " ++ e)]
  | .piped => []

def translated : RequestHeaders :=
  translateRequest stream.protocol stream.h3BackwardCompatibility request

/-- `reverse_proxy::handle_stream`, with the line of its task. -/
def handleStream : Logged RequestVerdict :=
  say [logId .trace stream.id ("Received request: " ++ f.parts request)] <|
  match stream.connect request with
  | .error e => ([logId .debug stream.id ("Request failed: " ++ e)], .proxied (.error e))
  | .ok () =>
    say [logId .trace stream.id
      ("Sending translated request: " ++ f.parts (translated stream request))] <|
    (answerLines stream (stream.answer request), .proxied (.ok (stream.answer request)))

/-! ## The downstream -/

def failRequest : List Line :=
  match stream.sendBadResponse request with
  | .ok () => []
  | .error e => [logId .debug stream.id ("Failed to send bad response: " ++ e)]

/-- `ConnectionError::fmt` of an authentication error, and the line for other ones; the text of
`auth_info` ends with the scrubbed request. -/
def refusalText : ConnectionError → String
  | .authentication text => "Authentication error: " ++ text
  | .io e => "Failed to get auth info: " ++ e.text ++ f.parts (scrubRequest request)
  | _ => ""

/-- `on_tcp_connect_request`, without the forwarder's part. -/
def onTcpConnect : Logged RequestVerdict :=
  say [logId .trace stream.id "Handling TCP connect request",
    logId .trace stream.id "TCP connect: extracting destination"] <|
  match HttpDownstream.destination request with
  | .error e =>
    say [logId .debug stream.id
      ("Failed to get destination: IO error: " ++ e.text f.parts request)]
      (failRequest stream request, .undirected e (stream.sendBadResponse request))
  | .ok d =>
    ([logId .trace stream.id ("TCP connect: destination=" ++ f.destination d)],
      .promoted .tcpConnect)

/-- The task of an authenticated request. -/
def promoteRequest : Logged RequestVerdict :=
  match promoteToNextState request with
  | .unexpectedMethod =>
    say [logId .debug stream.id ("Unexpected request method: " ++ f.parts request)]
      (failRequest stream request ++ [logId .trace stream.id "Health check request completed"],
        .unexpectedMethod (stream.sendBadResponse request))
  | .tcpConnect => onTcpConnect f stream request
  | .healthCheck =>
    ([match stream.sendOkResponse with
      | .ok () => logId .trace stream.id "Health check request completed"
      | .error e => logId .debug stream.id ("Failed to complete request: " ++ e)],
      .promoted .healthCheck)
  | .datagramMultiplexer =>
    ([logId .trace stream.id "Handling datagram multiplexer request"],
      .promoted .datagramMultiplexer)

/-- The task `listen_inner` spawns for a request. -/
def promote : Logged RequestVerdict :=
  say [logId .trace stream.id "Processing tunnel request"] <|
  match forwarderAuth stream.context stream.policy request with
  | .error e =>
    say [logId .debug stream.id (refusalText f request e)]
      (failRequest stream request, .refused e (stream.sendBadResponse request))
  | .ok _ =>
    say [logId .trace stream.id "Authentication complete, promoting request"]
      (promoteRequest f stream request)

/-- One turn of `HttpDownstream::listen`; some handlers are left out. -/
def listen : Logged RequestVerdict :=
  let channel := stream.demux.select request
  say [logId .trace stream.id ("HTTP downstream received request: " ++ request.method.asStr ++ " "
        ++ f.uri request.uri),
      logId .debug stream.id ("Received request: " ++ f.parts (scrubRequest request)),
      logId .trace stream.id ("HTTP downstream routing to channel: " ++ debugChannel channel)] <|
  match channel with
  | .tunnel =>
    say [logId .trace stream.id "HTTP downstream: tunnel request"] (promote f stream request)
  | .ping => ([logId .trace stream.id "HTTP downstream: ping request"], .handled .ping)
  | .speedtest =>
    ([logId .trace stream.id "HTTP downstream: speedtest request"], .handled .speedtest)
  | .reverseProxy =>
    say [logId .trace stream.id "HTTP downstream: reverse proxy request"]
      (handleStream f stream request)
  | .subscription =>
    ([logId .trace stream.id "HTTP downstream: subscription request"], .handled .subscription)

/-- The downstream of a tunnel, or the reverse proxy. -/
inductive Handler where
  | downstream
  | reverseProxy

def serve : Handler → Logged RequestVerdict
  | .downstream => listen f stream request
  | .reverseProxy => handleStream f stream request

/-! ## Requests that are dumped whole -/

/-- Addressed to the tunnel with another method than `CONNECT`. -/
def UnexpectedMethod : Prop :=
  request.method ≠ .connect ∧ ∃ authority, request.uri.authority = some authority ∧
    authority.asStr ∈ [healthCheckAuthority, udpAuthority, icmpAuthority]

def Proxied : Handler → Prop
  | .reverseProxy => True
  | .downstream => stream.demux.select request = .reverseProxy

/-- Handed to the reverse proxy, or authenticated with an unexpected method or no authority. -/
def DumpedWhole (handler : Handler) : Prop :=
  Proxied stream request handler ∨
    stream.demux.select request = .tunnel ∧
      (∃ auth, forwarderAuth stream.context stream.policy request = .ok auth) ∧
      (UnexpectedMethod request ∨ request.uri.authority = none)

/-- The dumps are the same, also that of the translated request if it is sent. -/
def Alike (request' : RequestHeaders) (handler : Handler) : Prop :=
  f.parts request = f.parts request' ∧
    (Proxied stream request handler → stream.connect request = .ok () →
      f.parts (translated stream request) = f.parts (translated stream request'))

variable {f stream request}

lemma promoteToNextState_eq_unexpectedMethod :
    promoteToNextState request = .unexpectedMethod ↔ UnexpectedMethod request := by
  unfold promoteToNextState UnexpectedMethod
  cases request.uri.authority with
  | none => simp
  | some =>
    by_cases hc : request.method = .connect
    · simp only [hc, and_true]
      split
      · simp
      · split
        · simp
        · split
          · simp_all
          · simp
    · simp only [hc, and_false, ↓reduceIte, ne_eq, not_false_eq_true, true_and,
        Option.some.injEq, exists_eq_left', mem_cons, not_mem_nil, or_false]
      split <;> simp_all

section TwoRequests

variable {request' : RequestHeaders} (hdiffer : Differ request request')

include hdiffer

lemma promoteToNextState_eq_of_differ :
    promoteToNextState request = promoteToNextState request' := by
  unfold promoteToNextState
  rw [hdiffer.uri, hdiffer.method]

omit hdiffer in
lemma handleStream_lines_iff
    (hv : (handleStream f stream request).2 = (handleStream f stream request').2) :
    (handleStream f stream request).1 = (handleStream f stream request').1 ↔
      f.parts request = f.parts request' ∧ (stream.connect request = .ok () →
        f.parts (translated stream request) = f.parts (translated stream request')) := by
  simp only [handleStream, say, cons_append, nil_append, cons.injEq] at hv ⊢
  refine and_congr ⟨logId_append_inj, fun h => by rw [h]⟩ ?_
  cases hc : stream.connect request <;> cases hc' : stream.connect request' <;>
    simp only [hc, hc', RequestVerdict.proxied.injEq, Except.ok.injEq, Except.error.injEq,
      reduceCtorEq] at hv
  · simp [hv]
  · simp only [hv, cons.injEq, and_true, forall_const]
    exact ⟨logId_append_inj, fun h => by rw [h]⟩

omit hdiffer in
lemma failRequest_congr (h : stream.sendBadResponse request = stream.sendBadResponse request') :
    failRequest stream request = failRequest stream request' := by
  unfold failRequest
  rw [h]

lemma destination_eq_of_differ :
    HttpDownstream.destination request = HttpDownstream.destination request' := by
  unfold HttpDownstream.destination
  rw [hdiffer.uri, hdiffer.method]

omit hdiffer in
lemma authorityNotFound_iff :
    HttpDownstream.destination request = .error .authorityNotFound ↔
      request.uri.authority = none := by
  unfold HttpDownstream.destination
  split
  · simp_all
  · rename_i ha
    simp only [ha, reduceCtorEq, iff_false]
    split
    · simp
    · split
      · split <;> simp
      · simp

lemma text_eq_iff (e : HttpDownstream.DestinationError) :
    e.text f.parts request = e.text f.parts request' ↔
      e ≠ .authorityNotFound ∨ f.parts request = f.parts request' := by
  cases e with
  | authorityNotFound =>
    simp only [ne_eq, not_true_eq_false, false_or]
    exact String.append_right_inj "Authority not found: "
  | unexpectedAuthorityPort =>
    refine iff_of_true ?_ (.inl (by simp))
    exact congrArg (fun r => "Unexpected authority port: request=" ++ f.parts r)
      (scrubRequest_eq hdiffer)

lemma onTcpConnect_lines_iff
    (hv : (onTcpConnect f stream request).2 = (onTcpConnect f stream request').2) :
    (onTcpConnect f stream request).1 = (onTcpConnect f stream request').1 ↔
      request.uri.authority ≠ none ∨ f.parts request = f.parts request' := by
  rw [ne_eq, ← authorityNotFound_iff]
  simp only [onTcpConnect, say, ← destination_eq_of_differ hdiffer, append_cancel_left_eq] at hv ⊢
  cases hd : HttpDownstream.destination request with
  | ok => simp
  | error =>
    simp only [hd, RequestVerdict.undirected.injEq, true_and] at hv
    rw [Except.error.injEq, ← ne_eq, ← text_eq_iff hdiffer, failRequest_congr hv]
    constructor
    · intro h
      exact logId_append_inj (cons.inj h).1
    · intro h
      simp only [h]

omit hdiffer in
lemma not_unexpectedMethod (h : promoteToNextState request ≠ .unexpectedMethod) :
    ¬ UnexpectedMethod request :=
  mt promoteToNextState_eq_unexpectedMethod.mpr h

omit hdiffer in
lemma authority_of_promoted (h : promoteToNextState request ≠ .tcpConnect) :
    request.uri.authority ≠ none := by
  intro ha
  exact h (by rw [promoteToNextState, ha])

lemma promoteRequest_lines_iff
    (hv : (promoteRequest f stream request).2 = (promoteRequest f stream request').2) :
    (promoteRequest f stream request).1 = (promoteRequest f stream request').1 ↔
      ¬ (UnexpectedMethod request ∨ request.uri.authority = none) ∨
        f.parts request = f.parts request' := by
  simp only [promoteRequest, ← promoteToNextState_eq_of_differ hdiffer] at hv ⊢
  cases hn : promoteToNextState request with
  | unexpectedMethod =>
    simp only [hn, say, RequestVerdict.unexpectedMethod.injEq] at hv
    simp only [promoteToNextState_eq_unexpectedMethod.mp hn, true_or, not_true_eq_false, false_or,
      say, cons_append, nil_append, cons.injEq, failRequest_congr hv, and_true]
    exact ⟨logId_append_inj, fun h => by rw [h]⟩
  | tcpConnect =>
    simp only [hn] at hv
    rw [or_iff_right (not_unexpectedMethod (by rw [hn]; simp))]
    exact onTcpConnect_lines_iff hdiffer hv
  | healthCheck | datagramMultiplexer =>
    have hm := not_unexpectedMethod (show promoteToNextState request ≠ _ by rw [hn]; simp)
    simp [hm, authority_of_promoted (by rw [hn]; simp)]

omit hdiffer in
lemma promoteRequest_ne_refused :
    (promoteRequest f stream request).2 ≠ .refused e sent := by
  unfold promoteRequest
  split
  · simp [say]
  · unfold onTcpConnect
    split <;> simp [say]
  · simp
  · simp

/-- Only an unexpected method and a missing authority are told with the whole request. -/
lemma promote_lines_iff (hv : (promote f stream request).2 = (promote f stream request').2) :
    (promote f stream request).1 = (promote f stream request').1 ↔
      ¬ ((∃ auth, forwarderAuth stream.context stream.policy request = .ok auth) ∧
          (UnexpectedMethod request ∨ request.uri.authority = none)) ∨
        f.parts request = f.parts request' := by
  simp only [promote, say, append_cancel_left_eq] at hv ⊢
  cases ha : forwarderAuth stream.context stream.policy request <;>
    cases ha' : forwarderAuth stream.context stream.policy request' <;>
      simp only [ha, ha'] at hv
  case error.error e e' =>
    obtain ⟨rfl, hs⟩ := RequestVerdict.refused.inj hv
    have ht : refusalText f request e = refusalText f request' e := by
      unfold refusalText
      rw [scrubRequest_eq hdiffer]
    simp [failRequest_congr hs, ht]
  case error.ok => exact (promoteRequest_ne_refused hv.symm).elim
  case ok.error => exact (promoteRequest_ne_refused hv).elim
  case ok.ok =>
    simp only [append_cancel_left_eq, Except.ok.injEq, exists_eq', true_and]
    exact promoteRequest_lines_iff hdiffer hv

/-- Secrets do not show unless the request is dumped whole and they differ there. -/
lemma request_lines_iff (hv : (serve f stream request ha).2 = (serve f stream request' ha).2) :
    (serve f stream request ha).1 = (serve f stream request' ha).1 ↔
      ¬ DumpedWhole stream request ha ∨ Alike f stream request request' ha := by
  cases ha with
  | reverseProxy =>
    simp only [serve] at hv
    simp only [serve, DumpedWhole, Alike, Proxied, true_or, not_true_eq_false, false_or,
      forall_const]
    exact handleStream_lines_iff hv
  | downstream =>
    have hs := stream.demux.select_eq_of_uri request hdiffer.uri
    simp only [serve, listen, say, ← hs, ← hdiffer.method, ← hdiffer.uri,
      ← scrubRequest_eq hdiffer, append_cancel_left_eq] at hv ⊢
    cases hc : stream.demux.select request with
    | reverseProxy =>
      simp only [hc] at hv
      simp only [DumpedWhole, Alike, Proxied, hc, true_or, not_true_eq_false, false_or,
        append_cancel_left_eq, forall_const]
      exact handleStream_lines_iff hv
    | tunnel =>
      simp only [hc] at hv
      simp only [DumpedWhole, Alike, Proxied, hc, reduceCtorEq, true_and, false_or, false_implies,
        and_true, append_cancel_left_eq]
      exact promote_lines_iff hdiffer hv
    | ping | speedtest | subscription => simp [DumpedWhole, Proxied, hc]

end TwoRequests

/-! ## Connections and requests -/

def quoted : Formats where
  ip _ := "192.0.2.1"
  uri uri := uri.path
  str s := "\"" ++ s ++ "\""
  destination _ := "vpn.example:80"
  parts request := toString (request.headers.map Header.value)

lemma quoted_injective : Function.Injective quoted.str := by
  intro s t h
  exact (String.append_right_inj _).mp ((String.append_left_inj _).mp h)

/-- An endpoint for `vpn.example`, with its rules. -/
def endpoint (rules : List Rules.Rule) : Setup where
  rulesEngine := some ⟨rules⟩
  demux := .new ⟨true, true, false, false⟩ ⟨[⟨"vpn.example", "cert.pem", "key.pem", []⟩], [], [], []⟩
  context := ⟨none⟩
  limiter := none

def laptop : Client where
  clientId := "CLIENT=1"
  tunnelId := "CLIENT=1/TUN=1"
  peer := .v4 ⟨192, 0, 2, 1⟩ 50000
  clientRandom := none
  accept _ := .ok "TlsStream"
  makeCodec _ := .ok ()
  listen _ := .ok ()

/-- It hands `/site` to the reverse proxy. -/
def openStream : Stream where
  id := "CLIENT=1/TUN=1/CONN=1"
  protocol := .http1
  demux := ⟨false, none, false, none, some "/site", none⟩
  h3BackwardCompatibility := false
  context := ⟨none⟩
  policy := .default
  sendBadResponse _ := .ok ()
  sendOkResponse := .ok ()
  connect _ := .ok ()
  answer _ := .piped

def getWith (uri : Uri) (cookie : Header) : RequestHeaders := ⟨.get, uri, .http11, [cookie]⟩

def site : Uri := { authority := none, pathAndQuery := some "/site", path := "/site" }
def pages : Uri := { authority := none, pathAndQuery := some "/pages", path := "/pages" }
def origin : Uri := .root { asStr := "example.org", host := "example.org", portU16 := none }
def udp : Uri := .root { asStr := "_udp2", host := "_udp2", portU16 := none }

def aliceCookie : Header := { name := "cookie", value := Lib.Http1.utf8 "session=alice" }
def bobCookie : Header := { name := "cookie", value := Lib.Http1.utf8 "session=bob" }

lemma cookies_differ (uri : Uri) : Differ (getWith uri aliceCookie) (getWith uri bobCookie) :=
  ⟨rfl, rfl, rfl, .cons ⟨rfl, .inl (by decide)⟩ .nil⟩

/-- A client with this label, at an endpoint with these rules. -/
def ofLabel (rules : List Rules.Rule) (label : String) : Logged Verdict :=
  connect quoted keyless (endpoint rules) laptop (.tls []) (labelled label "vpn.example")

def ofCookie (uri : Uri) (cookie : Header) : Logged RequestVerdict :=
  serve quoted openStream (getWith uri cookie) .downstream

end TrustTunnel.Log
