import TrustTunnel.AddrText
import TrustTunnel.Forwarder
import TrustTunnel.Http
import TrustTunnel.Socks5Client

/-!
# Where TCP connections go
(`http_downstream.rs`, `tcp_forwarder.rs`, `socks5_forwarder.rs`)

The destination is a socket address if the authority's whole text is one, and a host name
otherwise.
-/

namespace TrustTunnel

open Io NetUtils Forwarder Http Settings

inductive TcpDestination where
  | address (a : SocketAddr)
  | hostName (host : String) (port : UInt16)
  deriving DecidableEq

namespace Tunnel

inductive ConnectionError where
  | io (e : IoError)
  | authentication (text : String)
  | timeout
  | hostUnreachable
  | dnsNonroutable
  | dnsLoopback
  | other (text : String)
  deriving DecidableEq

end Tunnel

open Tunnel

namespace HttpDownstream

def plainHttpPortNumber : UInt16 := 80

inductive DestinationError where
  | authorityNotFound
  | unexpectedAuthorityPort
  deriving DecidableEq

/-- The text of the error; `debug` dumps a request. -/
def DestinationError.text (debug : RequestHeaders → String) (request : RequestHeaders) :
    DestinationError → String
  | .authorityNotFound => "Authority not found: " ++ debug request
  | .unexpectedAuthorityPort => "Unexpected authority port: request=" ++ debug (scrubRequest request)

/-- `TcpConnection::destination`. -/
def destination (request : RequestHeaders) : Except DestinationError TcpDestination :=
  match request.uri.authority with
  | none => .error .authorityNotFound
  | some authority =>
    match parseSocketAddr authority.asStr with
    | some a => .ok (.address a)
    | none =>
      if request.method = .connect then
        match authority.portU16 with
        | none => .error .unexpectedAuthorityPort
        | some port => .ok (.hostName authority.host port)
      else .ok (.hostName authority.host (authority.portU16.getD plainHttpPortNumber))

end HttpDownstream

/-! ## The direct connector -/

namespace TcpForwarder

inductive SelectionStatus where
  | loopback
  | nonRoutable
  | suitable (a : SocketAddr)

def select (allowPrivateNetwork ipv6Available : Bool) :
    Option SelectionStatus → List SocketAddr → Option SelectionStatus
  | status, [] => status
  | status, a :: resolved =>
    if a.ip.isIpv6 && !ipv6Available then select allowPrivateNetwork ipv6Available status resolved
    else if isGlobalIp a.ip || allowPrivateNetwork then some (.suitable a)
    else if status.isNone && a.ip.isLoopback then
      select allowPrivateNetwork ipv6Available (some .loopback) resolved
    else select allowPrivateNetwork ipv6Available (some .nonRoutable) resolved

/-- `io_to_connection_error`; 101 and 113 are `ENETUNREACH` and
`EHOSTUNREACH`. -/
def ioToConnectionError (e : IoError) : ConnectionError :=
  if e.kind = .os 101 ∨ e.kind = .os 113 then .hostUnreachable
  else if e.kind = .timedOut then .timeout
  else .io e

/-- The address `connect` connects to; `resolved` is what `lookup_host` answers. -/
def peer (settings : Settings) (allowPrivateNetworkField : Bool)
    (resolved : Except IoError (List SocketAddr)) :
    TcpDestination → Except ConnectionError SocketAddr
  | .address a =>
    if !(allowPrivateNetworkField || settings.allowPrivateNetworkConnections)
        && !isGlobalIp a.ip then
      if a.ip.isLoopback then .error .dnsLoopback else .error .dnsNonroutable
    else .ok a
  | .hostName _ _ =>
    match resolved with
    | .error e => .error (ioToConnectionError e)
    | .ok addresses =>
      match select (allowPrivateNetworkField || settings.allowPrivateNetworkConnections)
          settings.ipv6Available none addresses with
      | none => .error (ioToConnectionError (.other "Resolved to empty list"))
      | some .loopback => .error .dnsLoopback
      | some .nonRoutable => .error .dnsNonroutable
      | some (.suitable a) => .ok a

lemma select_suitable {ipv6Available : Bool} {status : Option SelectionStatus}
    {resolved : List SocketAddr} {a : SocketAddr} (hs : status ≠ some (.suitable a))
    (h : select false ipv6Available status resolved = some (.suitable a)) :
    a ∈ resolved ∧ isGlobalIp a.ip := by
  induction resolved generalizing status with
  | nil => exact absurd h hs
  | cons b resolved ih =>
    simp only [select, Bool.or_false] at h
    split at h
    · obtain ⟨hm, hg⟩ := ih hs h
      exact ⟨List.mem_cons_of_mem b hm, hg⟩
    · split at h
      · rename_i hg
        cases h
        exact ⟨List.mem_cons_self, hg⟩
      · split at h
        · obtain ⟨hm, hg⟩ := ih (by simp) h
          exact ⟨List.mem_cons_of_mem b hm, hg⟩
        · obtain ⟨hm, hg⟩ := ih (by simp) h
          exact ⟨List.mem_cons_of_mem b hm, hg⟩

lemma direct_connects_global {ipv6Available : Bool} {resolved : Except IoError (List SocketAddr)}
    {d : TcpDestination} {a : SocketAddr}
    (h : peer (.guarded ipv6Available) false resolved d = .ok a) :
    isGlobalIp a.ip ∧ (d = .address a ∨ ∃ host port addresses,
        d = .hostName host port ∧ resolved = .ok addresses ∧ a ∈ addresses) := by
  cases d with
  | address =>
    simp only [peer, guarded, Bool.or_self, Bool.not_false, Bool.true_and] at h
    split at h
    · split at h <;> cases h
    · rename_i hg
      cases h
      exact ⟨by simpa using hg, .inl rfl⟩
  | hostName host port =>
    simp only [peer, guarded, Bool.or_self] at h
    split at h
    · cases h
    · rename_i addresses
      split at h <;> cases h
      rename_i hs
      obtain ⟨hm, hg⟩ := select_suitable (by simp) hs
      exact ⟨hg, .inr ⟨host, port, addresses, rfl, rfl, hm⟩⟩

end TcpForwarder

/-! ## The SOCKS5 connector -/

namespace Socks5Forwarder

open Socks5Client

/-- Whether the server can be connected to, the converted credentials, and the server's part. -/
structure Attempt where
  server : Except IoError Server
  auth : Except String Unit

def toConnectionResult : ConnectResult → Except ConnectionError Unit
  | .connected => .ok ()
  | .failure .hostUnreachable | .failure .networkUnreachable => .error .hostUnreachable
  | .failure .connectionRefused => .error (.io (.ofKind .connectionRefused))
  | .failure .ttlExpired => .error .timeout
  | .failure code => .error (.other ("SOCKS server replied with error code: " ++ code.debug))
  | .error (.io e) => .error (.io e)
  | .error (.protocol text) => .error (.other ("SOCKS protocol error: " ++ text))
  | .error (.authentication text) => .error (.authentication text)

/-- `TcpConnector::connect`: the request written, and the result. -/
def connect (settings : Settings) (attempt : Attempt) (d : TcpDestination) :
    Option (Address × UInt16) × Except ConnectionError Unit :=
  match d with
  | .address a =>
    if settings.refuses a.ip then
      (none, .error (if a.ip.isLoopback then .dnsLoopback else .dnsNonroutable))
    else request attempt (.ipAddress a.ip) a.port
  -- no check here, also if the host is an IP literal
  | .hostName host port => request attempt (.domainName host) port
where
  /-- What follows the check. -/
  request (attempt : Attempt) (destination : Address) (port : UInt16) :
      Option (Address × UInt16) × Except ConnectionError Unit :=
    match attempt.server with
    | .error e => (none, .error (.io e))
    | .ok server =>
      match attempt.auth with
      | .error text => (none, .error (.other text))
      | .ok () =>
        ((connectInner server destination port).1,
          toConnectionResult (connectInner server destination port).2)

/-- The server is there and accepts the credentials. -/
def Attempt.getsToRequest (attempt : Attempt) : Bool :=
  match attempt.server, attempt.auth with
  | .ok server, .ok () => server.authentication.isOk
  | _, _ => false

lemma request_of_getsToRequest (h : attempt.getsToRequest)
    (destination : Address) (port : UInt16) :
    (connect.request attempt destination port).1 = match destination with
      | .ipAddress ip => some (.ipAddress ip, port)
      | .domainName name =>
        if name.utf8ByteSize ≤ maxDomainNameLength then some (.domainName name,
          port) else none := by
  obtain ⟨server, auth⟩ := attempt
  rcases server with e | ⟨authentication, reply⟩
  · cases h
  · rcases auth with text | _
    · cases h
    · rcases authentication with e | _
      · cases h
      · cases destination with
        | ipAddress => rfl
        | domainName =>
          simp only [connect.request, connectInner]
          split <;> rfl

lemma request_of_not_getsToRequest (h : attempt.getsToRequest = false)
    (destination : Address) (port : UInt16) :
    (connect.request attempt destination port).1 = none := by
  obtain ⟨server, auth⟩ := attempt
  rcases server with e | ⟨authentication, reply⟩
  · rfl
  · rcases auth with text | _
    · rfl
    · rcases authentication with e | _
      · rfl
      · cases h

def literal : Address → Option IpAddr
  | .ipAddress ip => some ip
  | .domainName name => ipLiteral name

end Socks5Forwarder

/-! ## The guard -/

section Guard

open HttpDownstream

/-- It connects only to global addresses. -/
def DirectGuarded (request : RequestHeaders) (ipv6Available : Bool)
    (resolved : Except IoError (List SocketAddr)) : Prop :=
  ∀ d a, destination request = .ok d →
    TcpForwarder.peer (.guarded ipv6Available) false resolved d = .ok a →
      isGlobalIp a.ip = true ∧
        (d = .address a ∨ ∃ host port addresses,
          d = .hostName host port ∧ resolved = .ok addresses ∧ a ∈ addresses)

def Socks5Guarded (request : RequestHeaders) (ipv6Available : Bool)
    (attempt : Socks5Forwarder.Attempt) : Prop :=
  ∀ d host port ip, destination request = .ok d →
    (Socks5Forwarder.connect (.guarded ipv6Available) attempt d).1 = some (host, port) →
      Socks5Forwarder.literal host = some ip → isGlobalIp ip = true

/-- The host is an IP literal that is not global, with no port or with a user name. -/
def UnguardedLiteral (request : RequestHeaders) : Prop :=
  ∃ authority ip, request.uri.authority = some authority ∧
    parseSocketAddr authority.asStr = none ∧
    (request.method = .connect → authority.portU16.isSome) ∧
    authority.host.utf8ByteSize ≤ Socks5Client.maxDomainNameLength ∧
    ipLiteral authority.host = some ip ∧ isGlobalIp ip = false

lemma destination_eq_hostName (h : destination request = .ok (.hostName host port)) :
    ∃ authority, request.uri.authority = some authority ∧ parseSocketAddr authority.asStr = none ∧
      (request.method = .connect → authority.portU16.isSome) ∧ authority.host = host := by
  unfold destination at h
  split at h
  · cases h
  · rename_i authority ha
    refine ⟨authority, ha, ?_⟩
    split at h
    · cases h
    · rename_i hp
      split at h
      · split at h
        · cases h
        · rename_i hpo
          cases h
          exact ⟨hp, fun _ => by simp [hpo], rfl⟩
      · rename_i hm
        cases h
        exact ⟨hp, fun hc => absurd hc hm, rfl⟩

lemma exists_destination_hostName (ha : request.uri.authority = some authority)
    (hp : parseSocketAddr authority.asStr = none)
    (hpo : request.method = .connect → authority.portU16.isSome) :
    ∃ port, destination request = .ok (.hostName authority.host port) := by
  unfold destination
  simp only [ha, hp]
  split
  · rename_i hc
    obtain ⟨port, hs⟩ := Option.isSome_iff_exists.mp (hpo hc)
    exact ⟨port, by simp [hs]⟩
  · exact ⟨_, rfl⟩

lemma socks5Guarded_iff (request : RequestHeaders) (ipv6Available : Bool)
    (attempt : Socks5Forwarder.Attempt) : Socks5Guarded request ipv6Available attempt ↔
      ¬ (UnguardedLiteral request ∧ attempt.getsToRequest) := by
  constructor
  · rintro hgu ⟨⟨authority, ip, ha, hp, hpo, hf, hl, hgl⟩, hg⟩
    obtain ⟨port, hd⟩ := exists_destination_hostName ha hp hpo
    have hr := Socks5Forwarder.request_of_getsToRequest hg (.domainName authority.host) port
    simp only [hf, if_true] at hr
    have := hgu _ _ _ ip hd hr hl
    rw [hgl] at this
    cases this
  · intro hc d host port ip hd hr hl
    cases hg : attempt.getsToRequest with
    | false =>
      cases d <;> simp only [Socks5Forwarder.connect] at hr
      · split at hr
        · cases hr
        · rw [Socks5Forwarder.request_of_not_getsToRequest hg] at hr
          cases hr
      · rw [Socks5Forwarder.request_of_not_getsToRequest hg] at hr
        cases hr
    | true =>
      cases d with
      | address =>
        simp only [Socks5Forwarder.connect] at hr
        split at hr
        · cases hr
        · rename_i hre
          rw [Socks5Forwarder.request_of_getsToRequest hg] at hr
          cases hr
          cases hl
          simpa [refuses, guarded] using hre
      | hostName =>
        simp only [Socks5Forwarder.connect] at hr
        rw [Socks5Forwarder.request_of_getsToRequest hg] at hr
        simp only at hr
        split at hr <;> cases hr
        rename_i hf
        obtain ⟨authority, ha, hp, hpo, rfl⟩ := destination_eq_hostName hd
        cases hgl : isGlobalIp ip with
        | true => rfl
        | false =>
          exact absurd ⟨⟨authority, ip, ha, hp, hpo, hf, hl, hgl⟩, hg⟩ hc

/-- **The TCP egress guard** is kept unless the authority hides an IP literal and the handshake
gets to its request. -/
theorem tcpEgress_iff (request : RequestHeaders) (ipv6Available : Bool)
    (resolved : Except IoError (List SocketAddr)) (attempt : Socks5Forwarder.Attempt) :
    DirectGuarded request ipv6Available resolved ∧ Socks5Guarded request ipv6Available attempt ↔
      ¬ (UnguardedLiteral request ∧ attempt.getsToRequest = true) := by
  rw [← socks5Guarded_iff]
  have hd : DirectGuarded request ipv6Available resolved :=
    fun _ _ _ h => TcpForwarder.direct_connects_global h
  exact ⟨fun h => h.2, fun h => ⟨hd, h⟩⟩

/-- `GET http://127.0.0.1/`. -/
def getLoopback : RequestHeaders :=
  { method := .get, version := .http11, headers := [],
    uri := .root { asStr := "127.0.0.1", host := "127.0.0.1", portU16 := none } }

def willing : Socks5Forwarder.Attempt :=
  { server := .ok ⟨.ok (), .connected⟩, auth := .ok () }

/-- The loopback address without a port. -/
theorem getLoopback_not_guarded :
    ¬ (DirectGuarded getLoopback true (.ok []) ∧ Socks5Guarded getLoopback true willing) := by
  rintro ⟨-, hg⟩
  have hp : parseSocketAddr "127.0.0.1" = none := by decide +kernel
  have hd : destination getLoopback = .ok (.hostName "127.0.0.1" 80) := by
    simp [destination, getLoopback, Uri.root, hp, plainHttpPortNumber]
  have hgl := hg _ (.domainName "127.0.0.1") 80 (.v4 ⟨127, 0, 0, 1⟩) hd
    (by decide +kernel) (by decide +kernel)
  exact absurd hgl (by decide)

end Guard

end TrustTunnel
