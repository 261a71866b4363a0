import TrustTunnel.ConnectionLimiter
import TrustTunnel.Lib.Runs
import TrustTunnel.TcpEgress

/-!
# Tunnels and the authentication of their requests (`core.rs`, `tunnel.rs`)

Tunnels open, receive requests and end; each request has a task, which may run later. They share
the limiter. A task hands over the credentials that were decided on (`promote_auth`).
-/

namespace TrustTunnel.Tunnel

open Io NetUtils Http Lib Authentication List

inductive AuthenticationPolicy where
  | default
  | authenticated (source : Source)

/-- `core::Context`: the authenticator that is configured. -/
structure Context where
  authenticator : Option RegistryBasedAuthenticator

/-! ## What a promoted request becomes -/

def healthCheckAuthority : String := "_check"
def udpAuthority : String := "_udp2"
def icmpAuthority : String := "_icmp"

/-- What `PendingRequest::promote_to_next_state` makes of a request. -/
inductive NextState where
  | healthCheck
  | tcpConnect
  | datagramMultiplexer
  | unexpectedMethod
  deriving DecidableEq

def promoteToNextState (request : RequestHeaders) : NextState :=
  match request.uri.authority with
  | none => .tcpConnect
  | some authority =>
    if authority.asStr = healthCheckAuthority ∧ request.method = .connect then .healthCheck
    else if (authority.asStr = udpAuthority ∨ authority.asStr = icmpAuthority)
        ∧ request.method = .connect then .datagramMultiplexer
    else if authority.asStr = healthCheckAuthority ∨ authority.asStr = udpAuthority
        ∨ authority.asStr = icmpAuthority then .unexpectedMethod
    else .tcpConnect

structure TcpConnectionMeta where
  clientAddress : IpAddr
  destination : TcpDestination
  auth : Option Source
  tlsDomain : String
  userAgent : Option String
  deriving DecidableEq

structure UdpMultiplexerMeta where
  clientAddress : IpAddr
  auth : Option Source
  tlsDomain : String
  userAgent : Option String
  deriving DecidableEq

inductive ForwarderCall where
  | connect (request : TcpConnectionMeta)
  | checkAuth (clientAddress : IpAddr) (tlsDomain : String) (auth : Source)
      (userAgent : Option String)
  | makeUdpDatagramMultiplexer (request : UdpMultiplexerMeta)
  | makeIcmpDatagramMultiplexer
  deriving DecidableEq

/-- The client's address, the check of the credentials, whether the response was sent, and the dump
of a request. -/
structure Answers where
  clientAddress : Except IoError IpAddr
  checkAuth : Except ConnectionError Unit
  sendOkResponse : Except IoError Unit
  debug : RequestHeaders → String

def userAgent (request : RequestHeaders) : Option String :=
  (getHeader "user-agent" request).bind toStr

/-- `on_tcp_connect_request`, up to the forwarder's answer. -/
def onTcpConnectRequest (answers : Answers) (tlsDomain : String) (request : RequestHeaders)
    (forwarderAuth : Option Source) : List ForwarderCall × Option (String × ConnectionError) :=
  match HttpDownstream.destination request with
  | .error e => ([], some ("Failed to get destination", .io (.other (e.text answers.debug request))))
  | .ok destination =>
    match answers.clientAddress with
    | .error e => ([], some ("Failed to get client address", .io e))
    | .ok clientAddress =>
      ([.connect ⟨clientAddress, destination, forwarderAuth, tlsDomain, userAgent request⟩], none)

/-- `on_datagram_mux_request`, up to the forwarder's answer. -/
def onDatagramMuxRequest (answers : Answers) (tlsDomain : String) (request : RequestHeaders)
    (forwarderAuth : Option Source) : List ForwarderCall × Option (String × ConnectionError) :=
  match answers.clientAddress with
  | .error e => ([], some ("Failed to get client address", .io e))
  | .ok clientAddress =>
    let check := forwarderAuth.toList.map
      (fun auth => .checkAuth clientAddress tlsDomain auth (userAgent request))
    match forwarderAuth, answers.checkAuth, answers.sendOkResponse with
    | some _, .error e, _ => (check, some ("Failed to authenticate", e))
    | _, _, .error e =>
      (check, some ("Failed to respond for datagram multiplexer request", .io e))
    | _, _, .ok () =>
      if request.uri.authority.map Authority.asStr = some udpAuthority then
        (check ++ [.makeUdpDatagramMultiplexer
          ⟨clientAddress, forwarderAuth, tlsDomain, userAgent request⟩], none)
      else (check ++ [.makeIcmpDatagramMultiplexer], none)

def ForwarderCall.auth : ForwarderCall → Option (Option Source)
  | .connect request => some request.auth
  | .checkAuth _ _ auth _ => some (some auth)
  | .makeUdpDatagramMultiplexer request => some request.auth
  | .makeIcmpDatagramMultiplexer => none

lemma onTcpConnectRequest_auth
    (hc : call ∈ (onTcpConnectRequest answers tlsDomain request forwarderAuth).1)
    (ha : call.auth = some auth) : auth = forwarderAuth := by
  unfold onTcpConnectRequest at hc
  split at hc
  · cases hc
  · split at hc
    · cases hc
    · cases mem_singleton.mp hc
      exact (Option.some.inj ha).symm

lemma onDatagramMuxRequest_auth
    (hc : call ∈ (onDatagramMuxRequest answers tlsDomain request forwarderAuth).1)
    (ha : call.auth = some auth) : auth = forwarderAuth := by
  have hch : ∀ clientAddress : IpAddr, call ∈ forwarderAuth.toList.map (fun auth =>
        ForwarderCall.checkAuth clientAddress tlsDomain auth (userAgent request)) →
      auth = forwarderAuth := by
    intro clientAddress h
    obtain ⟨source, hs, rfl⟩ := mem_map.mp h
    rw [Option.mem_toList] at hs
    rw [← Option.some.inj ha]
    exact hs.symm
  unfold onDatagramMuxRequest at hc
  split at hc
  · cases hc
  · simp only at hc
    split at hc
    · exact hch _ hc
    · exact hch _ hc
    · split at hc
      · rcases mem_append.mp hc with h | h
        · exact hch _ h
        · cases mem_singleton.mp h
          exact (Option.some.inj ha).symm
      · rcases mem_append.mp hc with h | h
        · exact hch _ h
        · cases mem_singleton.mp h
          cases ha

/-! ## The decision -/

/-- The match of `listen_inner`. -/
def forwarderAuth (context : Context) (policy : AuthenticationPolicy) (request : RequestHeaders) :
    Except ConnectionError (Option Source) :=
  match authInfo request, policy, context.authenticator with
  | .ok (some source), _, some authenticator =>
    match authenticator.authenticate source with
    | .pass => .ok (some source)
    | .reject => .error (.authentication "Authentication failed")
  | .ok none, .authenticated x, some _ => .ok (some x)
  | .ok x, .default, none => .ok x
  | .ok x, .authenticated y, none => .ok (x.or (some y))
  | .ok none, .default, some _ =>
    .error (.authentication
      "Got request without authentication info on non-authenticated connection")
  | .error e, _, _ => .error (.io e)

end TrustTunnel.Tunnel

namespace TrustTunnel

open Io Http Lib Authentication Tunnel

structure Tunnel where
  protocol : Protocol
  tlsDomain : String
  authenticationPolicy : AuthenticationPolicy
  connectionGuard : Option ConnectionGuard

namespace Core

/-- `on_tunnel_request` up to `listen`; nothing if the connection is dropped. -/
def onTunnelRequest (context : Context) (limiter : Option ConnectionLimiter) (protocol : Protocol)
    (serverName : String) (sniAuthCreds : Option String) :
    Option (Tunnel × Option ConnectionLimiter) :=
  match context.authenticator, sniAuthCreds with
  | some authenticator, some creds =>
    match authenticator.authenticate (.sni creds) with
    | .reject => none
    | .pass =>
      match limiter with
      | none => some (⟨protocol, serverName, .authenticated (.sni creds), none⟩, none)
      | some l => (l.tryAcquire creds protocol).map fun x =>
          (⟨protocol, serverName, .authenticated (.sni creds), some x.1⟩, some x.2)
  | _, _ => some (⟨protocol, serverName, .default, none⟩, limiter)

/-- The first request with good credentials takes the tunnel's slot, if one is left. -/
def acquireSlot (context : Context) (limiter : Option ConnectionLimiter) (t : Tunnel)
    (request : RequestHeaders) : Option (Tunnel × Option ConnectionLimiter) :=
  match t.connectionGuard, limiter, authInfo request, context.authenticator with
  | none, some l, .ok (some source), some authenticator =>
    match authenticator.authenticate source with
    | .pass => (l.tryAcquire source.creds t.protocol).map fun x =>
        ({ t with connectionGuard := some x.1 }, some x.2)
    | .reject => some (t, limiter)
  | _, _, _, _ => some (t, limiter)

structure Task where
  tunnel : Nat
  tlsDomain : String
  authenticationPolicy : AuthenticationPolicy
  request : RequestHeaders

structure Promotion where
  tunnel : Nat
  request : RequestHeaders
  nextState : NextState
  forwarderAuth : Option Source
  calls : List ForwarderCall
  failure : Option (String × ConnectionError)
  deriving DecidableEq

/-- The limiter, SNI credentials, tunnels, waiting tasks, and what became of requests. -/
structure Endpoint where
  limiter : Option ConnectionLimiter
  opened : Table Nat (Option String)
  tunnels : Table Nat Tunnel
  tasks : List Task
  promoted : List Promotion
  failed : List (Nat × ConnectionError)

def Endpoint.start (limiter : Option ConnectionLimiter) : Endpoint :=
  { limiter, opened := ∅, tunnels := ∅, tasks := [], promoted := [], failed := [] }

/-- `closed` is any end of `listen`. -/
inductive Event where
  | opening (id : Nat) (protocol : Protocol) (serverName : String) (sniAuthCreds : Option String)
  | request (id : Nat) (request : RequestHeaders)
  | closed (id : Nat)
  | handled (index : Nat) (answers : Answers)

def promote (answers : Answers) (task : Task) (auth : Option Source) : Promotion :=
  let nextState := promoteToNextState task.request
  let (calls, failure) :=
    match nextState with
    | .healthCheck | .unexpectedMethod => ([], none)
    | .tcpConnect => onTcpConnectRequest answers task.tlsDomain task.request auth
    | .datagramMultiplexer => onDatagramMuxRequest answers task.tlsDomain task.request auth
  ⟨task.tunnel, task.request, nextState, auth, calls, failure⟩

lemma promote_auth {answers : Answers} {task : Task} {forwarderAuth auth : Option Source}
    {call : ForwarderCall} (hc : call ∈ (promote answers task forwarderAuth).calls)
    (ha : call.auth = some auth) : auth = forwarderAuth := by
  unfold promote at hc
  cases hn : promoteToNextState task.request <;> simp only [hn] at hc
  case healthCheck => cases hc
  case unexpectedMethod => cases hc
  case tcpConnect => exact onTcpConnectRequest_auth hc ha
  case datagramMultiplexer => exact onDatagramMuxRequest_auth hc ha

def step (context : Context) (s : Endpoint) : Event → Option Endpoint
  | .opening id protocol serverName sniAuthCreds =>
    if id ∈ s.opened then none
    else
      let s := { s with opened := s.opened.insert id sniAuthCreds }
      match onTunnelRequest context s.limiter protocol serverName sniAuthCreds with
      | none => some s
      | some (t, limiter) => some { s with limiter, tunnels := s.tunnels.insert id t }
  | .request id request =>
    match s.tunnels.lookup id with
    | none => none
    | some t =>
      match acquireSlot context s.limiter t request with
      | none =>
        some { s with
          tunnels := s.tunnels.erase id
          failed := s.failed ++ [(id, .authentication "Connection limit exceeded")] }
      | some (t, limiter) =>
        some { s with
          limiter
          tunnels := s.tunnels.insert id t
          tasks := s.tasks ++ [⟨id, t.tlsDomain, t.authenticationPolicy, request⟩] }
  | .closed id =>
    match s.tunnels.lookup id with
    | none => none
    | some t =>
      let limiter := match t.connectionGuard with
        | none => s.limiter
        | some g => s.limiter.map (fun l => l.release g)
      some { s with limiter, tunnels := s.tunnels.erase id }
  | .handled index answers =>
    match s.tasks[index]? with
    | none => none
    | some task =>
      let s := { s with tasks := s.tasks.eraseIdx index }
      match forwarderAuth context task.authenticationPolicy task.request with
      | .error e => some { s with failed := s.failed ++ [(task.tunnel, e)] }
      | .ok auth => some { s with promoted := s.promoted ++ [promote answers task auth] }

end Core

end TrustTunnel
