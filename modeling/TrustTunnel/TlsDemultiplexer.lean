import TrustTunnel.ConnectionLimiter
import TrustTunnel.Text

/-!
# The TLS demultiplexer (`tls_demultiplexer.rs`)

Where a connection goes, by server name and protocols. Certificates are known by their paths.
-/

namespace TrustTunnel.TlsDemultiplexer

open Io Lib List
open Lib.Http1 (utf8)

/-- The demultiplexer never selects the subscription. -/
inductive Channel where
  | tunnel
  | ping
  | speedtest
  | reverseProxy
  | subscription
  deriving DecidableEq

structure TlsHostInfo where
  hostname : String
  certChainPath : String
  privateKeyPath : String
  allowedSni : List String

structure TlsHostsSettings where
  mainHosts : List TlsHostInfo
  pingHosts : List TlsHostInfo
  speedtestHosts : List TlsHostInfo
  reverseProxyHosts : List TlsHostInfo

/-- The protocols listened to, and whether there is a reverse proxy. -/
structure Settings where
  http1 : Bool
  http2 : Bool
  quic : Bool
  reverseProxy : Bool

structure Host where
  certChainPath : String
  keyPath : String
  allowedSni : List String
  deriving DecidableEq

structure ConnectionMeta where
  sni : String
  protocol : Protocol
  channel : Channel
  certChainPath : String
  keyPath : String
  sniAuthCreds : Option String
  deriving DecidableEq

/-- The last field is what `select` relies on where it unwraps. -/
structure TlsDemux where
  mainHosts : Table String Host
  reverseProxyHosts : Table String Host
  pingHosts : Table String Host
  speedtestHosts : Table String Host
  tunnelProtocols : List Protocol
  allowedSniToMainHost : Table String String
  allowed : ∀ sni name, allowedSniToMainHost.lookup sni = some name →
    (mainHosts.lookup name).isSome = true

/-! ## Construction -/

/-- `make_hosts!`. -/
def makeHosts (list : List TlsHostInfo) : Table String Host :=
  list.foldl (fun m x => m.insert x.hostname ⟨x.certChainPath, x.privateKeyPath, x.allowedSni⟩) ∅

/-- The alternatives; which host a shared one leads to depends on the map. -/
def collectAllowedSni (mainHosts : Table String Host) : Table String String :=
  (mainHosts.entries.flatMap (fun e => e.2.allowedSni.map (fun sni => (sni, e.1)))).foldl
    (fun m x => m.insert x.1 x.2) ∅

lemma mem_of_lookup_foldl {pairs : List (String × String)} {m : Table String String}
    {sni name : String} (h : (pairs.foldl (fun m x => m.insert x.1 x.2) m).lookup sni = some name) :
    (sni, name) ∈ pairs ∨ m.lookup sni = some name := by
  induction pairs generalizing m with
  | nil => exact .inr h
  | cons x pairs ih =>
    rw [foldl_cons] at h
    rcases ih h with hm | hl
    · exact .inl (mem_cons_of_mem x hm)
    · by_cases hx : sni = x.1
      · subst hx
        rw [AList.lookup_insert] at hl
        cases hl
        exact .inl mem_cons_self
      · rw [AList.lookup_insert_ne hx] at hl
        exact .inr hl

lemma new_allowed (mainHosts : Table String Host) (sni name : String)
    (h : (collectAllowedSni mainHosts).lookup sni = some name) :
    (mainHosts.lookup name).isSome = true := by
  rcases mem_of_lookup_foldl h with hm | hem
  · obtain ⟨e, he, hp⟩ := mem_flatMap.mp hm
    obtain ⟨_, -, hn⟩ := mem_map.mp hp
    cases hn
    rw [AList.lookup_isSome, AList.mem_keys]
    exact mem_map.mpr ⟨e, he, rfl⟩
  · cases hem

def TlsDemux.new (settings : Settings) (tlsSettings : TlsHostsSettings) : TlsDemux :=
  let mainHosts := makeHosts tlsSettings.mainHosts
  { mainHosts
    reverseProxyHosts := if settings.reverseProxy then makeHosts tlsSettings.reverseProxyHosts else ∅
    pingHosts := makeHosts tlsSettings.pingHosts
    speedtestHosts := makeHosts tlsSettings.speedtestHosts
    tunnelProtocols := (if settings.http1 then [.http1] else [])
      ++ (if settings.http2 then [.http2] else []) ++ (if settings.quic then [.http3] else [])
    allowedSniToMainHost := collectAllowedSni mainHosts
    allowed := new_allowed mainHosts }

/-! ## Selection -/

def http1Alpn : String := "http/1.1"
def http2Alpn : String := "h2"
def http3Alpn : String := "h3"

/-- `Protocol::from_alpn` of a name that is text. -/
def fromAlpn (alpn : Bytes) : Option Protocol :=
  if alpn = utf8 http1Alpn then some .http1
  else if alpn = utf8 http2Alpn then some .http2
  else if alpn = utf8 http3Alpn then some .http3
  else none

/-- The derived order of `Protocol`. -/
def rank : Protocol → Nat
  | .http1 => 0
  | .http2 => 1
  | .http3 => 2

/-- `Iterator::max`. -/
def maxProtocol : List Protocol → Option Protocol
  | [] => none
  | p :: ps =>
    match maxProtocol ps with
    | none => some p
    | some q => some (if rank q < rank p then p else q)

def defaultProtocol : Protocol := .http1

namespace TlsDemux

def selectTunnelChannelProtocol (d : TlsDemux) (parsedAdvertisedAlpn : List Protocol)
    (advertisedAlpn : List Bytes) : Except String Protocol :=
  match maxProtocol (parsedAdvertisedAlpn.filter (fun x => x ∈ d.tunnelProtocols)) with
  | some x => .ok x
  | none =>
    if defaultProtocol ∈ d.tunnelProtocols ∧ advertisedAlpn = [] then .ok defaultProtocol
    else .error "Unexpected ALPN on reverse proxy connection "

def selectReverseProxyProtocol (parsedAlpn : List Protocol) (alpn : List Bytes) :
    Except String Protocol :=
  match maxProtocol (parsedAlpn.filter (fun x => x = .http1 ∨ x = .http3)) with
  | some x => .ok x
  | none =>
    if alpn = [] then .ok defaultProtocol
    else .error "Unexpected ALPN on reverse proxy connection "

def credentialHost (d : TlsDemux) (sni : String) : Option (Host × String) :=
  (Text.splitOnce '.' sni).bind (fun x => (d.mainHosts.lookup x.2).map (fun h => (h, x.1)))

/-- The chain of lookups in `select`. -/
def route (d : TlsDemux) (parsedAlpn : List Protocol) (alpn : List Bytes) (sni : String) :
    Except String (Protocol × Channel × Host × Option String) :=
  match d.mainHosts.lookup sni with
  | some h => (d.selectTunnelChannelProtocol parsedAlpn alpn).map (fun p => (p, .tunnel, h, none))
  | none =>
    match d.reverseProxyHosts.lookup sni with
    | some h => (selectReverseProxyProtocol parsedAlpn alpn).map (fun p => (p, .reverseProxy, h, none))
    | none =>
      match d.pingHosts.lookup sni with
      | some h => .ok ((maxProtocol parsedAlpn).getD defaultProtocol, .ping, h, none)
      | none =>
        match d.speedtestHosts.lookup sni with
        | some h => .ok ((maxProtocol parsedAlpn).getD defaultProtocol, .speedtest, h, none)
        | none =>
          match d.credentialHost sni with
          | some (h, authCreds) =>
            (d.selectTunnelChannelProtocol parsedAlpn alpn).map
              (fun p => (p, .tunnel, h, some authCreds))
          | none =>
            match hname : d.allowedSniToMainHost.lookup sni with
            | some name =>
              let h := (d.mainHosts.lookup name).get (d.allowed sni name hname)
              (d.selectTunnelChannelProtocol parsedAlpn alpn).map (fun p => (p, .tunnel, h, none))
            | none => .error ("Unexpected SNI " ++ sni)

def select (d : TlsDemux) (alpn : List Bytes) (sni : String) : Except String ConnectionMeta :=
  let parsedAlpn := alpn.filterMap fromAlpn
  if parsedAlpn = [] ∧ alpn ≠ [] then .error "None of advertised ALPNs successfully parsed: "
  else
    match d.route parsedAlpn alpn sni with
    | .error e => .error e
    | .ok (protocol, channel, host, auth) =>
      .ok ⟨sni, protocol, channel, host.certChainPath, host.keyPath, auth⟩

/-- `get_quic_connection_bootstrap_meta`, with any main host as the first. -/
def getQuicConnectionBootstrapMeta (name : String) (host : Host) : ConnectionMeta :=
  ⟨name, .http3, .tunnel, host.certChainPath, host.keyPath, none⟩

lemma select_sni {d : TlsDemux} {alpn : List Bytes} {sni : String} {conn : ConnectionMeta}
    (h : d.select alpn sni = .ok conn) : conn.sni = sni := by
  simp only [select] at h
  split at h
  · cases h
  · split at h
    · cases h
    · cases h
      rfl

end TlsDemux

end TrustTunnel.TlsDemultiplexer
