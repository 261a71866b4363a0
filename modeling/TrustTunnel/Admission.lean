import TrustTunnel.Rules
import TrustTunnel.TlsDemultiplexer

/-!
# Admission over TCP and QUIC (`core.rs`, `quic_multiplexer.rs`)

Rules admit a connection and the demultiplexer routes it: over TCP by the client's name, over QUIC
by a main host's unless the client's can be routed.
-/

namespace TrustTunnel.Core

open Io NetUtils Rules TlsDemultiplexer TlsDemux
open Lib.Http1 (utf8)

variable (x : Crates)

def evaluateConnectionRules (rulesEngine : Option RulesEngine) (clientIp : Option IpAddr)
    (clientRandom : Option Bytes) (sni : Option String) : Except String Unit :=
  match rulesEngine, clientIp with
  | some engine, some ip =>
    match engine.evaluate x ip clientRandom sni with
    | .deny => .error "Connection denied by filtering rules"
    | .allow => .ok ()
  | _, _ => .ok ()

/-- `on_new_tls_connection`, up to the TLS handshake; the dump in one of its texts is left out. -/
def onNewTlsConnection (rulesEngine : Option RulesEngine) (d : TlsDemux) (clientAddr : SocketAddr)
    (clientRandom : Option Bytes) (alpn : List Bytes) (sni : Option String) :
    Except String ConnectionMeta :=
  match sni with
  | none => .error "Drop TLS connection due to absence of SNI"
  | some sni =>
    match evaluateConnectionRules x rulesEngine (some (unmapIpv6 clientAddr.ip)) clientRandom
        (some sni) with
    | .error denyReason => .error denyReason
    | .ok () =>
      match d.select alpn sni with
      | .error e => .error ("Dropping connection due to error: " ++ e)
      | .ok conn =>
        if conn.protocol = .http3 then
          .error "Dropping connection due to unexpected protocol: "
        else .ok conn

def finalizeEstablishedConnection (d : TlsDemux) (bootstrap : ConnectionMeta)
    (serverName : Option String) : ConnectionMeta :=
  let sni := serverName.getD ""
  if sni.isEmpty then bootstrap
  else
    match d.select [utf8 http3Alpn] sni with
    | .ok conn => conn
    | .error _ => bootstrap

/-- `on_new_quic_connection`, up to the routing. -/
def onNewQuicConnection (rulesEngine : Option RulesEngine) (d : TlsDemux)
    (bootstrap : ConnectionMeta) (peer : SocketAddr) (clientRandom : Bytes)
    (serverName : Option String) : Except String ConnectionMeta :=
  let conn := finalizeEstablishedConnection d bootstrap serverName
  match evaluateConnectionRules x rulesEngine (some (unmapIpv6 peer.ip)) (some clientRandom)
      (some conn.sni) with
  | .error denyReason => .error denyReason
  | .ok () => .ok conn

/-! ## The criterion -/

def Allowed (rulesEngine : Option RulesEngine) (peer : SocketAddr) (clientRandom : Bytes)
    (sni : String) : Prop :=
  evaluateConnectionRules x rulesEngine (some (unmapIpv6 peer.ip)) (some clientRandom) (some sni) =
    .ok ()

/-- The client sent a name that is routed and that the rules let through. -/
def Criterion (rulesEngine : Option RulesEngine) (d : TlsDemux) (peer : SocketAddr)
    (clientRandom : Bytes) (alpn : List Bytes) (sni : Option String) (conn : ConnectionMeta) :
    Prop :=
  ∃ name, sni = some name ∧ d.select alpn name = .ok conn ∧
    Allowed x rulesEngine peer clientRandom name

def Routes (P : ConnectionMeta → Prop) (channel : Channel) (creds : Option String) : Prop :=
  ∃ conn, P conn ∧ conn.channel = channel ∧ conn.sniAuthCreds = creds

/-- The name is not empty and can be routed, or the rules keep the bootstrap name out as well. -/
def NamedOrDenied (rulesEngine : Option RulesEngine) (d : TlsDemux) (bootstrap : String)
    (peer : SocketAddr) (clientRandom : Bytes) (sni : Option String) : Prop :=
  match sni.map (fun name => (name, d.select [utf8 http3Alpn] name)) with
  | some (name, .ok conn) => name ≠ "" ∨
      ((Allowed x rulesEngine peer clientRandom bootstrap ↔ Allowed x rulesEngine peer clientRandom "")
        ∧ (Allowed x rulesEngine peer clientRandom bootstrap →
          conn.channel = .tunnel ∧ conn.sniAuthCreds = none))
  | _ => ¬ Allowed x rulesEngine peer clientRandom bootstrap

variable {x}

section

variable {rulesEngine : Option RulesEngine} {d : TlsDemux} {peer : SocketAddr} {alpn : List Bytes}
  {sni : Option String} {conn bootstrap : ConnectionMeta} {clientRandom : Bytes} {name : String}

/-- **What goes on over TCP.** -/
lemma onNewTlsConnection_eq_ok_iff {clientRandom : Option Bytes} :
    onNewTlsConnection x rulesEngine d peer clientRandom alpn sni = .ok conn ↔
      ∃ name, sni = some name ∧
        evaluateConnectionRules x rulesEngine (some (unmapIpv6 peer.ip)) clientRandom (some name) =
          .ok () ∧ d.select alpn name = .ok conn ∧ conn.protocol ≠ .http3 := by
  unfold onNewTlsConnection
  cases sni with
  | none => simp
  | some name =>
    simp only [Option.some.injEq, exists_eq_left']
    cases evaluateConnectionRules x rulesEngine (some (unmapIpv6 peer.ip)) clientRandom
      (some name) with
    | error denyReason => simp
    | ok _ =>
      cases d.select alpn name with
      | error => simp
      | ok selected =>
        by_cases hp : selected.protocol = .http3
        · simp only [hp, ↓reduceIte, reduceCtorEq, Except.ok.injEq, true_and, false_iff,
            not_and, ne_eq, not_not]
          rintro rfl
          exact hp
        · simp only [hp, ↓reduceIte, Except.ok.injEq, true_and, ne_eq, iff_self_and]
          rintro rfl
          exact hp

lemma onNewTlsConnection_ok :
    onNewTlsConnection x rulesEngine d peer (some clientRandom) alpn sni = .ok conn ↔
      Criterion x rulesEngine d peer clientRandom alpn sni conn ∧ conn.protocol ≠ .http3 := by
  rw [onNewTlsConnection_eq_ok_iff]
  constructor
  · rintro ⟨name, hn, ha, hs, hp⟩
    exact ⟨⟨name, hn, hs, ha⟩, hp⟩
  · rintro ⟨⟨name, hn, hs, ha⟩, hp⟩
    exact ⟨name, hn, ha, hs, hp⟩

lemma onNewQuicConnection_ok :
    onNewQuicConnection x rulesEngine d bootstrap peer clientRandom sni = .ok conn ↔
      conn = finalizeEstablishedConnection d bootstrap sni ∧
        Allowed x rulesEngine peer clientRandom conn.sni := by
  simp only [onNewQuicConnection, Allowed]
  constructor
  · intro h
    split at h
    · cases h
    · rename_i ha
      cases h
      exact ⟨rfl, ha⟩
  · rintro ⟨rfl, ha⟩
    rw [ha]

lemma finalize_of_select (hn : name ≠ "") (hs : d.select [utf8 http3Alpn] name = .ok conn) :
    finalizeEstablishedConnection d bootstrap (some name) = conn := by
  have he : name.isEmpty = false := by simpa using hn
  simp [finalizeEstablishedConnection, he, hs]

lemma finalize_of_error (hs : d.select [utf8 http3Alpn] name = .error e) :
    finalizeEstablishedConnection d bootstrap (some name) = bootstrap := by
  simp [finalizeEstablishedConnection, hs]

lemma finalize_of_none : finalizeEstablishedConnection d bootstrap none = bootstrap := rfl

lemma finalize_of_empty : finalizeEstablishedConnection d bootstrap (some "") = bootstrap := rfl

lemma quic_routes_of_bootstrap
    (hs : finalizeEstablishedConnection d bootstrap sni = bootstrap) (channel : Channel)
    (creds : Option String) :
    Routes (fun conn => onNewQuicConnection x rulesEngine d bootstrap peer clientRandom sni =
      .ok conn) channel creds ↔
      Allowed x rulesEngine peer clientRandom bootstrap.sni ∧ bootstrap.channel = channel ∧
        bootstrap.sniAuthCreds = creds := by
  simp only [Routes, onNewQuicConnection_ok, hs]
  constructor
  · rintro ⟨conn, ⟨rfl, ha⟩, hr⟩
    exact ⟨ha, hr⟩
  · rintro ⟨ha, hr⟩
    exact ⟨bootstrap, ⟨rfl, ha⟩, hr⟩

lemma criterion_routes_of_select (hs : d.select alpn name = .ok conn) (channel : Channel)
    (creds : Option String) :
    Routes (Criterion x rulesEngine d peer clientRandom alpn (some name)) channel creds ↔
      Allowed x rulesEngine peer clientRandom name ∧ conn.channel = channel ∧
        conn.sniAuthCreds = creds := by
  simp [Routes, Criterion, hs, and_assoc]

lemma forall_route_iff :
    (∀ c a, (P ∧ channel = c ∧ creds = a) ↔ (Q ∧ channel' = c ∧ creds' = a)) ↔
      (P ↔ Q) ∧ (P → channel' = channel ∧ creds' = creds) := by
  constructor
  · intro h
    have hf : P → Q ∧ channel' = channel ∧ creds' = creds :=
      fun hp => (h channel creds).mp ⟨hp, rfl, rfl⟩
    have hb : Q → P := fun hq => ((h channel' creds').mpr ⟨hq, rfl, rfl⟩).1
    exact ⟨⟨fun hp => (hf hp).1, hb⟩, fun hp => (hf hp).2⟩
  · rintro ⟨hi, heq⟩ c a
    constructor
    · rintro ⟨hp, rfl, rfl⟩
      exact ⟨hi.mp hp, heq hp⟩
    · rintro ⟨hq, rfl, rfl⟩
      obtain ⟨hch, hc⟩ := heq (hi.mpr hq)
      exact ⟨hi.mpr hq, hch.symm, hc.symm⟩

lemma bootstrap_criterion_iff (hs : finalizeEstablishedConnection d bootstrap sni = bootstrap)
    (hn : ∀ conn, ¬ Criterion x rulesEngine d peer clientRandom [utf8 http3Alpn] sni conn) :
    (∀ channel creds,
        Routes (fun conn => onNewQuicConnection x rulesEngine d bootstrap peer clientRandom sni =
            .ok conn) channel creds ↔
          Routes (Criterion x rulesEngine d peer clientRandom [utf8 http3Alpn] sni) channel creds) ↔
      ¬ Allowed x rulesEngine peer clientRandom bootstrap.sni := by
  have hno : ∀ channel creds,
      ¬ Routes (Criterion x rulesEngine d peer clientRandom [utf8 http3Alpn] sni) channel
        creds := by
    rintro channel creds ⟨conn, hc, -⟩
    exact hn conn hc
  simp only [hno, iff_false, quic_routes_of_bootstrap hs]
  constructor
  · intro h ha
    exact h _ _ ⟨ha, rfl, rfl⟩
  · rintro h channel creds ⟨ha, -⟩
    exact h ha

/-- **Admission.** QUIC goes by the criterion exactly when the name can be routed or the rules
keep out the bootstrap name; TCP does, but drops what would be HTTP/3. -/
theorem quic_criterion_iff (rulesEngine : Option RulesEngine) (d : TlsDemux) (host : Host)
    (hostname : String) (peer : SocketAddr) (clientRandom : Bytes) (sni : Option String) :
    ((∀ channel creds, Routes (fun conn => onNewQuicConnection x rulesEngine d
            (getQuicConnectionBootstrapMeta hostname host) peer clientRandom sni = .ok conn)
            channel creds ↔
          Routes (Criterion x rulesEngine d peer clientRandom [utf8 http3Alpn] sni) channel creds) ↔
      NamedOrDenied x rulesEngine d hostname peer clientRandom sni) ∧
    ∀ alpn conn, onNewTlsConnection x rulesEngine d peer (some clientRandom) alpn sni = .ok conn ↔
      Criterion x rulesEngine d peer clientRandom alpn sni conn ∧ conn.protocol ≠ .http3 := by
  refine ⟨?_, fun alpn conn => onNewTlsConnection_ok⟩
  cases sni with
  | none =>
    exact bootstrap_criterion_iff finalize_of_none (by rintro conn ⟨name, hn, -⟩; cases hn)
  | some name =>
    cases hs : d.select [utf8 http3Alpn] name with
    | error =>
      have hno : ∀ conn,
          ¬ Criterion x rulesEngine d peer clientRandom [utf8 http3Alpn] (some name) conn := by
        rintro conn ⟨name', hn, hok, -⟩
        cases hn
        rw [hs] at hok
        cases hok
      simp only [NamedOrDenied, Option.map_some, hs]
      exact bootstrap_criterion_iff (finalize_of_error hs) hno
    | ok conn =>
      simp only [NamedOrDenied, Option.map_some, hs, criterion_routes_of_select hs]
      by_cases hn : name = ""
      · subst hn
        simp only [quic_routes_of_bootstrap finalize_of_empty, ne_eq, not_true_eq_false, false_or]
        exact forall_route_iff
      · simp only [ne_eq, hn, not_false_eq_true, true_or, iff_true]
        intro channel creds
        simp only [Routes, onNewQuicConnection_ok, finalize_of_select hn hs]
        constructor
        · rintro ⟨conn', ⟨rfl, ha⟩, hr⟩
          rw [select_sni hs] at ha
          exact ⟨ha, hr⟩
        · rintro ⟨ha, hr⟩
          rw [← select_sni hs] at ha
          exact ⟨conn, ⟨rfl, ha⟩, hr⟩

def vpnDemux : TlsDemux :=
  .new ⟨true, true, true, false⟩ ⟨[⟨"vpn.example", "cert.pem", "key.pem", []⟩], [], [], []⟩

def vpnBootstrap : ConnectionMeta :=
  getQuicConnectionBootstrapMeta "vpn.example" ⟨"cert.pem", "key.pem", []⟩

def peerAddr : SocketAddr := .v4 ⟨198, 51, 100, 7⟩ 443

/-- Dropped over TCP, led to the tunnel over QUIC. -/
theorem unknownName_admitted :
    vpnDemux.mainHosts.lookup "vpn.example" = some ⟨"cert.pem", "key.pem", []⟩ ∧
    onNewTlsConnection RulesEngine.keyless none vpnDemux peerAddr (some (List.replicate 32 0))
      [utf8 http2Alpn] (some "unknown.example") =
        .error "Dropping connection due to error: Unexpected SNI unknown.example" ∧
    onNewQuicConnection RulesEngine.keyless none vpnDemux vpnBootstrap peerAddr
      (List.replicate 32 0) (some "unknown.example") = .ok vpnBootstrap ∧
    vpnBootstrap.channel = .tunnel ∧
    ¬ Routes (Criterion RulesEngine.keyless none vpnDemux peerAddr (List.replicate 32 0)
      [utf8 http3Alpn] (some "unknown.example")) .tunnel none := by
  refine ⟨by decide +kernel, by rfl, by rfl, rfl, ?_⟩
  rintro ⟨conn, ⟨name, hn, hs, -⟩, -⟩
  cases hn
  have hu : vpnDemux.select [utf8 http3Alpn] "unknown.example" =
      .error "Unexpected SNI unknown.example" := by
    rfl
  rw [hu] at hs
  cases hs

end

end TrustTunnel.Core
