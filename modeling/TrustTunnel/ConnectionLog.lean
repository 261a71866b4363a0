import TrustTunnel.Admission
import TrustTunnel.LogLines
import TrustTunnel.Tunnel

/-!
# What the routing of a connection logs (`core.rs`, `rules.rs`)

From a client's hello to the end of its tunnel. The name is scrubbed, but not the credentials in
the dump of the connection.
-/

namespace TrustTunnel.Log

open Io Lib Authentication Rules TlsDemultiplexer TlsDemux List Option
open NetUtils (SocketAddr unmapIpv6)
open Lib.Http1 (utf8)

abbrev Logged (α : Type) := List Line × α

def say {α : Type} (lines : List Line) (x : Logged α) : Logged α := (lines ++ x.1, x.2)

structure Setup where
  rulesEngine : Option RulesEngine
  demux : TlsDemux
  context : Tunnel.Context
  limiter : Option ConnectionLimiter

/-- A client, and what becomes of its connection. -/
structure Client where
  clientId : String
  tunnelId : String
  peer : SocketAddr
  clientRandom : Option Bytes
  accept : ConnectionMeta → Except String String
  makeCodec : ConnectionMeta → Except String Unit
  listen : ConnectionMeta → Except String Unit

inductive Verdict where
  | noSni
  | denied
  | unrouted
  | unexpectedProtocol
  | handshakeFailed
  | codecFailed
  | unauthenticated
  | limitExceeded
  | served (channel : Channel)
  deriving DecidableEq

def Verdict.routed : Verdict → Bool
  | .noSni | .denied | .unrouted | .unexpectedProtocol => false
  | .handshakeFailed | .codecFailed | .unauthenticated | .limitExceeded | .served _ => true

variable (f : Formats) (x : Crates) (setup : Setup) (client : Client)

/-! ## The rules -/

def keyRefused (rule : Rule) (sni : String) : Bool :=
  match rule.checkCidr x (unmapIpv6 client.peer.ip), rule.clientRandomAuthKey, client.clientRandom with
  | some _, some authHex, some clientRandom =>
    (x.hexDecode authHex).any (fun key => !validateClientRandomAuthKey x key clientRandom sni)
  | _, _, _ => false

def refusals (engine : RulesEngine) (sni : String) : List Rule :=
  if (client.clientRandom.isNone && (engine.hasPrefixRule || engine.hasAuthKeyRule))
      || (sni.isEmpty && engine.hasAuthKeyRule) then []
  else
    (engine.rules.takeWhile (fun rule =>
      !rule.matches x (unmapIpv6 client.peer.ip) client.clientRandom (some sni))).filter
        (fun rule => keyRefused x client rule sni)

def refusalLine (sni : String) : Line :=
  ⟨.debug, "auth key client_random validation failed for SNI: " ++ scrubSni sni⟩

/-- `evaluate_connection_rules` and what is done with its answer. -/
def underRules (sni : String) (next : Logged Verdict) : Logged Verdict :=
  match setup.rulesEngine with
  | none => next
  | some engine =>
    say ((refusals x client engine sni).map (fun _ => refusalLine sni)) <|
      match engine.evaluate x (unmapIpv6 client.peer.ip) client.clientRandom (some sni) with
      | .deny =>
        ([logId .debug client.clientId
            ("Connection denied by filtering rules for IP: " ++ f.ip (unmapIpv6 client.peer.ip)),
          logId .debug client.clientId "Connection denied by filtering rules"], .denied)
      | .allow =>
        say [logId .debug client.clientId "Connection allowed by filtering rules"] next

/-! ## Tunnels -/

/-- `on_tunnel_request` once the client has passed. -/
def newTunnel (conn : ConnectionMeta) : Logged Verdict :=
  ([logId .debug client.tunnelId "New tunnel for client",
    logId .trace client.tunnelId "Listening for client tunnel",
    match client.listen conn with
    | .ok () => logId .debug client.tunnelId "Tunnel stopped gracefully"
    | .error e => logId .debug client.tunnelId ("Tunnel stopped with error: " ++ e)],
    .served .tunnel)

def onTunnelRequest (conn : ConnectionMeta) : Logged Verdict :=
  match setup.context.authenticator, conn.sniAuthCreds with
  | some authenticator, some creds =>
    match authenticator.authenticate (.sni creds) with
    | .pass =>
      if setup.limiter.any (fun l => (l.tryAcquire creds conn.protocol).isNone) then
        ([logId .debug client.tunnelId "Connection limit exceeded for SNI-authenticated client"],
          .limitExceeded)
      else newTunnel client conn
    | .reject => ([logId .debug client.tunnelId "SNI authentication failed"], .unauthenticated)
  | _, _ => newTunnel client conn

lemma onTunnelRequest_routed (conn : ConnectionMeta) :
    (onTunnelRequest setup client conn).2.routed := by
  unfold onTunnelRequest
  split
  · split
    · split <;> rfl
    · rfl
  · rfl

/-! ## Connections -/

/-- `on_new_tls_connection` once there is a route, with the log of its caller. -/
def onTlsRoute (conn : ConnectionMeta) : Logged Verdict :=
  if conn.protocol = .http3 then
    ([logId .debug client.clientId
      ("Dropping connection due to unexpected protocol: " ++ debugMeta f conn)], .unexpectedProtocol)
  else
    say [logId .debug client.clientId ("Connection meta: " ++ debugMeta f conn),
      logId .trace client.clientId
        ("Accepting TLS connection with protocol " ++ debugProtocol conn.protocol)] <|
    match client.accept conn with
    | .error e => ([logId .debug client.clientId ("TLS connection failed: " ++ e)], .handshakeFailed)
    | .ok stream =>
      say [logId .debug client.clientId ("New TLS client: " ++ stream),
        logId .trace client.clientId ("Routing to channel: " ++ debugChannel conn.channel)] <|
      say (if conn.channel = .tunnel then [logId .trace client.tunnelId "Creating tunnel"] else []) <|
      match client.makeCodec conn with
      | .error e =>
        ([logId .debug client.clientId ("Failed to create HTTP codec: " ++ e)], .codecFailed)
      | .ok () =>
        if conn.channel = .tunnel then onTunnelRequest setup client conn
        else ([], .served conn.channel)

lemma onTlsRoute_verdict (conn : ConnectionMeta) :
    conn.protocol = .http3 ∧ (onTlsRoute f setup client conn).2 = .unexpectedProtocol ∨
      conn.protocol ≠ .http3 ∧ (onTlsRoute f setup client conn).2.routed := by
  unfold onTlsRoute
  split
  · rename_i hp
    exact .inl ⟨hp, rfl⟩
  · rename_i hp
    refine .inr ⟨hp, ?_⟩
    cases client.accept conn with
    | error => rfl
    | ok =>
      cases client.makeCodec conn with
      | error => rfl
      | ok =>
        by_cases hc : conn.channel = .tunnel
        · simp [say, hc, onTunnelRequest_routed]
        · simp only [say, hc, ↓reduceIte]
          rfl

/-- `on_new_tls_connection` behind the rules. -/
def onTlsName (alpn : List Bytes) (sni : String) : Logged Verdict :=
  match setup.demux.select alpn sni with
  | .error e =>
    ([logId .debug client.clientId ("Dropping connection due to error: " ++ e)], .unrouted)
  | .ok conn => onTlsRoute f setup client conn

lemma onTlsRoute_ne (conn : ConnectionMeta)
    (hv : verdict ≠ .unexpectedProtocol) (hr : verdict.routed = false) :
    (onTlsRoute f setup client conn).2 ≠ verdict := by
  rintro rfl
  rcases onTlsRoute_verdict f setup client conn with ⟨-, h⟩ | ⟨-, h⟩
  · exact hv h
  · rw [h] at hr
    cases hr

lemma onTlsName_ne_denied (alpn : List Bytes) (sni : String) :
    (onTlsName f setup client alpn sni).2 ≠ .denied := by
  unfold onTlsName
  split
  · simp
  · exact onTlsRoute_ne f setup client _ (by decide) rfl

/-- The task of `listen_tcp`, with `on_new_tls_connection`. -/
def onNewTlsConnection (alpn : List Bytes) (sni : Option String) : Logged Verdict :=
  say [logId .trace client.clientId "Starting TLS handshake",
    logId .trace client.clientId "TLS handshake complete, processing connection",
    logId .trace client.clientId
      ("Processing TLS connection from " ++ f.ip (unmapIpv6 client.peer.ip))] <|
  match sni with
  | none => ([logId .debug client.clientId "Drop TLS connection due to absence of SNI"], .noSni)
  | some sni =>
    say [logId .trace client.clientId ("TLS SNI: " ++ scrubSni sni)] <|
    underRules f x setup client sni (onTlsName f setup client alpn sni)

/-- `on_new_quic_connection` behind the rules. -/
def onQuicRoute (conn : ConnectionMeta) : Logged Verdict :=
  say [logId .debug client.clientId ("Connection meta: " ++ debugMeta f conn)] <|
  if conn.channel = .tunnel then onTunnelRequest setup client conn else ([], .served conn.channel)

lemma onQuicRoute_routed (conn : ConnectionMeta) :
    (onQuicRoute f setup client conn).2.routed := by
  unfold onQuicRoute
  split
  · exact onTunnelRequest_routed setup client conn
  · rfl

/-- The task of `listen_udp`, with `on_new_quic_connection`. -/
def onNewQuicConnection (bootstrap : ConnectionMeta) (serverName : Option String) : Logged Verdict :=
  let conn := Core.finalizeEstablishedConnection setup.demux bootstrap serverName
  say [logId .debug client.clientId "New QUIC connection"] <|
  underRules f x setup client conn.sni (onQuicRoute f setup client conn)

/-! ## The log does not change the course of a connection -/

def Admitted (sni : String) : Prop :=
  Core.evaluateConnectionRules x setup.rulesEngine (some (unmapIpv6 client.peer.ip))
    client.clientRandom (some sni) = .ok ()

instance (sni : String) : Decidable (Admitted x setup client sni) :=
  inferInstanceAs (Decidable (_ = _))

variable {f x setup client}

lemma admitted_of_none (he : setup.rulesEngine = none) : Admitted x setup client sni := by
  rw [Admitted, he]
  rfl

lemma admitted_iff_allow {engine : RulesEngine} (he : setup.rulesEngine = some engine) :
    Admitted x setup client sni ↔
      engine.evaluate x (unmapIpv6 client.peer.ip) client.clientRandom (some sni) = .allow := by
  rw [Admitted, he, Core.evaluateConnectionRules]
  cases engine.evaluate x (unmapIpv6 client.peer.ip) client.clientRandom (some sni) <;> simp

lemma underRules_verdict (sni : String) (next : Logged Verdict) :
    (underRules f x setup client sni next).2 =
      if Admitted x setup client sni then next.2 else .denied := by
  unfold underRules
  cases he : setup.rulesEngine with
  | none => rw [if_pos (admitted_of_none he)]
  | some engine =>
    simp only [admitted_iff_allow he]
    cases engine.evaluate x (unmapIpv6 client.peer.ip) client.clientRandom (some sni) <;> rfl

/-! ## Two names before the rules -/

section

variable {sni sni' : String} {next next' : Logged Verdict}

def refusedKeys (x : Crates) (setup : Setup) (client : Client) (sni : String) : Nat :=
  (setup.rulesEngine.map (fun engine => (refusals x client engine sni).length)).getD 0

lemma refusalLine_ne_logId (sni : String) (level : Level) (id text : String) :
    refusalLine sni ≠ logId level id text := by
  intro h
  have hh := congrArg (fun line => line.text.toList.head?) h
  simp [refusalLine, logId, String.toList_append] at hh

lemma replicate_append_inj {α : Type} {a b b' : α} {s s' : List α} (hb : a ≠ b) (hb' : a ≠ b')
    (n n' : Nat) : replicate n a ++ b :: s = replicate n' a ++ b' :: s' ↔
      n = n' ∧ b :: s = b' :: s' := by
  induction n generalizing n' with
  | zero =>
    cases n' with
    | zero => simp
    | succ => simp [replicate_succ, hb.symm]
  | succ n ih =>
    cases n' with
    | zero => simp [replicate_succ, hb']
    | succ => simp [replicate_succ, ih]

lemma admitted_congr (hn : next.2 ≠ .denied) (hn' : next'.2 ≠ .denied)
    (hv : (underRules f x setup client sni next).2 = (underRules f x setup client sni' next').2) :
    (Admitted x setup client sni ↔ Admitted x setup client sni') ∧
      (Admitted x setup client sni → next.2 = next'.2) := by
  rw [underRules_verdict, underRules_verdict] at hv
  by_cases h : Admitted x setup client sni <;> by_cases h' : Admitted x setup client sni'
  · rw [if_pos h, if_pos h'] at hv
    exact ⟨iff_of_true h h', fun _ => hv⟩
  · rw [if_pos h, if_neg h'] at hv
    exact absurd hv hn
  · rw [if_neg h, if_pos h'] at hv
    exact absurd hv.symm hn'
  · exact ⟨iff_of_false h h', fun ha => absurd ha h⟩

/-- Up to the rules, only the number of refused keys tells such names apart. -/
lemma underRules_lines_iff (hsc : scrubSni sni = scrubSni sni') (hn : next.2 ≠ .denied)
    (hn' : next'.2 ≠ .denied)
    (hv : (underRules f x setup client sni next).2 = (underRules f x setup client sni' next').2) :
    (underRules f x setup client sni next).1 = (underRules f x setup client sni' next').1 ↔
      refusedKeys x setup client sni = refusedKeys x setup client sni' ∧
        (Admitted x setup client sni → next.1 = next'.1) := by
  have hs := (admitted_congr hn hn' hv).1
  have hl : refusalLine sni' = refusalLine sni := by rw [refusalLine, refusalLine, hsc]
  cases he : setup.rulesEngine with
  | none =>
    simp only [underRules, he, refusedKeys, map_none, true_and,
      admitted_of_none he, forall_const]
  | some engine =>
    simp only [admitted_iff_allow he] at hs ⊢
    simp only [underRules, he, refusedKeys, map_some, getD_some, say, map_const', hl]
    cases ha : engine.evaluate x (unmapIpv6 client.peer.ip) client.clientRandom (some sni) <;>
      cases ha' : engine.evaluate x (unmapIpv6 client.peer.ip) client.clientRandom (some sni')
    · simp [replicate_append_inj, refusalLine_ne_logId]
    · simp [ha, ha'] at hs
    · simp [ha, ha'] at hs
    · simp

end

/-! ## Two names after the rules -/

section

variable {d : TlsDemux} {label host e : String}

lemma error_of_map {ε α β : Type} {r : Except ε α} {F : α → β} {e : ε}
    (h : r.map F = .error e) : r = .error e := by
  cases r with
  | error => cases h; rfl
  | ok => cases h

lemma route_labelled_error {parsedAlpn : List Protocol} {alpn : List Bytes}
    (hlabel : '.' ∉ label.toList) (hh : host ∈ d.mainHosts)
    (h : d.route parsedAlpn alpn (labelled label host) = .error e) :
    d.selectTunnelChannelProtocol parsedAlpn alpn = .error e ∨
      selectReverseProxyProtocol parsedAlpn alpn = .error e := by
  obtain ⟨mainHost, hl⟩ := Table.exists_lookup hh
  have hc : d.credentialHost (labelled label host) = some (mainHost, label) := by
    rw [credentialHost, splitOnce_labelled hlabel, bind_some, hl]
    rfl
  unfold route at h
  split at h
  · exact .inl (error_of_map h)
  split at h
  · exact .inr (error_of_map h)
  split at h
  · cases h
  split at h
  · cases h
  simp only [hc] at h
  exact .inl (error_of_map h)

lemma select_labelled_error (hlabel : '.' ∉ label.toList)
    (hh : host ∈ d.mainHosts) (h : d.select alpn (labelled label host) = .error e) :
    e = if alpn.filterMap fromAlpn = [] ∧ alpn ≠ [] then
        "None of advertised ALPNs successfully parsed: "
      else "Unexpected ALPN on reverse proxy connection " := by
  simp only [select] at h
  split
  · rename_i hu
    rw [if_pos hu] at h
    cases h
    rfl
  · rename_i hpa
    rw [if_neg hpa] at h
    split at h
    · rename_i hr
      cases h
      rcases route_labelled_error hlabel hh hr with ht | hp
      · unfold selectTunnelChannelProtocol at ht
        split at ht
        · cases ht
        · split at ht <;> cases ht
          rfl
      · unfold selectReverseProxyProtocol at hp
        split at hp
        · cases hp
        · split at hp <;> cases hp
          rfl
    · cases h

lemma select_labelled_http3 (hlabel : '.' ∉ label.toList) (hh : host ∈ d.mainHosts)
    (hl : .http3 ∈ d.tunnelProtocols) :
    ∃ conn, d.select [utf8 http3Alpn] (labelled label host) = .ok conn := by
  have hp : [utf8 http3Alpn].filterMap fromAlpn = [.http3] := by decide +kernel
  cases hs : d.select [utf8 http3Alpn] (labelled label host) with
  | ok conn => exact ⟨conn, rfl⟩
  | error =>
    simp only [select, hp, cons_ne_self, false_and, ↓reduceIte] at hs
    split at hs
    · rename_i hr
      rcases route_labelled_error hlabel hh hr with ht | hpr
      · simp [selectTunnelChannelProtocol, hl, maxProtocol] at ht
      · simp [selectReverseProxyProtocol, maxProtocol] at hpr
    · cases hs

lemma logId_append_inj {level : Level} {id front text text' : String}
    (h : logId level id (front ++ text) = logId level id (front ++ text')) : text = text' := by
  have ht := congrArg Line.text h
  exact (String.append_right_inj _).mp ((String.append_right_inj _).mp ht)

/-- `listen_udp` serves only if QUIC is listened to. -/
inductive Transport (d : TlsDemux) where
  | tls (alpn : List Bytes)
  | quic (bootstrap : ConnectionMeta) (listened : .http3 ∈ d.tunnelProtocols)

def Transport.alpn {d : TlsDemux} : Transport d → List Bytes
  | .tls alpn => alpn
  | .quic _ _ => [utf8 http3Alpn]

def connect (f : Formats) (x : Crates) (setup : Setup) (client : Client)
    (transport : Transport setup.demux) (sni : String) : Logged Verdict :=
  match transport with
  | .tls alpn => onNewTlsConnection f x setup client alpn (some sni)
  | .quic bootstrap _ => onNewQuicConnection f x setup client bootstrap (some sni)

lemma labelled_ne (label host : String) : labelled label host ≠ "" := by
  intro h
  have hl := congrArg String.length h
  simp [labelled] at hl

lemma ne_denied_of_routed {verdict : Verdict} (h : verdict.routed) : verdict ≠ .denied := by
  rintro rfl
  cases h

end

section TwoNames

variable {label label' host : String} (hstr : Function.Injective f.str)
  (hlabel : '.' ∉ label.toList) (hlabel' : '.' ∉ label'.toList)

include hstr hlabel hlabel'

section

variable {alpn : List Bytes} {conn conn' : ConnectionMeta} {transport : Transport setup.demux}

lemma onTlsRoute_lines_iff (hc : setup.demux.select alpn (labelled label host) = .ok conn)
    (hc' : setup.demux.select alpn (labelled label' host) = .ok conn')
    (hv : (onTlsRoute f setup client conn).2 = (onTlsRoute f setup client conn').2) :
    (onTlsRoute f setup client conn).1 = (onTlsRoute f setup client conn').1 ↔ label = label' := by
  constructor
  · intro hl
    have hp : conn.protocol = .http3 ↔ conn'.protocol = .http3 := by
      have hu : ∀ c : ConnectionMeta,
          c.protocol = .http3 ↔ (onTlsRoute f setup client c).2 = .unexpectedProtocol := by
        intro c
        rcases onTlsRoute_verdict f setup client c with ⟨h, hv⟩ | ⟨h, hr⟩
        · exact iff_of_true h hv
        · exact iff_of_false h (fun hv => by rw [hv] at hr; cases hr)
      rw [hu, hu, hv]
    have hd : debugMeta f conn = debugMeta f conn' := by
      unfold onTlsRoute at hl
      by_cases hh : conn.protocol = .http3
      · rw [if_pos hh, if_pos (hp.mp hh)] at hl
        exact logId_append_inj (cons.inj hl).1
      · rw [if_neg hh, if_neg (fun h => hh (hp.mpr h))] at hl
        exact logId_append_inj (cons.inj hl).1
    exact debugMeta_label hstr hlabel hlabel' hc hc' hd
  · rintro rfl
    rw [hc] at hc'
    cases hc'
    rfl

lemma onTlsName_lines_iff (hh : host ∈ setup.demux.mainHosts)
    (hv : (onTlsName f setup client alpn (labelled label host)).2 =
      (onTlsName f setup client alpn (labelled label' host)).2) :
    (onTlsName f setup client alpn (labelled label host)).1 =
        (onTlsName f setup client alpn (labelled label' host)).1 ↔
      ((∃ conn, setup.demux.select alpn (labelled label host) = .ok conn) → label = label') := by
  unfold onTlsName at hv ⊢
  cases hc : setup.demux.select alpn (labelled label host) with
  | error e =>
    cases hc' : setup.demux.select alpn (labelled label' host) with
    | error e' =>
      have hs : e = e' := by
        rw [select_labelled_error hlabel hh hc, select_labelled_error hlabel' hh hc']
      simp [hs]
    | ok conn' =>
      rw [hc, hc'] at hv
      have hne : (onTlsRoute f setup client conn').2 ≠ .unrouted :=
        onTlsRoute_ne f setup client conn' (by decide) rfl
      exact absurd hv.symm hne
  | ok conn =>
    cases hc' : setup.demux.select alpn (labelled label' host) with
    | error =>
      rw [hc, hc'] at hv
      have hne : (onTlsRoute f setup client conn).2 ≠ .unrouted :=
        onTlsRoute_ne f setup client conn (by decide) rfl
      exact absurd hv hne
    | ok =>
      rw [hc, hc'] at hv
      simp only [Except.ok.injEq, exists_eq', forall_const]
      exact onTlsRoute_lines_iff hstr hlabel hlabel' hc hc' hv

lemma onQuicRoute_lines_iff
    (hc : setup.demux.select [utf8 http3Alpn] (labelled label host) = .ok conn)
    (hc' : setup.demux.select [utf8 http3Alpn] (labelled label' host) = .ok conn') :
    (onQuicRoute f setup client conn).1 = (onQuicRoute f setup client conn').1 ↔
      label = label' := by
  constructor
  · intro hl
    have hd := logId_append_inj (cons.inj hl).1
    exact debugMeta_label hstr hlabel hlabel' hc hc' hd
  · rintro rfl
    rw [hc] at hc'
    cases hc'
    rfl

omit hstr hlabel hlabel' in
lemma unseen_iff {k e a r n : Prop} (hk : e → k) (hn : a → (n ↔ (r → e))) :
    k ∧ (a → n) ↔ e ∨ k ∧ ¬ (a ∧ r) := by
  by_cases he : e
  · exact iff_of_true ⟨hk he, fun ha => (hn ha).mpr fun _ => he⟩ (.inl he)
  · by_cases ha : a
    · simp [he, ha, hn ha]
    · simp [he, ha]

/-- **Logs of two labels** are equal if the labels are, or if as many keys are refused and the
name is kept out: they differ in the refused keys and in the dump of a routed connection. -/
lemma connection_lines_iff (hh : host ∈ setup.demux.mainHosts)
    (hv : (connect f x setup client transport (labelled label host)).2 =
      (connect f x setup client transport (labelled label' host)).2) :
    (connect f x setup client transport (labelled label host)).1 =
        (connect f x setup client transport (labelled label' host)).1 ↔
      label = label' ∨ refusedKeys x setup client (labelled label host) =
            refusedKeys x setup client (labelled label' host) ∧
          ¬ (Admitted x setup client (labelled label host) ∧
            ∃ conn, setup.demux.select transport.alpn (labelled label host) = .ok conn) := by
  have hs : scrubSni (labelled label host) = scrubSni (labelled label' host) := by
    rw [scrubSni_labelled hlabel, scrubSni_labelled hlabel']
  cases transport with
  | tls alpn =>
    simp only [connect, onNewTlsConnection, say, hs, append_cancel_left_eq] at hv ⊢
    have hn := onTlsName_ne_denied f setup client alpn (labelled label host)
    have hn' := onTlsName_ne_denied f setup client alpn (labelled label' host)
    rw [underRules_lines_iff hs hn hn' hv]
    refine unseen_iff (fun hl => by rw [hl]) fun ha => ?_
    exact onTlsName_lines_iff hstr hlabel hlabel' hh ((admitted_congr hn hn' hv).2 ha)
  | quic bootstrap hl =>
    obtain ⟨conn, hc⟩ := select_labelled_http3 hlabel hh hl
    obtain ⟨conn', hc'⟩ := select_labelled_http3 hlabel' hh hl
    simp only [connect, onNewQuicConnection, say,
      Core.finalize_of_select (labelled_ne label host) hc,
      Core.finalize_of_select (labelled_ne label' host) hc', select_sni hc,
      select_sni hc', append_cancel_left_eq] at hv ⊢
    rw [underRules_lines_iff hs (ne_denied_of_routed (onQuicRoute_routed f setup client conn))
      (ne_denied_of_routed (onQuicRoute_routed f setup client conn')) hv]
    refine unseen_iff (fun hl => by rw [hl]) fun _ => ?_
    simp [onQuicRoute_lines_iff hstr hlabel hlabel' hc hc', Transport.alpn, hc]

end

end TwoNames

end TrustTunnel.Log
