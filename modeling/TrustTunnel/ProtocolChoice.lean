import TrustTunnel.Admission
import TrustTunnel.RequestRouting
import TrustTunnel.TlsHosts

/-!
# The choice of a protocol over TCP (`core.rs`)

The demultiplexer takes the highest protocol the channel can use; that can be HTTP/3, or one that
is not listened to.
-/

namespace TrustTunnel.Core

open Io Lib NetUtils Rules TlsDemultiplexer TlsDemux RulesEngine List RequestRouting Option
open Lib.Http1 (utf8)

/-! ## The protocols of a channel -/

def usable (d : TlsDemux) (channel : Channel) (p : Protocol) : Bool :=
  match channel with
  | .tunnel => p ∈ d.tunnelProtocols
  | .reverseProxy => p = .http1 ∨ p = .http3
  | _ => true

variable {d : TlsDemux} {channel : Channel} {host : Host} {auth : Option String} {sni : String}
  {alpn : List Bytes}

lemma fromAlpn_eq_some_iff : fromAlpn a = some p ↔ a = utf8 (asAlpn p) := by
  refine ⟨?_, fun h => h ▸ fromAlpn_asAlpn p⟩
  intro h
  unfold fromAlpn at h
  split at h
  · cases h
    assumption
  · split at h
    · cases h
      assumption
    · split at h
      · cases h
        assumption
      · cases h

lemma mem_parsed_iff : p ∈ alpn.filterMap fromAlpn ↔ utf8 (asAlpn p) ∈ alpn := by
  simp [mem_filterMap, fromAlpn_eq_some_iff]

def Offered (d : TlsDemux) (channel : Channel) (alpn : List Bytes) (p : Protocol) : Prop :=
  utf8 (asAlpn p) ∈ alpn ∧ usable d channel p = true

lemma mem_filter_usable :
    p ∈ (alpn.filterMap fromAlpn).filter (usable d channel) ↔ Offered d channel alpn p := by
  rw [mem_filter, mem_parsed_iff, Offered]

lemma selectProtocol_iff {p q : Protocol} (hp : Offered d channel alpn p) :
    d.selectProtocol channel (alpn.filterMap fromAlpn) alpn = .ok q ↔
      maxProtocol ((alpn.filterMap fromAlpn).filter (usable d channel)) = some q := by
  have hs : ∃ r, maxProtocol ((alpn.filterMap fromAlpn).filter (usable d channel)) = some r := by
    refine ne_none_iff_exists'.mp fun hn => ?_
    exact ne_nil_of_mem (mem_filter_usable.mpr hp) (maxProtocol_eq_none_iff.mp hn)
  obtain ⟨r, hr⟩ := hs
  rw [hr]
  cases channel with
  | tunnel =>
    have hm : maxProtocol ((alpn.filterMap fromAlpn).filter fun x => x ∈ d.tunnelProtocols) =
      some r := hr
    simp only [selectProtocol, selectTunnelChannelProtocol, hm, Except.ok.injEq, some.injEq]
  | reverseProxy =>
    have hm : maxProtocol ((alpn.filterMap fromAlpn).filter fun x => x = .http1 ∨ x = .http3) =
      some r := hr
    simp only [selectProtocol, selectReverseProxyProtocol, hm, Except.ok.injEq, some.injEq]
  | ping | speedtest | subscription =>
    have hm : maxProtocol (alpn.filterMap fromAlpn) = some r := by
      rw [← hr]
      exact congrArg maxProtocol (filter_eq_self.mpr fun _ _ => rfl).symm
    simp only [selectProtocol, hm, getD_some, Except.ok.injEq, some.injEq]

/-- **What is selected** from a list with a protocol that can be used. -/
lemma select_iff_of_usable (ht : d.target sni = some (channel, host, auth))
    (hp : Offered d channel alpn p) : d.select alpn sni = .ok conn ↔ ∃ q, Offered d channel alpn q ∧
      (∀ r, Offered d channel alpn r → rank r ≤ rank q) ∧
      conn = ⟨sni, q, channel, host.certChainPath, host.keyPath, auth⟩ := by
  have hg : alpn.filterMap fromAlpn = [] → alpn = [] := by
    intro hn
    exact absurd hn (ne_nil_of_mem (mem_parsed_iff.mpr hp.1))
  rw [select_eq_ok_iff]
  constructor
  · rintro ⟨-, channel', host', auth', q, ht', hq, rfl⟩
    rw [ht] at ht'
    cases ht'
    obtain ⟨hm, hle⟩ := maxProtocol_eq_some_iff.mp ((selectProtocol_iff hp).mp hq)
    exact ⟨q, mem_filter_usable.mp hm, fun r hr => hle r (mem_filter_usable.mpr hr), rfl⟩
  · rintro ⟨q, hq, hle, rfl⟩
    refine ⟨hg, channel, host, auth, q, ht, (selectProtocol_iff hp).mpr ?_, rfl⟩
    exact maxProtocol_eq_some_iff.mpr
      ⟨mem_filter_usable.mpr hq, fun r hr => hle r (mem_filter_usable.mp hr)⟩

/-! ## The order of the list -/

lemma maxProtocol_congr (h : ∀ p, p ∈ ps ↔ p ∈ qs) : maxProtocol ps = maxProtocol qs := by
  ext p
  simp [maxProtocol_eq_some_iff, h]

lemma select_congr (h : ∀ a, a ∈ alpn ↔ a ∈ alpn') : d.select alpn sni = d.select alpn' sni := by
  have hn : alpn = [] ↔ alpn' = [] := by
    simp [eq_nil_iff_forall_not_mem, h]
  have hp : ∀ p, p ∈ alpn.filterMap fromAlpn ↔ p ∈ alpn'.filterMap fromAlpn := by
    intro p
    rw [mem_parsed_iff, mem_parsed_iff, h]
  have hf : ∀ f : Protocol → Bool, maxProtocol ((alpn.filterMap fromAlpn).filter f) =
      maxProtocol ((alpn'.filterMap fromAlpn).filter f) := by
    intro f
    exact maxProtocol_congr fun p => by rw [mem_filter, mem_filter, hp]
  have hpr : ∀ channel, d.selectProtocol channel (alpn.filterMap fromAlpn) alpn =
      d.selectProtocol channel (alpn'.filterMap fromAlpn) alpn' := by
    intro channel
    cases channel with
    | tunnel =>
      simp [selectProtocol, selectTunnelChannelProtocol, hf, hn]
    | reverseProxy =>
      simp [selectProtocol, selectReverseProxyProtocol, hf, hn]
    | ping | speedtest | subscription =>
      simp [selectProtocol, maxProtocol_congr hp]
  have he : alpn.filterMap fromAlpn = [] ↔ alpn'.filterMap fromAlpn = [] := by
    simp [eq_nil_iff_forall_not_mem, hp]
  simp [select, route_eq, he, hn, hpr]

/-! ## Over TCP -/

/-- **The choice over TCP** is HTTP/1 or HTTP/2 if and only if HTTP/3 is not in the list or
cannot be used. -/
theorem tcp_choice_iff (x : Crates) (rulesEngine : Option RulesEngine) (d : TlsDemux) (sni : String)
    (alpn : List Bytes) :
    (∀ peer clientRandom channel host auth p, d.target sni = some (channel, host, auth) →
      evaluateConnectionRules x rulesEngine (some (unmapIpv6 peer.ip)) clientRandom (some sni) =
        .ok () →
      p ≠ .http3 → Offered d channel alpn p →
      ((∃ conn, onNewTlsConnection x rulesEngine d peer clientRandom alpn (some sni) = .ok conn ∧
          conn.protocol ≠ .http3 ∧ utf8 (asAlpn conn.protocol) ∈ alpn) ↔
        ¬ Offered d channel alpn .http3)) ∧
    ∀ alpn', alpn.Perm alpn' → ∀ conn, d.select alpn sni = .ok conn ↔
      d.select alpn' sni = .ok conn := by
  refine ⟨?_, ?_⟩
  · intro peer clientRandom channel host auth p ht ha hne hp
    simp only [onNewTlsConnection_eq_ok_iff, some.injEq, exists_eq_left', ha, true_and,
      select_iff_of_usable ht hp]
    constructor
    · rintro ⟨conn, ⟨⟨q, -, hle, rfl⟩, hq3⟩, -, -⟩ h3
      -- nothing is above HTTP/3
      have hra : rank .http3 ≤ rank q := hle .http3 h3
      cases q with
      | http1 | http2 => cases hra <;> contradiction
      | http3 => exact hq3 rfl
    · intro h3
      obtain ⟨q, hq⟩ := ne_none_iff_exists'.mp fun hn =>
        ne_nil_of_mem (mem_filter_usable.mpr hp) (maxProtocol_eq_none_iff.mp hn)
      obtain ⟨hm, hle⟩ := maxProtocol_eq_some_iff.mp hq
      have ho := mem_filter_usable.mp hm
      have hq3 : q ≠ .http3 := by
        rintro rfl
        exact h3 ho
      exact ⟨_, ⟨⟨q, ho, fun r hr => hle r (mem_filter_usable.mpr hr), rfl⟩, hq3⟩, hq3, ho.1⟩
  · intro alpn' hpe conn
    rw [select_congr fun a => hpe.mem_iff]

/-- HTTP/2 is taken over HTTP/1, whatever else the client names. -/
theorem http2_chosen :
    vpnDemux.target "vpn.example" = some (.tunnel, ⟨"cert.pem", "key.pem", []⟩, none) ∧
    ∃ conn, onNewTlsConnection keyless none vpnDemux peerAddr none
        [utf8 "http/1.1", [0xff], utf8 "h2", utf8 "h2"] (some "vpn.example") = .ok conn ∧
      conn.protocol ≠ .http3 ∧
      utf8 (asAlpn conn.protocol) ∈ [utf8 "http/1.1", [0xff], utf8 "h2", utf8 "h2"] := by
  have ht : vpnDemux.target "vpn.example" = some (.tunnel, ⟨"cert.pem", "key.pem", []⟩, none) := by
    rfl
  refine ⟨ht, ((tcp_choice_iff keyless none vpnDemux "vpn.example" _).1 peerAddr none
    .tunnel _ none .http2 ht rfl (by decide) ⟨by decide, by decide⟩).mpr ?_⟩
  rintro ⟨h3, -⟩
  exact absurd h3 (by decide)

/-- A client that also names HTTP/3 is dropped, in any order. -/
theorem http3_named_dropped :
    onNewTlsConnection keyless none vpnDemux peerAddr none [utf8 "h2", utf8 "h3"]
      (some "vpn.example") = .error "Dropping connection due to unexpected protocol: " ∧
    onNewTlsConnection keyless none vpnDemux peerAddr none [utf8 "h3", utf8 "h2"]
      (some "vpn.example") = .error "Dropping connection due to unexpected protocol: " ∧
    onNewTlsConnection keyless none vpnDemux peerAddr none [utf8 "h2"]
      (some "vpn.example") = .ok ⟨"vpn.example", .http2, .tunnel, "cert.pem", "key.pem", none⟩ := by
  refine ⟨?_, ?_, ?_⟩ <;> rfl

/-! ## The codec -/

inductive Codec where
  | http1
  | http2

/-- The `unwrap` in the constructors of the codecs. -/
def configured (settings : RequestRouting.Settings) : Protocol → Bool
  | .http1 => settings.http1
  | .http2 => settings.http2
  | .http3 => settings.quic

/-- `make_tcp_http_codec`; it panics where there is no result. -/
def makeTcpHttpCodec (protocol : Protocol) (settings : RequestRouting.Settings)
    (peerAddr : Except String SocketAddr) : Option (Except String Codec) :=
  match protocol with
  | .http1 => if settings.http1 then some (.ok .http1) else none
  | .http2 => if settings.http2 then some (peerAddr.map fun _ => .http2) else none
  | .http3 => none

def tlsSettings (settings : RequestRouting.Settings) : TlsDemultiplexer.Settings :=
  ⟨settings.http1, settings.http2, settings.quic, settings.reverseProxy.isSome⟩

/-- `listen_tcp` goes on with a connection only with this. -/
def hasTcpBasedCodec (settings : RequestRouting.Settings) : Bool := settings.http1 || settings.http2

def TcpAccepts (x : Crates) (rulesEngine : Option RulesEngine) (settings : RequestRouting.Settings)
    (hosts : TlsHostsSettings) (peer : SocketAddr) (clientRandom : Option Bytes) (alpn : List Bytes)
    (sni : Option String) (conn : ConnectionMeta) : Prop :=
  hasTcpBasedCodec settings = true ∧
  onNewTlsConnection x rulesEngine (.new (tlsSettings settings) hosts) peer clientRandom alpn sni = .ok conn

def CodecSettingsPresent (settings : RequestRouting.Settings) (hosts : TlsHostsSettings) : Prop :=
  ∀ x rulesEngine peer clientRandom alpn sni conn,
    TcpAccepts x rulesEngine settings hosts peer clientRandom alpn sni conn →
      configured settings conn.protocol = true ∧
      ∀ peerAddr, (makeTcpHttpCodec conn.protocol settings peerAddr).isSome = true

lemma isSome_makeTcpHttpCodec (hp : p ≠ .http3)
    (h : configured settings p) (peerAddr : Except String SocketAddr) :
    (makeTcpHttpCodec p settings peerAddr).isSome := by
  cases p with
  | http1 | http2 =>
    simp only [configured] at h
    simp [makeTcpHttpCodec, h]
  | http3 => exact absurd rfl hp

/-! ## The hosts of a channel -/

section

variable {settings : TlsDemultiplexer.Settings} {hosts : TlsHostsSettings}

def channelHosts (settings : TlsDemultiplexer.Settings) (hosts : TlsHostsSettings) :
    Channel → List TlsHostInfo
  | .tunnel => []
  | .reverseProxy => if settings.reverseProxy then hosts.reverseProxyHosts else []
  | .ping => hosts.pingHosts
  | .speedtest => hosts.speedtestHosts
  | .subscription => []

lemma ne_nil_of_lookup (h : (makeHosts list).lookup sni = some host) : list ≠ [] := by
  rintro rfl
  cases h

lemma channelHosts_of_target (h : (new settings hosts).target sni = some (channel, host, auth)) :
    channel = .tunnel ∨ channelHosts settings hosts channel ≠ [] := by
  unfold target at h
  split at h
  · cases h
    exact .inl rfl
  · split at h
    · rename_i hl
      cases h
      refine .inr ?_
      simp only [new] at hl
      simp only [channelHosts]
      split at hl
      · rename_i hp
        rw [if_pos hp]
        exact ne_nil_of_lookup hl
      · cases hl
    · split at h
      · rename_i hl
        cases h
        exact .inr (ne_nil_of_lookup hl)
      · split at h
        · rename_i hl
          cases h
          exact .inr (ne_nil_of_lookup hl)
        · split at h
          · cases h
            exact .inl rfl
          · obtain ⟨name, -, h⟩ := bind_eq_some_iff.mp h
            obtain ⟨_, -, h⟩ := map_eq_some_iff.mp h
            cases h
            exact .inl rfl

lemma exists_lookup_makeHosts (h : info ∈ list) :
    ∃ host, (makeHosts list).lookup info.hostname = some host :=
  Table.exists_lookup (mem_makeHosts.mpr ⟨info, h, rfl⟩)

lemma target_of_channelHosts (hn : hosts.hostnames.Nodup)
    (h : channelHosts settings hosts channel ≠ []) :
    ∃ sni host, (new settings hosts).target sni = some (channel, host, none) := by
  obtain ⟨info, hi⟩ := exists_mem_of_ne_nil _ h
  have hme : ∀ {list : List TlsHostInfo}, info ∈ list → info.hostname ∈ list.map (·.hostname) :=
    fun h => List.mem_map.mpr ⟨info, h, rfl⟩
  simp only [TlsHostsSettings.hostnames, TlsHostsSettings.hosts, map_append, nodup_append,
    mem_append] at hn
  obtain ⟨⟨⟨-, -, hpin⟩, -, hs⟩, -, hpr⟩ := hn
  have hp : info.hostname ∉ hosts.reverseProxyHosts.map (·.hostname) →
      (new settings hosts).reverseProxyHosts.lookup info.hostname = none := by
    intro hno
    simp only [new]
    split
    · exact lookup_makeHosts_eq_none.mpr hno
    · exact AList.lookup_empty _
  cases channel with
  | tunnel | subscription => cases hi
  | reverseProxy =>
    simp only [channelHosts, mem_ite_nil_right] at hi
    obtain ⟨host, hh⟩ := exists_lookup_makeHosts hi.2
    have hm : (new settings hosts).mainHosts.lookup info.hostname = none :=
      lookup_makeHosts_eq_none.mpr fun hm =>
        hpr _ (.inl (.inl hm)) _ (hme hi.2) rfl
    have ht : (new settings hosts).reverseProxyHosts.lookup info.hostname = some host := by
      simp [new, if_pos hi.1, hh]
    exact ⟨info.hostname, host, by simp only [target, hm, ht]⟩
  | ping =>
    obtain ⟨host, hh⟩ := exists_lookup_makeHosts hi
    have hm : (new settings hosts).mainHosts.lookup info.hostname = none :=
      lookup_makeHosts_eq_none.mpr fun hm => hpin _ hm _ (hme hi) rfl
    have ht : (new settings hosts).pingHosts.lookup info.hostname = some host := hh
    have hnon := hp fun h => hpr _ (.inl (.inr (hme hi))) _ h rfl
    exact ⟨info.hostname, host, by simp only [target, hm, hnon, ht]⟩
  | speedtest =>
    obtain ⟨host, hh⟩ := exists_lookup_makeHosts hi
    have hm : (new settings hosts).mainHosts.lookup info.hostname = none :=
      lookup_makeHosts_eq_none.mpr fun hm => hs _ (.inl hm) _ (hme hi) rfl
    have hpi : (new settings hosts).pingHosts.lookup info.hostname = none :=
      lookup_makeHosts_eq_none.mpr fun h => hs _ (.inr h) _ (hme hi) rfl
    have ht : (new settings hosts).speedtestHosts.lookup info.hostname = some host := hh
    have hnon := hp fun h => hpr _ (.inr (hme hi)) _ h rfl
    exact ⟨info.hostname, host, by simp only [target, hm, hnon, hpi, ht]⟩

end

section

variable {settings : RequestRouting.Settings} {hosts : TlsHostsSettings} {p : Protocol}

lemma tcpAccepts_single (ht : hasTcpBasedCodec settings)
    (htg : (new (tlsSettings settings) hosts).target sni = some (channel, host, auth))
    (hp : p ≠ .http3) (hu : usable (.new (tlsSettings settings) hosts) channel p)
    (peer : SocketAddr) :
    TcpAccepts keyless none settings hosts peer none [utf8 (asAlpn p)] (some sni)
      ⟨sni, p, channel, host.certChainPath, host.keyPath, auth⟩ := by
  have ho : Offered (.new (tlsSettings settings) hosts) channel [utf8 (asAlpn p)] p :=
    ⟨mem_singleton_self _, hu⟩
  refine ⟨ht, onNewTlsConnection_eq_ok_iff.mpr ⟨sni, rfl, rfl, ?_, hp⟩⟩
  refine (select_iff_of_usable htg ho).mpr ⟨p, ho, ?_, rfl⟩
  rintro r ⟨hr, -⟩
  have hs : fromAlpn (utf8 (asAlpn r)) = some p := by
    rw [mem_singleton.mp hr, fromAlpn_asAlpn]
  rw [fromAlpn_asAlpn, some.injEq] at hs
  rw [hs]

lemma usable_of_selectProtocol
    (h : d.selectProtocol channel parsedAlpn alpn = .ok p) : usable d channel p := by
  cases channel with
  | tunnel => simpa [usable] using mem_of_selectTunnelChannelProtocol h
  | reverseProxy =>
    simp only [selectProtocol, selectReverseProxyProtocol] at h
    split at h
    · rename_i hm
      cases h
      exact (mem_filter.mp (maxProtocol_spec hm).1).2
    · split at h
      · cases h
        rfl
      · cases h
  | ping | speedtest | subscription => rfl

lemma configured_of_tunnel (hu : usable (.new (tlsSettings settings) hosts) .tunnel p) :
    configured settings p := by
  have hl : (tlsSettings settings).listens p :=
    mem_tunnelProtocols_new.mp (of_decide_eq_true hu)
  cases p <;> exact hl

lemma configured_of_channelHosts (hs : hosts.pingHosts ≠ [] ∨ hosts.speedtestHosts ≠ [] →
      settings.http1 ∧ settings.http2)
    (hpr : settings.reverseProxy.isSome ∧ hosts.reverseProxyHosts ≠ [] →
      settings.http1) (hp : p ≠ .http3) (hu : usable d channel p)
    (hh : channelHosts (tlsSettings settings) hosts channel ≠ []) : configured settings p := by
  have hb : settings.http1 ∧ settings.http2 → configured settings p := by
    rintro ⟨h1, h2⟩
    cases p with
    | http1 => exact h1
    | http2 => exact h2
    | http3 => exact absurd rfl hp
  cases channel with
  | tunnel | subscription => exact absurd rfl hh
  | ping => exact hb (hs (.inl hh))
  | speedtest => exact hb (hs (.inr hh))
  | reverseProxy =>
    simp only [usable, decide_eq_true_eq] at hu
    obtain rfl := hu.resolve_right hp
    simp only [channelHosts] at hh
    split at hh
    · rename_i hse
      exact hpr ⟨hse, hh⟩
    · exact absurd rfl hh

/-- **The codecs.** HTTP/1 and 2 must be set where there are hosts for pings or speed tests, and
HTTP/1 for the reverse proxy. -/
theorem codec_settings_iff (files : Files) (settings : RequestRouting.Settings)
    (hosts : TlsHostsSettings) (hvalid : hosts.validate files = .ok ()) :
    CodecSettingsPresent settings hosts ↔ (hasTcpBasedCodec settings = true →
      (hosts.pingHosts ≠ [] ∨ hosts.speedtestHosts ≠ [] →
        settings.http1 = true ∧ settings.http2 = true) ∧
      (settings.reverseProxy.isSome = true ∧ hosts.reverseProxyHosts ≠ [] →
        settings.http1 = true)) := by
  have hn := (hostnames_of_validate hvalid).2
  constructor
  · intro hpre ht
    -- a client can have each protocol that can be used on a channel with hosts
    have hc : ∀ channel p, channelHosts (tlsSettings settings) hosts channel ≠ [] →
        p ≠ .http3 → usable (.new (tlsSettings settings) hosts) channel p →
        configured settings p := by
      intro channel p hh hp hu
      obtain ⟨sni, host, htg⟩ := target_of_channelHosts hn hh
      exact (hpre _ _ _ _ _ _ _ (tcpAccepts_single ht htg hp hu peerAddr)).1
    refine ⟨?_, ?_⟩
    · rintro (hpi | hs)
      · exact ⟨hc .ping .http1 hpi (by decide) rfl, hc .ping .http2 hpi (by decide) rfl⟩
      · exact ⟨hc .speedtest .http1 hs (by decide) rfl, hc .speedtest .http2 hs (by decide) rfl⟩
    · rintro ⟨hpr, hh⟩
      refine hc .reverseProxy .http1 ?_ (by decide) rfl
      simpa only [channelHosts, tlsSettings, hpr, if_true] using hh
  · rintro h x rulesEngine peer clientRandom alpn sni conn ⟨ht, ha⟩
    obtain ⟨name, -, -, hsel, hpro⟩ := onNewTlsConnection_eq_ok_iff.mp ha
    obtain ⟨-, channel, host, auth, p, htg, hp, rfl⟩ := select_eq_ok_iff.mp hsel
    have hu := usable_of_selectProtocol hp
    obtain ⟨hse, hpr⟩ := h ht
    have hc : configured settings p := by
      rcases channelHosts_of_target htg with rfl | hh
      · exact configured_of_tunnel hu
      · exact configured_of_channelHosts hse hpr hpro hu hh
    exact ⟨hc, isSome_makeTcpHttpCodec hpro hc⟩

def serviceHosts : TlsHostsSettings :=
  ⟨[⟨"vpn.example", "vpn.pem", "vpn.key", []⟩], [⟨"ping.vpn.example", "ping.pem", "ping.key", []⟩],
    [⟨"speed.vpn.example", "speed.pem", "speed.key", []⟩], [⟨"site.example", "site.pem", "site.key", []⟩]⟩

theorem everyService_codec_settings : serviceHosts.validate .loaded = .ok () ∧
    CodecSettingsPresent everyService serviceHosts :=
  ⟨rfl, (codec_settings_iff .loaded everyService serviceHosts rfl).mpr
    fun _ => ⟨fun _ => ⟨rfl, rfl⟩, fun _ => rfl⟩⟩

/-- With HTTP/1 unset, clients still get it on these hosts. -/
theorem codec_settings_missing :
    ({ everyService with http1 := false } : RequestRouting.Settings).validate = .ok () ∧
    serviceHosts.validate .loaded = .ok () ∧
    TcpAccepts keyless none { everyService with http1 := false } serviceHosts
      peerAddr none [] (some "ping.vpn.example")
      ⟨"ping.vpn.example", .http1, .ping, "ping.pem", "ping.key", none⟩ ∧
    TcpAccepts keyless none { everyService with http1 := false } serviceHosts
      peerAddr none [utf8 "http/1.1"] (some "site.example")
      ⟨"site.example", .http1, .reverseProxy, "site.pem", "site.key", none⟩ ∧
    makeTcpHttpCodec .http1 { everyService with http1 := false } (.ok peerAddr) = none := by
  refine ⟨by decide +kernel, rfl, ⟨rfl, ?_⟩, ⟨rfl, ?_⟩, rfl⟩ <;> rfl

end

end TrustTunnel.Core
