import TrustTunnel.TlsHosts

/-!
# Alternative names of the main hosts

A main host's other names (`allowed_sni`) are looked up last, after those that carry credentials.
-/

namespace TrustTunnel.TlsDemultiplexer

open Lib TlsDemux Option List
open Lib.Http1 (utf8)

/-- Its connections get to the tunnel with the host's certificate and no credentials. -/
def Works (d : TlsDemux) (info : TlsHostInfo) (sni : String) : Prop :=
  ∀ alpn conn, d.select alpn sni = .ok conn → conn.channel = .tunnel ∧
    conn.certChainPath = info.certChainPath ∧ conn.keyPath = info.privateKeyPath ∧
    conn.sniAuthCreds = none

def AlternativesWork (settings : Settings) (hosts : TlsHostsSettings) : Prop :=
  ∀ info ∈ hosts.mainHosts, ∀ sni ∈ info.allowedSni, sni ∉ hosts.hostnames →
    Works (.new settings hosts) info sni

def parentName (sni : String) : Option String := (Text.splitOnce '.' sni).map Prod.snd

/-- It is no main host's name with a label in front, and its main hosts share certificate and
key. -/
def Unambiguous (hosts : TlsHostsSettings) (sni : String) : Prop :=
  (∀ info ∈ hosts.mainHosts, parentName sni ≠ some info.hostname) ∧
  ∀ info ∈ hosts.mainHosts, ∀ info' ∈ hosts.mainHosts, sni ∈ info.allowedSni → sni ∈ info'.allowedSni →
    info.certChainPath = info'.certChainPath ∧ info.privateKeyPath = info'.privateKeyPath

/-! ## A selection that succeeds -/

lemma select_single {d : TlsDemux} (hp : p ∈ d.tunnelProtocols)
    {host : Host} (ht : d.target sni = some (.tunnel, host, auth)) :
    d.select [utf8 (asAlpn p)] sni =
      .ok ⟨sni, p, .tunnel, host.certChainPath, host.keyPath, auth⟩ := by
  have hpa : [utf8 (asAlpn p)].filterMap fromAlpn = [p] := by
    simp [fromAlpn_asAlpn]
  rw [select_eq_ok_iff, hpa]
  refine ⟨fun h => absurd h (cons_ne_nil p []), .tunnel, host, auth, p, ht, ?_, rfl⟩
  simp [selectProtocol, selectTunnelChannelProtocol, hp, maxProtocol]

/-! ## The target of an alternative -/

section

variable {settings : Settings} {hosts : TlsHostsSettings} {sni : String}

lemma target_of_notMem (hsn : sni ∉ hosts.hostnames) : (new settings hosts).target sni =
      match (new settings hosts).credentialHost sni with
      | some (h, authCreds) => some (.tunnel, h, some authCreds)
      | none => ((collectAllowedSni (makeHosts hosts.mainHosts)).lookup sni).bind fun name =>
          ((makeHosts hosts.mainHosts).lookup name).map fun h => (.tunnel, h, none) := by
  have hn : ∀ list ⊆ hosts.hosts, (makeHosts list).lookup sni = none := by
    intro list hl
    rw [lookup_makeHosts_eq_none]
    intro hme
    obtain ⟨info, hi, rfl⟩ := List.mem_map.mp hme
    exact hsn (List.mem_map.mpr ⟨info, hl hi, rfl⟩)
  have hm : (new settings hosts).mainHosts.lookup sni = none :=
    hn _ fun info h => by simp [TlsHostsSettings.hosts, h]
  have hpi : (new settings hosts).pingHosts.lookup sni = none :=
    hn _ fun info h => by simp [TlsHostsSettings.hosts, h]
  have hs : (new settings hosts).speedtestHosts.lookup sni = none :=
    hn _ fun info h => by simp [TlsHostsSettings.hosts, h]
  have hp : (new settings hosts).reverseProxyHosts.lookup sni = none := by
    simp only [new]
    split
    · exact hn _ fun info h => by simp [TlsHostsSettings.hosts, h]
    · exact AList.lookup_empty sni
  unfold target
  rw [hm, hp, hpi, hs]
  rfl

lemma channel_of_notMem (hs : sni ∉ hosts.hostnames)
    (h : (new settings hosts).target sni = some (channel, host, auth)) : channel = .tunnel := by
  rw [target_of_notMem hs] at h
  split at h
  · cases h
    rfl
  · obtain ⟨name, -, h⟩ := bind_eq_some_iff.mp h
    obtain ⟨_, -, h⟩ := map_eq_some_iff.mp h
    cases h
    rfl

lemma credentialHost_eq_none_iff : (new settings hosts).credentialHost sni = none ↔
      ∀ info ∈ hosts.mainHosts, parentName sni ≠ some info.hostname := by
  have hl : ∀ name, (new settings hosts).mainHosts.lookup name = none ↔
      name ∉ hosts.mainHosts.map (·.hostname) := fun name => lookup_makeHosts_eq_none
  unfold credentialHost parentName
  cases Text.splitOnce '.' sni with
  | none => simp
  | some =>
    simp only [bind_some, map_eq_none_iff, hl, List.mem_map, not_exists, not_and,
      map_some, ne_eq, some.injEq]
    exact forall₂_congr fun info _ => not_congr eq_comm

end

section

variable {settings : Settings} {hosts : TlsHostsSettings} (hnodup : hosts.hostnames.Nodup)

include hnodup

section

variable {sni : String} {info : TlsHostInfo}

lemma nodup_mainHosts : (hosts.mainHosts.map (·.hostname)).Nodup := by
  have hs : (hosts.mainHosts.map (·.hostname)).Sublist hosts.hostnames := by
    refine List.Sublist.map _ ?_
    simp only [TlsHostsSettings.hosts, append_assoc]
    exact sublist_append_left _ _
  exact hnodup.sublist hs

lemma lookup_collectAllowedSni
    (h : (collectAllowedSni (makeHosts hosts.mainHosts)).lookup sni = some name) :
    ∃ info ∈ hosts.mainHosts, sni ∈ info.allowedSni ∧ info.hostname = name := by
  rcases mem_of_lookup_foldl h with hm | hem
  · obtain ⟨⟨name', host⟩, he, hp⟩ := mem_flatMap.mp hm
    obtain ⟨sni', hs', heq⟩ := List.mem_map.mp hp
    cases heq
    obtain ⟨info, hi, hn, rfl⟩ := (lookup_makeHosts (nodup_mainHosts hnodup)).mp
      (AList.mem_lookup_iff.mpr he)
    exact ⟨info, hi, hs', hn⟩
  · cases hem

lemma exists_lookup_collectAllowedSni (hi : info ∈ hosts.mainHosts) (hs : sni ∈ info.allowedSni) :
    ∃ name, (collectAllowedSni (makeHosts hosts.mainHosts)).lookup sni = some name := by
  refine Table.exists_lookup ((Table.mem_foldl_insert Prod.fst Prod.snd _ ∅ sni).mpr (.inr ?_))
  have he : (⟨info.hostname, info.host⟩ : Sigma fun _ : String => Host) ∈
      (makeHosts hosts.mainHosts).entries :=
    AList.mem_lookup_iff.mp ((lookup_makeHosts (nodup_mainHosts hnodup)).mpr ⟨info, hi, rfl, rfl⟩)
  exact ⟨(sni, info.hostname), mem_flatMap.mpr ⟨_, he, List.mem_map.mpr ⟨sni, hs, rfl⟩⟩, rfl⟩

lemma target_of_alternative (hi : info ∈ hosts.mainHosts)
    (ha : sni ∈ info.allowedSni) (hs : sni ∉ hosts.hostnames)
    (hc : (new settings hosts).credentialHost sni = none) :
    ∃ info' ∈ hosts.mainHosts, sni ∈ info'.allowedSni ∧
      (new settings hosts).target sni = some (.tunnel, info'.host, none) := by
  obtain ⟨name, hn⟩ := exists_lookup_collectAllowedSni hnodup hi ha
  obtain ⟨info', hi', ha', rfl⟩ := lookup_collectAllowedSni hnodup hn
  have hh : (makeHosts hosts.mainHosts).lookup info'.hostname = some info'.host :=
    (lookup_makeHosts (nodup_mainHosts hnodup)).mpr ⟨info', hi', rfl, rfl⟩
  refine ⟨info', hi', ha', ?_⟩
  rw [target_of_notMem hs, hc, hn]
  simp [hh]

lemma works_of_unambiguous (hi : info ∈ hosts.mainHosts) (ha : sni ∈ info.allowedSni)
    (hsn : sni ∉ hosts.hostnames) (h : Unambiguous hosts sni) :
    Works (.new settings hosts) info sni := by
  have hc : (new settings hosts).credentialHost sni = none :=
    credentialHost_eq_none_iff.mpr h.1
  obtain ⟨info', hi', ha', ht⟩ :=
    target_of_alternative hnodup hi ha hsn hc
  obtain ⟨hce, hk⟩ := h.2 info' hi' info hi ha' ha
  intro alpn conn hs
  obtain ⟨-, channel, host, auth, protocol, ht', -, rfl⟩ := select_eq_ok_iff.mp hs
  rw [ht] at ht'
  cases ht'
  exact ⟨rfl, hce, hk, rfl⟩

lemma unambiguous_of_works (hp : p ∈ (new settings hosts).tunnelProtocols)
    (hi : info ∈ hosts.mainHosts) (ha : sni ∈ info.allowedSni) (hsn : sni ∉ hosts.hostnames)
    (hw : ∀ info ∈ hosts.mainHosts, sni ∈ info.allowedSni → Works (.new settings hosts) info sni) :
    Unambiguous hosts sni := by
  have hc : (new settings hosts).credentialHost sni = none := by
    cases hc : (new settings hosts).credentialHost sni with
    | none => rfl
    | some x =>
      have ht : (new settings hosts).target sni = some (.tunnel, x.1, some x.2) := by
        rw [target_of_notMem hsn, hc]
      have hn := (hw info hi ha _ _ (select_single hp ht)).2.2.2
      cases hn
  obtain ⟨info'', -, -, ht⟩ := target_of_alternative hnodup hi ha hsn hc
  -- the same connection is made for all the hosts that have the alternative
  have hs : ∀ other ∈ hosts.mainHosts, sni ∈ other.allowedSni →
      info''.certChainPath = other.certChainPath ∧
        info''.privateKeyPath = other.privateKeyPath := by
    intro other ho hm
    obtain ⟨-, hce, hk, -⟩ := hw other ho hm _ _ (select_single hp ht)
    exact ⟨hce, hk⟩
  refine ⟨credentialHost_eq_none_iff.mp hc, ?_⟩
  intro info hi info' hi' hm hm'
  obtain ⟨hce, hk⟩ := hs info hi hm
  obtain ⟨hce', hk'⟩ := hs info' hi' hm'
  exact ⟨hce.symm.trans hce', hk.symm.trans hk'⟩

end

end

/-- **Validated alternatives** work if and only if no protocol is listened to or each is
unambiguous. -/
theorem alternatives_work_iff (files : Files) (settings : Settings) (hosts : TlsHostsSettings)
    (hvalid : hosts.validate files = .ok ()) :
    AlternativesWork settings hosts ↔ ((∃ p, settings.listens p = true) →
        ∀ info ∈ hosts.mainHosts, ∀ sni ∈ info.allowedSni, sni ∉ hosts.hostnames →
          Unambiguous hosts sni) := by
  have hnodup := (hostnames_of_validate hvalid).2
  constructor
  · rintro hw ⟨p, hp⟩ info hi sni ha hsn
    refine unambiguous_of_works hnodup (mem_tunnelProtocols_new.mpr hp) hi ha hsn ?_
    exact fun other ho hm => hw other ho sni hm hsn
  · intro h info hi sni ha hsn alpn conn hs
    obtain ⟨-, channel, host, auth, protocol, ht, hpr, -⟩ :=
      select_eq_ok_iff.mp hs
    obtain rfl := channel_of_notMem hsn ht
    have hl := mem_tunnelProtocols_new.mp (mem_of_selectTunnelChannelProtocol hpr)
    exact works_of_unambiguous hnodup hi ha hsn
      (h ⟨protocol, hl⟩ info hi sni ha hsn) alpn conn hs

def vpnHosts : TlsHostsSettings := ⟨[⟨"vpn.example.org", "vpn.pem", "vpn.key", ["cdn.example.com"]⟩], [], [], []⟩

theorem vpnHosts_alternatives_work : vpnHosts.validate .loaded = .ok () ∧
    AlternativesWork ⟨true, true, true, false⟩ vpnHosts := by
  refine ⟨rfl, (alternatives_work_iff .loaded _ vpnHosts rfl).mpr fun _ => ?_⟩
  have hp : parentName "cdn.example.com" = some "example.com" := by decide
  simp [vpnHosts, Unambiguous, hp]

/-- Its alternative is also another main host's name with a label in front. -/
def subdomainHosts : TlsHostsSettings :=
  ⟨[⟨"vpn.example.org", "vpn.pem", "vpn.key", ["cdn.example.com"]⟩,
    ⟨"example.com", "main.pem", "main.key", []⟩], [], [], []⟩

def sharedHosts : TlsHostsSettings :=
  ⟨[⟨"vpn.example.org", "vpn.pem", "vpn.key", ["cdn.example.com"]⟩,
    ⟨"vpn.example.net", "net.pem", "net.key", ["cdn.example.com"]⟩], [], [], []⟩

/-- The label is taken for credentials, and one of two hosts gets the other's connections. -/
theorem alternative_taken_for_credentials :
    subdomainHosts.validate .loaded = .ok () ∧ sharedHosts.validate .loaded = .ok () ∧
    (new ⟨true, true, true, false⟩ subdomainHosts).select [utf8 http2Alpn] "cdn.example.com" =
      .ok ⟨"cdn.example.com", .http2, .tunnel, "main.pem", "main.key", some "cdn"⟩ ∧
    (new ⟨true, true, true, false⟩ sharedHosts).select [utf8 http2Alpn] "cdn.example.com" =
      .ok ⟨"cdn.example.com", .http2, .tunnel, "vpn.pem", "vpn.key", none⟩ := by
  refine ⟨rfl, rfl, ?_, ?_⟩ <;> decide

end TrustTunnel.TlsDemultiplexer
