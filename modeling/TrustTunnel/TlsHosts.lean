import TrustTunnel.Lib.Items
import TrustTunnel.TlsDemultiplexer

/-!
# The TLS hosts (`settings.rs`) and where their names lead

No two hosts have the same name, of whatever kinds.
-/

namespace TrustTunnel.TlsDemultiplexer

open Io Lib List Option
open Lib.Http1 (utf8)

/-! ## Validation -/

inductive ValidationError where
  | mainTlsHostInfo (text : String)
  | pingTlsHostInfo (text : String)
  | speedTlsHostInfo (text : String)
  | reverseProxy (text : String)

/-- `utils::load_certs` and `load_private_key`. -/
structure Files where
  loadCerts : String → Except String Unit
  loadPrivateKey : String → Except String Unit

def Files.loaded : Files := ⟨fun _ => .ok (), fun _ => .ok ()⟩

namespace TlsHostsSettings

def validateTlsHost (files : Files) (uniqueHosts : List String) (h : TlsHostInfo) :
    Except String (List String) := do
  (files.loadCerts h.certChainPath).mapError fun e =>
    "Invalid cert chain: path='" ++ h.certChainPath ++ "', error='" ++ e ++ "'"
  (files.loadPrivateKey h.privateKeyPath).mapError fun e =>
    "Invalid key: path='" ++ h.privateKeyPath ++ "', error='" ++ e ++ "'"
  if h.hostname ∈ uniqueHosts then .error ("Hostname must be unique: " ++ h.hostname)
  else return h.hostname :: uniqueHosts

def validateTlsHosts (files : Files) (hosts : List TlsHostInfo) (uniqueHosts : List String) :
    Except String (List String) :=
  hosts.foldlM (validateTlsHost files) uniqueHosts

def validate (files : Files) (settings : TlsHostsSettings) : Except ValidationError Unit := do
  if settings.mainHosts.isEmpty then .error (.mainTlsHostInfo "Not set")
  else
    let hosts ← (validateTlsHosts files settings.mainHosts []).mapError .mainTlsHostInfo
    let hosts ← (validateTlsHosts files settings.pingHosts hosts).mapError .pingTlsHostInfo
    let hosts ← (validateTlsHosts files settings.speedtestHosts hosts).mapError .speedTlsHostInfo
    let _ ← (validateTlsHosts files settings.reverseProxyHosts hosts).mapError .reverseProxy
    return ()

def hosts (settings : TlsHostsSettings) : List TlsHostInfo :=
  settings.mainHosts ++ settings.pingHosts ++ settings.speedtestHosts ++ settings.reverseProxyHosts

def hostnames (settings : TlsHostsSettings) : List String := settings.hosts.map (·.hostname)

end TlsHostsSettings

open TlsHostsSettings

lemma nodup_of_validateTlsHosts {files : Files} {hosts : List TlsHostInfo}
    {seen names : List String}
    (hs : seen.Nodup) (h : validateTlsHosts files hosts seen = .ok names) :
    names.Nodup ∧ names = (hosts.map (·.hostname)).reverse ++ seen := by
  induction hosts generalizing seen with
  | nil =>
    cases h
    exact ⟨hs, rfl⟩
  | cons host hosts ih =>
    obtain ⟨seen', hh, hr⟩ := bind_eq_ok.mp h
    have hs' : host.hostname ∉ seen ∧ seen' = host.hostname :: seen := by
      unfold validateTlsHost at hh
      obtain ⟨_, -, hh⟩ := bind_eq_ok.mp hh
      obtain ⟨_, -, hh⟩ := bind_eq_ok.mp hh
      split at hh
      · cases hh
      · rename_i hn
        cases hh
        exact ⟨hn, rfl⟩
    obtain ⟨hn, rfl⟩ := hs'
    obtain ⟨hno, hna⟩ := ih (nodup_cons.mpr ⟨hn, hs⟩) hr
    refine ⟨hno, ?_⟩
    rw [hna, map_cons, reverse_cons, append_assoc]
    rfl

/-- **What is validated**: a main host, and distinct names. -/
lemma hostnames_of_validate {files : Files} {settings : TlsHostsSettings}
    (h : settings.validate files = .ok ()) : settings.mainHosts ≠ [] ∧
      settings.hostnames.Nodup := by
  unfold validate at h
  split at h
  · cases h
  · rename_i he
    obtain ⟨main, hm, h⟩ := bind_eq_ok.mp h
    obtain ⟨ping, hp, h⟩ := bind_eq_ok.mp h
    obtain ⟨speedtest, hs, h⟩ := bind_eq_ok.mp h
    obtain ⟨all, ha, -⟩ := bind_eq_ok.mp h
    obtain ⟨hn, rfl⟩ := nodup_of_validateTlsHosts nodup_nil (mapError_eq_ok.mp hm)
    obtain ⟨hn, rfl⟩ := nodup_of_validateTlsHosts hn (mapError_eq_ok.mp hp)
    obtain ⟨hn, rfl⟩ := nodup_of_validateTlsHosts hn (mapError_eq_ok.mp hs)
    obtain ⟨hn, rfl⟩ := nodup_of_validateTlsHosts hn (mapError_eq_ok.mp ha)
    refine ⟨by simpa using he, ?_⟩
    rw [← nodup_reverse]
    simpa [hostnames, TlsHostsSettings.hosts] using hn

/-! ## The hosts of one kind -/

section

variable {list : List TlsHostInfo} {name : String}

def TlsHostInfo.host (info : TlsHostInfo) : Host := ⟨info.certChainPath, info.privateKeyPath, info.allowedSni⟩

lemma mem_makeHosts : name ∈ makeHosts list ↔ ∃ info ∈ list, info.hostname = name := by
  have hm := Table.mem_foldl_insert (·.hostname) TlsHostInfo.host list ∅ name
  exact hm.trans (or_iff_right (AList.notMem_empty name))

lemma lookup_makeHosts (hn : (list.map (·.hostname)).Nodup) :
    (makeHosts list).lookup name = some host ↔
      ∃ info ∈ list, info.hostname = name ∧ info.host = host := by
  have hf : ∀ info ∈ list, (makeHosts list).lookup info.hostname = some info.host := by
    intro info hi
    refine Table.lookup_foldl_insert (·.hostname) TlsHostInfo.host (fun other ho hna => ?_) ∅
      (.inr ⟨info, hi, rfl⟩)
    rw [inj_on_of_nodup_map hn ho hi hna]
  constructor
  · intro h
    obtain ⟨info, hi, rfl⟩ := mem_makeHosts.mp (Table.mem_of_lookup h)
    rw [hf info hi] at h
    exact ⟨info, hi, rfl, some.inj h⟩
  · rintro ⟨info, hi, rfl, rfl⟩
    exact hf info hi

lemma lookup_makeHosts_eq_none :
    (makeHosts list).lookup name = none ↔ name ∉ list.map (·.hostname) := by
  rw [AList.lookup_eq_none, mem_makeHosts, List.mem_map]

end

/-! ## The protocols -/

section

variable {p : Protocol} {ps : List Protocol}

def Settings.listens (settings : Settings) : Protocol → Bool
  | .http1 => settings.http1
  | .http2 => settings.http2
  | .http3 => settings.quic

lemma mem_tunnelProtocols_new {settings : Settings} {hosts : TlsHostsSettings} :
    p ∈ (TlsDemux.new settings hosts).tunnelProtocols ↔ settings.listens p := by
  cases p <;> simp [TlsDemux.new, Settings.listens]

def asAlpn : Protocol → String
  | .http1 => http1Alpn
  | .http2 => http2Alpn
  | .http3 => http3Alpn

lemma fromAlpn_asAlpn (p : Protocol) : fromAlpn (utf8 (asAlpn p)) = some p := by
  cases p <;> rfl

lemma maxProtocol_eq_none_iff : maxProtocol ps = none ↔ ps = [] := by
  cases ps with
  | nil => simp [maxProtocol]
  | cons =>
    simp only [maxProtocol]
    split <;> simp

lemma maxProtocol_spec (h : maxProtocol ps = some p) : p ∈ ps ∧ ∀ q ∈ ps, rank q ≤ rank p := by
  induction ps generalizing p with
  | nil => cases h
  | cons x ps ih =>
    simp only [maxProtocol] at h
    cases hm : maxProtocol ps with
    | none =>
      rw [hm] at h
      cases h
      rw [maxProtocol_eq_none_iff.mp hm]
      simp
    | some y =>
      obtain ⟨hy, hle⟩ := ih hm
      simp only [hm, some.injEq] at h
      subst h
      by_cases hlt : rank y < rank x
      · rw [if_pos hlt]
        refine ⟨mem_cons_self, forall_mem_cons.mpr ⟨Nat.le_refl _, ?_⟩⟩
        intro q hq
        exact (hle q hq).trans hlt.le
      · rw [if_neg hlt]
        exact ⟨mem_cons_of_mem x hy, forall_mem_cons.mpr ⟨Nat.not_lt.mp hlt, hle⟩⟩

lemma rank_injective : Function.Injective rank := by
  intro p q h
  cases p <;> cases q <;> first | rfl | cases h

lemma maxProtocol_eq_some_iff : maxProtocol ps = some p ↔ p ∈ ps ∧ ∀ q ∈ ps, rank q ≤ rank p := by
  refine ⟨maxProtocol_spec, ?_⟩
  rintro ⟨hp, hle⟩
  cases hm : maxProtocol ps with
  | none =>
    rw [maxProtocol_eq_none_iff.mp hm] at hp
    cases hp
  | some q =>
    obtain ⟨hq, hle'⟩ := maxProtocol_spec hm
    rw [rank_injective (Nat.le_antisymm (hle' p hp) (hle q hq))]

end

/-! ## Where a name leads -/

namespace TlsDemux

variable (d : TlsDemux)

/-- The lookups of `route`. -/
def target (sni : String) : Option (Channel × Host × Option String) :=
  match d.mainHosts.lookup sni with
  | some h => some (.tunnel, h, none)
  | none =>
    match d.reverseProxyHosts.lookup sni with
    | some h => some (.reverseProxy, h, none)
    | none =>
      match d.pingHosts.lookup sni with
      | some h => some (.ping, h, none)
      | none =>
        match d.speedtestHosts.lookup sni with
        | some h => some (.speedtest, h, none)
        | none =>
          match d.credentialHost sni with
          | some (h, authCreds) => some (.tunnel, h, some authCreds)
          | none => (d.allowedSniToMainHost.lookup sni).bind fun name =>
              (d.mainHosts.lookup name).map fun h => (.tunnel, h, none)

def selectProtocol (channel : Channel) (parsedAlpn : List Protocol) (alpn : List Bytes) :
    Except String Protocol :=
  match channel with
  | .tunnel => d.selectTunnelChannelProtocol parsedAlpn alpn
  | .reverseProxy => selectReverseProxyProtocol parsedAlpn alpn
  | _ => .ok ((maxProtocol parsedAlpn).getD defaultProtocol)

variable {d}

lemma mem_of_selectTunnelChannelProtocol (h : d.selectTunnelChannelProtocol parsedAlpn alpn =
    .ok p) : p ∈ d.tunnelProtocols := by
  unfold selectTunnelChannelProtocol at h
  split at h
  · rename_i hm
    cases h
    simpa using (mem_filter.mp (maxProtocol_spec hm).1).2
  · split at h
    · rename_i hd
      cases h
      exact hd.1
    · cases h

lemma route_eq (parsedAlpn : List Protocol) (alpn : List Bytes) (sni : String) :
    d.route parsedAlpn alpn sni = match d.target sni with
      | some (channel, host, auth) =>
        (d.selectProtocol channel parsedAlpn alpn).map (fun p => (p, channel, host, auth))
      | none => .error ("Unexpected SNI " ++ sni) := by
  unfold route target
  cases hmain : d.mainHosts.lookup sni with
  | some => rfl
  | none =>
    cases hproxy : d.reverseProxyHosts.lookup sni with
    | some => rfl
    | none =>
      cases hping : d.pingHosts.lookup sni with
      | some => rfl
      | none =>
        cases hspeed : d.speedtestHosts.lookup sni with
        | some => rfl
        | none =>
          cases hcreds : d.credentialHost sni with
          | some => rfl
          | none =>
            simp only
            split
            · rename_i name hn
              obtain ⟨h, hh⟩ := isSome_iff_exists.mp (d.allowed sni name hn)
              simp only [hn, hh, bind_some, map_some, get_some]
              rfl
            · rename_i hn
              rw [hn]
              rfl

/-- **What is selected.** -/
lemma select_eq_ok_iff :
    d.select alpn sni = .ok conn ↔ (alpn.filterMap fromAlpn = [] → alpn = []) ∧
      ∃ channel host auth protocol, d.target sni = some (channel, host, auth) ∧
        d.selectProtocol channel (alpn.filterMap fromAlpn) alpn = .ok protocol ∧
        conn = ⟨sni, protocol, channel, host.certChainPath, host.keyPath, auth⟩ := by
  simp only [select]
  by_cases hpa : alpn.filterMap fromAlpn = [] ∧ alpn ≠ []
  · rw [if_pos hpa]
    refine iff_of_false (fun h => by cases h) ?_
    rintro ⟨h, -⟩
    exact hpa.2 (h hpa.1)
  · rw [if_neg hpa, route_eq]
    have hg : alpn.filterMap fromAlpn = [] → alpn = [] := by
      intro hn
      by_contra hne
      exact hpa ⟨hn, hne⟩
    cases ht : d.target sni with
    | none => simp
    | some target =>
      obtain ⟨channel, host, auth⟩ := target
      simp only
      cases hp : d.selectProtocol channel (alpn.filterMap fromAlpn) alpn with
      | error =>
        refine iff_of_false (fun h => by cases h) ?_
        rintro ⟨-, channel', host', auth', protocol, ht', hp', -⟩
        cases ht'
        rw [hp] at hp'
        cases hp'
      | ok protocol =>
        constructor
        · intro h
          cases h
          exact ⟨hg, channel, host, auth, protocol, rfl, hp, rfl⟩
        · rintro ⟨-, channel', host', auth', protocol', ht', hp', rfl⟩
          cases ht'
          rw [hp] at hp'
          cases hp'
          rfl

end TlsDemux

end TrustTunnel.TlsDemultiplexer
