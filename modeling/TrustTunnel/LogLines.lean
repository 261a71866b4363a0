import TrustTunnel.Lib.Items
import TrustTunnel.TcpEgress
import TrustTunnel.TlsDemultiplexer

/-!
# Lines of the log (`log_utils.rs`, `net_utils.rs`, `tls_demultiplexer.rs`)

What is written of connections and requests, and what is taken out before. The texts of other
crates are parameters. Two requests that differ in their secrets are scrubbed alike
(`scrubRequest_eq`); two labels show in the dump of a connection (`debugMeta_label`).
-/

namespace TrustTunnel.Log

open Io Http Lib TlsDemultiplexer String
open Lib.Http1 (utf8)
open NetUtils (IpAddr)

inductive Level where
  | error
  | warn
  | info
  | debug
  | trace
  deriving DecidableEq

structure Line where
  level : Level
  text : String
  deriving DecidableEq

/-- `log_id!`. -/
def logId (level : Level) (id text : String) : Line := ⟨level, "[" ++ id ++ "] " ++ text⟩

/-- `Display` of addresses and URIs, and `Debug` of a text, a destination and
`http::request::Parts`. -/
structure Formats where
  ip : IpAddr → String
  uri : Uri → String
  str : String → String
  destination : TcpDestination → String
  parts : RequestHeaders → String

/-! ## Scrubbing -/

def scrubSni (sni : String) : String :=
  match Text.splitOnce '.' sni with
  | some (_, rest) => scrubbedPlaceholder ++ "." ++ rest
  | none => sni

/-! ## Dumps -/

def debugProtocol : Protocol → String
  | .http1 => "Http1"
  | .http2 => "Http2"
  | .http3 => "Http3"

def debugChannel : Channel → String
  | .tunnel => "Tunnel"
  | .ping => "Ping"
  | .speedtest => "Speedtest"
  | .reverseProxy => "ReverseProxy"
  | .subscription => "Subscription"

def debugCreds (f : Formats) : Option String → String
  | none => "None"
  | some creds => "Some(" ++ f.str creds ++ ")"

/-- `ConnectionMeta::fmt`. -/
def debugMeta (f : Formats) (conn : ConnectionMeta) : String :=
  let sniRef := if conn.sniAuthCreds.isSome then scrubSni conn.sni else conn.sni
  "ConnectionMeta \x7b sni: \"" ++ sniRef ++ "\", protocol: " ++ debugProtocol conn.protocol
    ++ ", channel: " ++ debugChannel conn.channel ++ ", sni_auth_creds: "
    ++ debugCreds f conn.sniAuthCreds ++ " \x7d"

/-! ## Requests that differ in their secrets -/

def DifferIn (names : List String) (h h' : Header) : Prop :=
  h.name = h'.name ∧ (h.name ∈ names ∨ h.value = h'.value)

/-- Two requests that differ in the values taken out. -/
structure Differ (request request' : RequestHeaders) : Prop where
  method : request.method = request'.method
  uri : request.uri = request'.uri
  version : request.version = request'.version
  headers : List.Forall₂ (DifferIn (scrubbed.map Header.name)) request.headers request'.headers

section Scrubbing

variable {names : List String} {headers headers' : List Header}

lemma DifferIn.of_ne (hd : DifferIn (name :: names) h h')
    (hn : h.name ≠ name) : DifferIn names h h' :=
  ⟨hd.1, hd.2.imp_left (fun hm => (List.mem_cons.mp hm).resolve_left hn)⟩

lemma insertHeader_forall₂ (header : Header)
    (hn : ∀ h h', R h h' → h.name = h'.name) (hs : S header header)
    (ho : ∀ h h', R h h' → h.name ≠ header.name → S h h') (h : List.Forall₂ R headers headers') :
    List.Forall₂ S (insertHeader header headers) (insertHeader header headers') := by
  have hf : ∀ {headers headers' : List Header}, List.Forall₂ R headers headers' →
      List.Forall₂ S (headers.filter (fun x => x.name ≠ header.name))
        (headers'.filter (fun x => x.name ≠ header.name)) := by
    intro headers headers' h
    induction h with
    | nil => exact .nil
    | @cons h h' headers headers' hh _ ih =>
      rw [List.filter_cons, List.filter_cons, ← hn h h' hh]
      split
      · rename_i hne
        exact .cons (ho h h' hh (of_decide_eq_true hne)) ih
      · exact ih
  induction h with
  | nil => exact .cons hs .nil
  | @cons h h' headers headers' hh ht ih =>
    rw [insertHeader, insertHeader, ← hn h h' hh]
    split
    · exact .cons hs (hf ht)
    · rename_i hne
      exact .cons (ho h h' hh hne) ih

lemma scrubHeader_differ (header : Header)
    (h : List.Forall₂ (DifferIn (header.name :: names)) headers headers') :
    List.Forall₂ (DifferIn names) (scrubHeader headers header) (scrubHeader headers' header) := by
  have hn : headers.map Header.name = headers'.map Header.name :=
    List.forall₂_eq_eq_eq ▸ List.forall₂_map_left_iff.mpr (List.forall₂_map_right_iff.mpr
      (h.imp (fun _ _ hh => hh.1)))
  have ha : ∀ l : List Header, l.any (fun x => x.name = header.name) =
      (l.map Header.name).any (fun name => name = header.name) := fun l => by
    rw [List.any_map]
    rfl
  unfold scrubHeader
  rw [ha headers', ← hn, ← ha headers]
  split
  · exact insertHeader_forall₂ header (fun _ _ hh => hh.1) ⟨rfl, .inr rfl⟩
      (fun _ _ hh hne => hh.of_ne hne) h
  · rename_i hno
    simp only [List.any_eq_true, decide_eq_true_eq, not_exists, not_and] at hno
    exact ((List.forall₂_and_left _ _).mpr ⟨hno, h⟩).imp (fun _ _ hh => DifferIn.of_ne hh.2 hh.1)

lemma foldl_scrubHeader (inserted : List Header)
    (h : List.Forall₂ (DifferIn (inserted.map Header.name)) headers headers') :
    inserted.foldl scrubHeader headers = inserted.foldl scrubHeader headers' := by
  induction inserted generalizing headers headers' with
  | nil =>
    refine List.forall₂_eq_eq_eq ▸ h.imp ?_
    rintro ⟨name, value, _⟩ ⟨name', value', _⟩ ⟨hn, hv⟩
    simp only [List.map_nil, List.not_mem_nil, false_or] at hn hv
    simp only [Header.mk.injEq]
    exact ⟨hn, hv⟩
  | cons header inserted ih => exact ih (scrubHeader_differ header h)

end Scrubbing

lemma scrubRequest_eq (h : Differ request request') :
    scrubRequest request = scrubRequest request' := by
  simp [scrubRequest, foldl_scrubHeader scrubbed h.headers, h.method, h.uri, h.version]

/-! ## Names with a label in front -/

section

variable {label label' host s s' creds : String} {protocol : Protocol} {channel : Channel}
  {d : TlsDemux} {alpn : List Bytes} {conn conn' : ConnectionMeta}

/-- `credential.main_host`. -/
def labelled (label host : String) : String := label ++ "." ++ host

lemma splitOnce_labelled (hl : '.' ∉ label.toList) (host : String) :
    Text.splitOnce '.' (labelled label host) = some (label, host) :=
  Text.splitOnce_append hl host

lemma labelled_injective (hl : '.' ∉ label.toList) (hl' : '.' ∉ label'.toList)
    (h : labelled label s = labelled label' s') : label = label' := by
  have hs := congrArg (Text.splitOnce '.') h
  rw [splitOnce_labelled hl, splitOnce_labelled hl'] at hs
  exact (Prod.mk.inj (Option.some.inj hs)).1

lemma scrubSni_labelled (hl : '.' ∉ label.toList) (host : String) :
    scrubSni (labelled label host) = scrubbedPlaceholder ++ "." ++ host := by
  rw [scrubSni, splitOnce_labelled hl]

lemma getLast_append (h : t.toList.getLast? = some c) : (s ++ t).toList.getLast? = some c := by
  rw [String.toList_append, List.getLast?_append, h]
  rfl

lemma route_labelled (hl : '.' ∉ label.toList)
    (hr : d.route parsedAlpn alpn (labelled label host) = .ok (protocol, channel, h, auth)) :
    auth = none ∨ auth = some label ∧ channel = .tunnel ∧
      d.selectTunnelChannelProtocol parsedAlpn alpn = .ok protocol := by
  -- every arm but the one for credentials hands on none
  unfold TlsDemux.route at hr
  split at hr
  · obtain ⟨_, -, hok⟩ := map_eq_ok_iff.mp hr
    cases hok
    exact .inl rfl
  split at hr
  · obtain ⟨_, -, hok⟩ := map_eq_ok_iff.mp hr
    cases hok
    exact .inl rfl
  split at hr
  · cases hr
    exact .inl rfl
  split at hr
  · cases hr
    exact .inl rfl
  split at hr
  · rename_i hc
    obtain ⟨_, hp, hok⟩ := map_eq_ok_iff.mp hr
    cases hok
    rw [TlsDemux.credentialHost, splitOnce_labelled hl, Option.bind_some,
      Option.map_eq_some_iff] at hc
    obtain ⟨_, -, hpa⟩ := hc
    cases hpa
    exact .inr ⟨rfl, rfl, hp⟩
  split at hr
  · obtain ⟨_, -, hok⟩ := map_eq_ok_iff.mp hr
    cases hok
    exact .inl rfl
  · cases hr

lemma select_labelled (hl : '.' ∉ label.toList)
    (h : d.select alpn (labelled label host) = .ok conn) :
    conn.sniAuthCreds = none ∨ conn.sniAuthCreds = some label ∧ conn.channel = .tunnel ∧
      d.selectTunnelChannelProtocol (alpn.filterMap fromAlpn) alpn = .ok conn.protocol := by
  simp only [TlsDemux.select] at h
  split at h
  · cases h
  split at h
  · cases h
  · rename_i hr
    cases h
    exact route_labelled hl hr

lemma debugMeta_none (f : Formats) (h : conn.sniAuthCreds = none) :
    debugMeta f conn = "ConnectionMeta \x7b sni: \"" ++ conn.sni ++ "\", protocol: "
      ++ debugProtocol conn.protocol ++ ", channel: " ++ debugChannel conn.channel
      ++ ", sni_auth_creds: " ++ "None" ++ " \x7d" := by
  unfold debugMeta
  rw [h]
  rfl

lemma debugMeta_some (f : Formats) (h : conn.sniAuthCreds = some creds) :
    debugMeta f conn = "ConnectionMeta \x7b sni: \"" ++ scrubSni conn.sni ++ "\", protocol: "
      ++ debugProtocol conn.protocol ++ ", channel: " ++ debugChannel conn.channel
      ++ ", sni_auth_creds: " ++ ("Some(" ++ f.str creds ++ ")") ++ " \x7d" := by
  unfold debugMeta
  rw [h]
  rfl

lemma debugMeta_none_ne_some (f : Formats) (hn : conn.sniAuthCreds = none)
    (hs : conn'.sniAuthCreds = some creds) : debugMeta f conn ≠ debugMeta f conn' := by
  intro h
  unfold debugMeta at h
  rw [hn, hs] at h
  have hc := (append_left_inj _).mp h
  have hl := congrArg List.getLast? (congrArg toList hc)
  have hw : (debugCreds f none).toList.getLast? = some 'e' :=
    show "None".toList.getLast? = some 'e' by decide +kernel
  have hb : (debugCreds f (some creds)).toList.getLast? = some ')' :=
    getLast_append (by decide +kernel)
  rw [getLast_append hw, getLast_append hb] at hl
  exact absurd hl (by decide)

lemma debugMeta_label (hst : Function.Injective f.str)
    (hl : '.' ∉ label.toList) (hl' : '.' ∉ label'.toList)
    (hco : d.select alpn (labelled label host) = .ok conn)
    (hco' : d.select alpn (labelled label' host) = .ok conn')
    (h : debugMeta f conn = debugMeta f conn') : label = label' := by
  have hsn := TlsDemux.select_sni hco
  have hsn' := TlsDemux.select_sni hco'
  rcases select_labelled hl hco with hc | ⟨hc, hch, hp⟩ <;>
    rcases select_labelled hl' hco' with hc' | ⟨hc', hch', hp'⟩
  · rw [debugMeta_none f hc, debugMeta_none f hc'] at h
    -- the label ends with the first dot of what follows the opening
    simp only [hsn, hsn', labelled, append_assoc, append_right_inj] at h
    exact labelled_injective hl hl' (by simpa only [labelled, append_assoc] using h)
  · exact (debugMeta_none_ne_some f hc hc' h).elim
  · exact (debugMeta_none_ne_some f hc' hc h.symm).elim
  · have hs : conn.protocol = conn'.protocol := by
      rw [hp] at hp'
      exact Except.ok.inj hp'
    rw [debugMeta_some f hc, debugMeta_some f hc', hsn, hsn', scrubSni_labelled hl,
      scrubSni_labelled hl', hs, hch, hch'] at h
    have hso := (append_right_inj _).mp ((append_left_inj _).mp h)
    exact hst ((append_right_inj _).mp ((append_left_inj _).mp hso))

end

end TrustTunnel.Log
