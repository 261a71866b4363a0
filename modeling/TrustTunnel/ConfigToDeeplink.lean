import TrustTunnel.DeepLinkRoundTrip

/-!
# The script that makes links

`scripts/config_to_deeplink.py` encodes what `deeplink/src/encode.rs` encodes.
-/

namespace TrustTunnel.Scripts

open Io Lib DeepLink.Field
open Lib.Http1 (utf8)

inductive PyError where
  | valueError (message : String)
  | keyError (message : String)
  | indexError (message : String)
  | unicodeDecodeError
  | binasciiError (message : String)
  deriving DecidableEq

/-- The parsed dictionary of both scripts. -/
structure Cfg where
  hostname : Option String
  addresses : Option (List String)
  customSni : Option String
  hasIpv6 : Option Bool
  username : Option String
  password : Option String
  clientRandomPrefix : Option String
  skipVerification : Option Bool
  certificate : Option String
  upstreamProtocol : Option String
  antiDpi : Option Bool
  name : Option String
  dnsUpstreams : Option (List String)
  subscriptionUrl : Option String
  deriving DecidableEq

/-- `_PEM_RE.findall`, `base64.b64decode` and `base64.b64encode`. -/
structure PyLib where
  findall : String → List String
  b64decode : String → Except PyError Bytes
  b64encode : Bytes → String

namespace ConfigToDeeplink

def tagHostname : Nat := 0x01
def tagAddress : Nat := 0x02
def tagCustomSni : Nat := 0x03
def tagHasIpv6 : Nat := 0x04
def tagUsername : Nat := 0x05
def tagPassword : Nat := 0x06
def tagSkipVerification : Nat := 0x07
def tagCertificate : Nat := 0x08
def tagUpstreamProtocol : Nat := 0x09
def tagAntiDpi : Nat := 0x0a
def tagClientRandomPrefix : Nat := 0x0b
def tagName : Nat := 0x0c
def tagDnsUpstreams : Nat := 0x0d
def tagSubscriptionUrl : Nat := 0x0e

def currentVersion : Nat := 2

def protocolMap (proto : String) : Option UInt8 :=
  if proto = "http2" then some 0x01 else if proto = "http3" then some 0x02 else none

/-- `encode_varint`; a length or a tag is not negative. -/
def encodeVarint (value : Nat) : Except PyError Bytes :=
  if value ≤ 0x3f then .ok (bigEndian 1 value)
  else if value ≤ 0x3fff then .ok (bigEndian 2 (value ||| 0x4000))
  else if value ≤ 0x3fffffff then .ok (bigEndian 4 (value ||| 0x80000000))
  else if value ≤ 0x3fffffffffffffff then .ok (bigEndian 8 (value ||| 0xc000000000000000))
  else .error (.valueError ("varint value too large: " ++ toString value))

def pemToDer (x : PyLib) (pem : String) : Except PyError Bytes :=
  let blocks := x.findall pem
  if blocks.isEmpty then .error (.valueError "no PEM blocks found in certificate field")
  else blocks.foldlM (fun der b64 => do return der ++ (← x.b64decode b64)) []

def tlv (tag : Nat) (value : Bytes) : Except PyError Bytes := do
  return (← encodeVarint tag) ++ (← encodeVarint value.length) ++ value

def encodeStringArray (strings : List String) : Except PyError Bytes :=
  strings.foldlM (fun buf s => do return buf ++ (← encodeVarint (utf8 s).length) ++ utf8 s) []

def requiredField (cfg : Cfg) (tag : Nat) (key : String) (value : Option String) :
    List (Except PyError Bytes) :=
  match value with
  | none =>
    if cfg.subscriptionUrl.isNone then [.error (.keyError ("missing required field: " ++ key))]
    else []
  | some s => [tlv tag (utf8 s)]

def addressFields (cfg : Cfg) : List (Except PyError Bytes) :=
  let addresses := cfg.addresses.getD []
  if addresses.isEmpty then
    if cfg.subscriptionUrl.isNone then [.error (.keyError "missing required field: addresses")]
    else []
  else addresses.map (fun addr => tlv tagAddress (utf8 addr))

def truthyField (tag : Nat) (value : Option String) : List (Except PyError Bytes) :=
  ((value.filter (fun s => !s.isEmpty)).map (fun s => tlv tag (utf8 s))).toList

def boolField (tag : Nat) (value : Option Bool) (default : Bool) : List (Except PyError Bytes) :=
  ((value.filter (fun b => b != default)).map (fun b => tlv tag (if b then [0x01] else [0x00]))).toList

def certificateField (x : PyLib) (cfg : Cfg) : List (Except PyError Bytes) :=
  ((cfg.certificate.filter (fun pem => !pem.isEmpty)).map
    (fun pem => pemToDer x pem >>= tlv tagCertificate)).toList

def protocolField (cfg : Cfg) : List (Except PyError Bytes) :=
  ((cfg.upstreamProtocol.filter (fun proto => !proto.isEmpty && proto != "http2")).map (fun proto =>
    match protocolMap proto with
    | some byte => tlv tagUpstreamProtocol [byte]
    | none => .error (.valueError ("unknown upstream_protocol: " ++ proto)))).toList

/-- The entries in their order, with the exceptions they raise. -/
def entries (x : PyLib) (cfg : Cfg) : List (Except PyError Bytes) :=
  [encodeVarint currentVersion >>= tlv 0x00]
    ++ requiredField cfg tagHostname "hostname" cfg.hostname
    ++ requiredField cfg tagUsername "username" cfg.username
    ++ requiredField cfg tagPassword "password" cfg.password
    ++ addressFields cfg
    ++ truthyField tagClientRandomPrefix cfg.clientRandomPrefix
    ++ (cfg.customSni.map (fun s => tlv tagCustomSni (utf8 s))).toList
    ++ boolField tagHasIpv6 cfg.hasIpv6 true
    ++ boolField tagSkipVerification cfg.skipVerification false
    ++ boolField tagAntiDpi cfg.antiDpi false
    ++ certificateField x cfg
    ++ protocolField cfg
    ++ truthyField tagName cfg.name
    ++ (if (cfg.dnsUpstreams.getD []).isEmpty then []
        else [encodeStringArray (cfg.dnsUpstreams.getD []) >>= tlv tagDnsUpstreams])
    ++ truthyField tagSubscriptionUrl cfg.subscriptionUrl

def encodeConfig (x : PyLib) (cfg : Cfg) : Except PyError Bytes :=
  if cfg.subscriptionUrl.any (fun url => !Text.startsWith "https://" url) then
    .error (.valueError "subscription_url must be an https:// URL")
  else DeepLink.extendAll (entries x cfg)

/-! ## Writing a field -/

lemma toOption_encodeVarint (n : Nat) :
    (encodeVarint n).toOption = (DeepLink.encodeVarint n).toOption := by
  unfold encodeVarint DeepLink.encodeVarint
  split
  · simp [bigEndian, Except.toOption]
  split
  · rfl
  split
  · rfl
  split
  · rfl
  · rfl

lemma toOption_tlv (tag : DeepLink.TlvTag) (value : Bytes) :
    (tlv tag.asU8.toNat value).toOption = (DeepLink.encodeTlv tag value).toOption := by
  simp only [tlv, DeepLink.encodeTlv, toOption_bind, toOption_encodeVarint]
  rfl

lemma toOption_encodeStringArray (strings : List String) :
    (encodeStringArray strings).toOption = (DeepLink.encodeStringArray strings).toOption := by
  refine toOption_foldlM_congr (fun buf s => ?_) strings []
  simp only [toOption_bind, toOption_encodeVarint]
  rfl

def encodeField (f : DeepLink.Field) : Except PyError Bytes :=
  match f with
  | .version => encodeVarint currentVersion >>= tlv 0x00
  | .dnsUpstreams l => encodeStringArray l >>= tlv tagDnsUpstreams
  | f => tlv f.tag.asU8.toNat f.value

lemma toOption_encodeField (f : DeepLink.Field) :
    (encodeField f).toOption = (DeepLink.encodeField f).toOption := by
  cases f with
  | version =>
    rw [encodeField, DeepLink.encodeField, toOption_bind, toOption_bind, toOption_encodeVarint]
    exact congrArg _ (funext (toOption_tlv .version))
  | dnsUpstreams =>
    rw [encodeField, DeepLink.encodeField, toOption_bind, toOption_bind, toOption_encodeStringArray]
    exact congrArg _ (funext (toOption_tlv .dnsUpstreams))
  | _ => exact toOption_tlv _ _

lemma encodeField_eq_ok_iff : encodeField f = .ok bytes ↔
      f.value.length < 2 ^ 62 ∧ bytes = Tlv.writeEntry f.tag.asU8.toNat f.value := by
  rw [← toOption_eq_some_iff, toOption_encodeField, toOption_eq_some_iff,
    DeepLink.encodeField_eq_ok_iff]

/-! ## The same configuration -/

/-- A configuration of the crate, and a dictionary that says the same. -/
structure Same (x : PyLib) (c : DeepLink.DeepLinkConfig) (cfg : Cfg) : Prop where
  hostname : cfg.hostname = c.hostname
  addresses : cfg.addresses.getD [] = c.addresses
  username : cfg.username = c.username
  password : cfg.password = c.password
  clientRandomPrefix : cfg.clientRandomPrefix = c.clientRandomPrefix
  clientRandomAuthKey : c.clientRandomAuthKey = none
  customSni : cfg.customSni = c.customSni
  hasIpv6 : cfg.hasIpv6.getD true = c.hasIpv6
  skipVerification : cfg.skipVerification.getD false = c.skipVerification
  antiDpi : cfg.antiDpi.getD false = c.antiDpi
  certificate : (cfg.certificate.getD "" = "" ∧ c.certificate = none) ∨
    ∃ pem der, cfg.certificate = some pem ∧ pemToDer x pem = .ok der ∧ c.certificate = some der
  upstreamProtocol : (cfg.upstreamProtocol.getD "http2" = "http2" ∧ c.upstreamProtocol = .http2) ∨
    (cfg.upstreamProtocol = some "http3" ∧ c.upstreamProtocol = .http3)
  name : cfg.name = c.name
  dnsUpstreams : cfg.dnsUpstreams.getD [] = c.dnsUpstreams
  subscriptionUrl : cfg.subscriptionUrl = c.subscriptionUrl

def Accepted (cfg : Cfg) : Prop :=
  match cfg.subscriptionUrl with
  | some url => Text.startsWith "https://" url = true
  | none =>
    cfg.hostname ≠ none ∧ cfg.username ≠ none ∧ cfg.password ≠ none ∧ cfg.addresses.getD [] ≠ []

def named (c : DeepLink.DeepLinkConfig) : DeepLink.DeepLinkConfig :=
  { c with name := c.name.filter (fun s => !s.isEmpty) }

variable {x : PyLib} {c : DeepLink.DeepLinkConfig} {cfg : Cfg}

lemma requiredField_eq {tag : Nat} {key : String} {value : Option String}
    (h : value = none → cfg.subscriptionUrl ≠ none) :
    requiredField cfg tag key value = (value.map (fun s => tlv tag (utf8 s))).toList := by
  cases value with
  | none =>
    obtain ⟨url, hu⟩ := Option.ne_none_iff_exists'.mp (h rfl)
    simp [requiredField, hu]
  | some => rfl

lemma addressFields_eq (h : cfg.addresses.getD [] = [] → cfg.subscriptionUrl ≠ none) :
    addressFields cfg = (cfg.addresses.getD []).map (fun addr => tlv tagAddress (utf8 addr)) := by
  unfold addressFields
  cases ha : cfg.addresses.getD [] with
  | nil =>
    obtain ⟨url, hu⟩ := Option.ne_none_iff_exists'.mp (h ha)
    simp [hu]
  | cons => rfl

lemma boolField_true (tag : Nat) (value : Option Bool) :
    boolField tag value true = if value.getD true then [] else [tlv tag [0x00]] := by
  rcases value with _ | _ | _ <;> rfl

lemma boolField_false (tag : Nat) (value : Option Bool) :
    boolField tag value false = if value.getD false then [tlv tag [0x01]] else [] := by
  rcases value with _ | _ | _ <;> rfl

lemma certificateField_eq (hx : x.findall "" = []) (h : Same x c cfg) :
    certificateField x cfg = (c.certificate.map (tlv tagCertificate)).toList := by
  unfold certificateField
  rcases h.certificate with ⟨hp, hc⟩ | ⟨pem, der, hp, hd, hc⟩
  · cases hce : cfg.certificate with
    | none => simp [hc]
    | some pem =>
      rw [hce] at hp
      simp [hc, show pem = "" from hp]
  · have hne : pem ≠ "" := by
      rintro rfl
      simp [pemToDer, hx] at hd
    simp [hp, hc, hd, hne, Option.filter]
    rfl

lemma protocolField_eq (h : Same x c cfg) : protocolField cfg =
      if c.upstreamProtocol ≠ .http2 then [tlv tagUpstreamProtocol [c.upstreamProtocol.asU8]]
      else [] := by
  unfold protocolField
  rcases h.upstreamProtocol with ⟨hcf, hc⟩ | ⟨hcf, hc⟩
  · cases hp : cfg.upstreamProtocol with
    | none => simp [hc]
    | some proto =>
      rw [hp] at hcf
      simp [hc, show proto = "http2" from hcf]
  · simp [hcf, hc, protocolMap, Option.filter]
    rfl

lemma truthyField_subscriptionUrl (h : Accepted cfg) :
    truthyField tagSubscriptionUrl cfg.subscriptionUrl =
      (cfg.subscriptionUrl.map (fun s => tlv tagSubscriptionUrl (utf8 s))).toList := by
  cases hu : cfg.subscriptionUrl with
  | none => rfl
  | some url =>
    have hne : url ≠ "" := by
      rintro rfl
      simp only [Accepted, hu] at h
      cases h
    simp [truthyField, hne, Option.filter]

/-- **What the script writes, by the fields of the configuration.** -/
lemma entries_eq (hx : x.findall "" = []) (h : Same x c cfg) (ha : Accepted cfg) :
    entries x cfg = (DeepLink.fieldsOf (named c)).map encodeField := by
  have hm : ∀ {value : Option String}, (cfg.subscriptionUrl = none → value ≠ none) →
      value = none → cfg.subscriptionUrl ≠ none := fun hv hno hu => hv hu hno
  have hr : cfg.subscriptionUrl = none → cfg.hostname ≠ none ∧ cfg.username ≠ none ∧
      cfg.password ≠ none ∧ cfg.addresses.getD [] ≠ [] := by
    intro hu
    rwa [Accepted, hu] at ha
  rw [entries, requiredField_eq (hm (fun hu => (hr hu).1)),
    requiredField_eq (hm (fun hu => (hr hu).2.1)),
    requiredField_eq (hm (fun hu => (hr hu).2.2.1)),
    addressFields_eq (fun hn hu => (hr hu).2.2.2 hn),
    certificateField_eq hx h, protocolField_eq h, truthyField_subscriptionUrl ha]
  simp only [boolField_true, boolField_false, h.hostname, h.addresses, h.username, h.password,
    h.clientRandomPrefix, h.customSni, h.hasIpv6, h.skipVerification, h.antiDpi, h.name,
    h.dnsUpstreams, h.subscriptionUrl]
  simp only [DeepLink.fieldsOf, named, List.map_append, DeepLink.map_toList, List.map_map,
    apply_ite (List.map _), h.clientRandomAuthKey, Option.filter_none, Option.map_none,
    Option.toList_none, List.append_nil]
  rfl

lemma error_notMem_entries (h : DeepLink.extendAll (entries x cfg) = .ok payload)
    (e : PyError) : .error e ∉ entries x cfg := by
  obtain ⟨pieces, hpieces, -⟩ := DeepLink.extendAll_eq_ok_iff.mp h
  rw [hpieces]
  simp

lemma accepted_of_encodeConfig (h : encodeConfig x cfg = .ok payload) : Accepted cfg := by
  unfold encodeConfig at h
  split at h
  · cases h
  · rename_i hur
    have he := error_notMem_entries h
    unfold Accepted
    cases hu : cfg.subscriptionUrl with
    | some => simpa [hu] using hur
    | none =>
      refine ⟨?_, ?_, ?_, ?_⟩
      · intro hno
        exact he (.keyError ("missing required field: " ++ "hostname"))
          (by simp [entries, requiredField, hu, hno])
      · intro hno
        exact he (.keyError ("missing required field: " ++ "username"))
          (by simp [entries, requiredField, hu, hno])
      · intro hno
        exact he (.keyError ("missing required field: " ++ "password"))
          (by simp [entries, requiredField, hu, hno])
      · intro hn
        exact he (.keyError "missing required field: addresses")
          (by simp [entries, addressFields, hu, hn])

/-- **The script, by the fields of the configuration.** -/
lemma encodeConfig_eq_ok_iff (hx : x.findall "" = []) (h : Same x c cfg) :
    encodeConfig x cfg = .ok payload ↔
      Accepted cfg ∧ DeepLink.Fits (named c) ∧ payload = DeepLink.written (named c) := by
  have hp : Accepted cfg → (encodeConfig x cfg = .ok payload ↔
      DeepLink.Fits (named c) ∧ payload = DeepLink.written (named c)) := by
    intro ha
    have hu : cfg.subscriptionUrl.any (fun url => !Text.startsWith "https://" url) = false := by
      cases hu : cfg.subscriptionUrl with
      | none => rfl
      | some =>
        simp only [Accepted, hu] at ha
        simp [ha]
    rw [encodeConfig, hu, if_neg Bool.false_ne_true, entries_eq hx h ha,
      DeepLink.extendAll_map_eq_ok_iff (fun _ _ => encodeField_eq_ok_iff)]
    rfl
  constructor
  · intro he
    have ha := accepted_of_encodeConfig he
    exact ⟨ha, (hp ha).mp he⟩
  · rintro ⟨ha, hf⟩
    exact (hp ha).mpr hf

/-! ## The empty name -/

lemma fieldsOf_name (c : DeepLink.DeepLinkConfig) : ∃ front back : List DeepLink.Field,
    ∀ name, DeepLink.fieldsOf { c with name := name } =
      front ++ (name.map .name).toList ++ back := by
  refine ⟨DeepLink.fieldsOf { c with name := none, dnsUpstreams := [], subscriptionUrl := none },
    (if c.dnsUpstreams.isEmpty then [] else [.dnsUpstreams c.dnsUpstreams])
      ++ (c.subscriptionUrl.map .subscriptionUrl).toList, fun name => ?_⟩
  simp [DeepLink.fieldsOf]

lemma named_eq (h : c.name ≠ some "") : named c = c := by
  unfold named
  cases hn : c.name with
  | none => rw [Option.filter_none, ← hn]
  | some s =>
    have hne : s ≠ "" := fun hs => h (by rw [hn, hs])
    rw [Option.filter_some, if_pos (by simpa using hne), ← hn]

lemma fieldsOf_emptyName (h : c.name = some "") : ∃ front back : List DeepLink.Field,
    DeepLink.fieldsOf c = front ++ .name "" :: back ∧
      DeepLink.fieldsOf (named c) = front ++ back := by
  obtain ⟨front, back, hf⟩ := fieldsOf_name c
  refine ⟨front, back, ?_, ?_⟩
  · have hc := hf (some "")
    rw [← h] at hc
    rw [show c = { c with name := c.name } from rfl, hc, h]
    simp
  · rw [named, h, Option.filter_some, if_neg (by simp), hf none]
    simp

lemma fits_named_iff : DeepLink.Fits (named c) ↔ DeepLink.Fits c := by
  by_cases h : c.name = some ""
  · obtain ⟨front, back, hc, hn⟩ := fieldsOf_emptyName h
    have he : (name "").value.length < 2 ^ 62 := by decide
    unfold DeepLink.Fits
    rw [hc, hn, List.forall_mem_append, List.forall_mem_append, List.forall_mem_cons,
      and_iff_right he]
  · rw [named_eq h]

lemma written_named_iff : DeepLink.written (named c) = DeepLink.written c ↔ c.name ≠ some "" := by
  constructor
  · intro hs h
    obtain ⟨front, back, hc, hn⟩ := fieldsOf_emptyName h
    have hl := congrArg List.length hs
    have he : (Tlv.writeEntry (name "").tag.asU8.toNat
        (name "").value).length = 2 := by decide
    simp only [DeepLink.written, hc, hn, List.flatMap_append, List.flatMap_cons,
      List.length_append, he] at hl
    omega
  · intro h
    rw [named_eq h]

/-! ## Agreement -/

lemma isMissing_iff : DeepLink.isMissing field ↔ field = none ∨ field = some "" := by
  cases field <;> simp [DeepLink.isMissing]

lemma validate_iff (h : Same x c cfg) : c.validate = .ok () ↔ Accepted cfg ∧
    (c.subscriptionUrl = none →
      c.hostname ≠ some "" ∧ c.username ≠ some "" ∧ c.password ≠ some "") := by
  unfold Accepted DeepLink.DeepLinkConfig.validate
  rw [h.subscriptionUrl]
  cases c.subscriptionUrl with
  | some => simp
  | none =>
    have hc : ∀ {p : Prop} [Decidable p] {e : DeepLink.DeepLinkError}
        {r : Except DeepLink.DeepLinkError Unit},
        (if p then .error e else r) = .ok () ↔ ¬p ∧ r = .ok () := by
      intro p _ e r
      split <;> simp [*]
    simp only [h.hostname, h.username, h.password, h.addresses, isMissing_iff, List.isEmpty_iff, hc,
      not_or, and_true, true_imp_iff]
    tauto

/-- **When the script and the crate agree**: they differ over empty texts only. -/
theorem encoders_agree_iff (hx : x.findall "" = []) (h : Same x c cfg) :
    (DeepLink.encodeTlvPayload c).toOption = (encodeConfig x cfg).toOption ↔
      (DeepLink.Fits c → Accepted cfg → c.name ≠ some "" ∧ (c.subscriptionUrl = none →
          c.hostname ≠ some "" ∧ c.username ≠ some "" ∧ c.password ≠ some "")) := by
  by_cases hf : DeepLink.Fits c
  · by_cases ha : Accepted cfg
    · have hs : encodeConfig x cfg = .ok (DeepLink.written (named c)) :=
        (encodeConfig_eq_ok_iff hx h).mpr ⟨ha, fits_named_iff.mpr hf, rfl⟩
      rw [toOption_eq_some_iff.mpr hs, toOption_eq_some_iff,
        DeepLink.encodeTlvPayload_eq_ok_iff, validate_iff h, written_named_iff]
      simp [hf, ha, and_comm]
    · have hc : (DeepLink.encodeTlvPayload c).toOption = none := by
        refine Option.eq_none_iff_forall_ne_some.mpr (fun payload hp => ha ?_)
        rw [toOption_eq_some_iff, DeepLink.encodeTlvPayload_eq_ok_iff, validate_iff h] at hp
        exact hp.1.1
      have hs : (encodeConfig x cfg).toOption = none := by
        refine Option.eq_none_iff_forall_ne_some.mpr (fun payload hp => ha ?_)
        rw [toOption_eq_some_iff, encodeConfig_eq_ok_iff hx h] at hp
        exact hp.1
      exact iff_of_true (hc.trans hs.symm) (fun _ hno => absurd hno ha)
  · have hc : (DeepLink.encodeTlvPayload c).toOption = none := by
      refine Option.eq_none_iff_forall_ne_some.mpr (fun payload hp => hf ?_)
      rw [toOption_eq_some_iff, DeepLink.encodeTlvPayload_eq_ok_iff] at hp
      exact hp.2.1
    have hs : (encodeConfig x cfg).toOption = none := by
      refine Option.eq_none_iff_forall_ne_some.mpr (fun payload hp => hf ?_)
      rw [toOption_eq_some_iff, encodeConfig_eq_ok_iff hx h, fits_named_iff] at hp
      exact hp.2.1
    exact iff_of_true (hc.trans hs.symm) (fun hno => absurd hno hf)

def blind : PyLib :=
  { findall := fun _ => [], b64decode := fun _ => .error (.binasciiError "Incorrect padding"),
    b64encode := Core.base64 }

def cfgOf (c : DeepLink.DeepLinkConfig) : Cfg :=
  { hostname := c.hostname, addresses := some c.addresses, customSni := c.customSni,
    hasIpv6 := some c.hasIpv6, username := c.username, password := c.password,
    clientRandomPrefix := c.clientRandomPrefix, skipVerification := some c.skipVerification,
    certificate := none,
    upstreamProtocol := some (match c.upstreamProtocol with | .http2 => "http2" | .http3 => "http3"),
    antiDpi := some c.antiDpi, name := c.name, dnsUpstreams := some c.dnsUpstreams,
    subscriptionUrl := c.subscriptionUrl }

lemma same_cfgOf (hk : c.clientRandomAuthKey = none) (hc : c.certificate = none) :
    Same blind c (cfgOf c) where
  hostname := rfl
  addresses := rfl
  username := rfl
  password := rfl
  clientRandomPrefix := rfl
  clientRandomAuthKey := hk
  customSni := rfl
  hasIpv6 := rfl
  skipVerification := rfl
  antiDpi := rfl
  certificate := .inl ⟨rfl, hc⟩
  upstreamProtocol := by
    unfold cfgOf
    cases c.upstreamProtocol with
    | http2 => exact .inl ⟨rfl, rfl⟩
    | http3 => exact .inr ⟨rfl, rfl⟩
  name := rfl
  dnsUpstreams := rfl
  subscriptionUrl := rfl

def officeConfig (name username : String) : DeepLink.DeepLinkConfig :=
  { DeepLink.initial with
    hostname := some "vpn.example"
    addresses := ["1.2.3.4:443"]
    username := some username
    password := some "secret"
    name := some name }

theorem officeConfig_agree : (DeepLink.encodeTlvPayload (officeConfig "Office" "alice")).toOption =
      (encodeConfig blind (cfgOf (officeConfig "Office" "alice"))).toOption := by
  refine (encoders_agree_iff rfl (same_cfgOf rfl rfl)).mpr (fun _ _ => ⟨by decide, fun _ => ?_⟩)
  decide

/-- The crate alone writes an empty name, the script alone an empty user name. -/
theorem emptyTexts_apart : (Same blind (officeConfig "" "alice") (cfgOf (officeConfig "" "alice")) ∧
      (DeepLink.encodeTlvPayload (officeConfig "" "alice")).toOption.map List.length = some 46 ∧
      (encodeConfig blind (cfgOf (officeConfig "" "alice"))).toOption.map List.length = some 44) ∧
    (Same blind (officeConfig "Office" "") (cfgOf (officeConfig "Office" "")) ∧
      DeepLink.encodeTlvPayload (officeConfig "Office" "") =
        .error (.missingRequiredField "username") ∧
      (encodeConfig blind (cfgOf (officeConfig "Office" ""))).toOption.map List.length =
        some 47) := by
  refine ⟨⟨same_cfgOf rfl rfl, ?_, ?_⟩, same_cfgOf rfl rfl, ?_, ?_⟩ <;> decide +kernel

end ConfigToDeeplink

end TrustTunnel.Scripts
