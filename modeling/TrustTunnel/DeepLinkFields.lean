import TrustTunnel.Credentials
import TrustTunnel.DeepLinkWire
import TrustTunnel.Lib.Keyed
import TrustTunnel.Rules

/-!
# Deep links as lists of fields

A payload is a list of fields, which are set one after the other.
-/

namespace TrustTunnel.DeepLink

open Io Lib List Tlv
open Lib.Http1 (utf8)
open Lib.Tlv (readEntry writeEntry)

inductive Field where
  | version
  | hostname (s : String)
  | address (s : String)
  | customSni (s : String)
  | hasIpv6 (b : Bool)
  | username (s : String)
  | password (s : String)
  | skipVerification (b : Bool)
  | certificate (der : Bytes)
  | upstreamProtocol (p : Protocol)
  | antiDpi (b : Bool)
  | clientRandomPrefix (s : String)
  | name (s : String)
  | dnsUpstreams (l : List String)
  | subscriptionUrl (s : String)
  | clientRandomAuthKey (s : String)

namespace Field

def tag : Field → TlvTag
  | version => .version
  | hostname _ => .hostname
  | address _ => .address
  | customSni _ => .customSni
  | hasIpv6 _ => .hasIpv6
  | username _ => .username
  | password _ => .password
  | skipVerification _ => .skipVerification
  | certificate _ => .certificate
  | upstreamProtocol _ => .upstreamProtocol
  | antiDpi _ => .antiDpi
  | clientRandomPrefix _ => .clientRandomPrefix
  | name _ => .name
  | dnsUpstreams _ => .dnsUpstreams
  | subscriptionUrl _ => .subscriptionUrl
  | clientRandomAuthKey _ => .clientRandomAuthKey

def set (c : DeepLinkConfig) : Field → DeepLinkConfig
  | version => c
  | hostname s => { c with hostname := some s }
  | address s => { c with addresses := c.addresses ++ [s] }
  | customSni s => { c with customSni := some s }
  | hasIpv6 b => { c with hasIpv6 := b }
  | username s => { c with username := some s }
  | password s => { c with password := some s }
  | skipVerification b => { c with skipVerification := b }
  | certificate der => { c with certificate := some der }
  | upstreamProtocol p => { c with upstreamProtocol := p }
  | antiDpi b => { c with antiDpi := b }
  | clientRandomPrefix s => { c with clientRandomPrefix := some s }
  | name s => { c with name := some s }
  | dnsUpstreams l => { c with dnsUpstreams := l }
  | subscriptionUrl s => { c with subscriptionUrl := some s }
  | clientRandomAuthKey s => { c with clientRandomAuthKey := some s }

lemma set_comm (h : f.tag ≠ g.tag) (c : DeepLinkConfig) : set (set c f) g = set (set c g) f := by
  cases f <;> cases g <;> first | rfl | exact absurd rfl h

lemma set_undone (h : f.tag = g.tag) (ha : g.tag ≠ .address)
    (c : DeepLinkConfig) : set (set c f) g = set c g := by
  cases g <;> first | exact absurd rfl ha | (cases f <;> first | rfl | cases h)

end Field

/-! ## Reading a field -/

/-- The checks of `onField`, without the assignment. -/
def readField (x : Crates) (tag : TlvTag) (value : Bytes) : Except DeepLinkError Field :=
  match tag with
  | .version => (decodeVersionField value).map (fun _ => .version)
  | .hostname => (decodeString value).map .hostname
  | .address => (decodeString value).map .address
  | .customSni => (decodeString value).map .customSni
  | .hasIpv6 => (decodeBool value).map .hasIpv6
  | .username => (decodeString value).map .username
  | .password => (decodeString value).map .password
  | .skipVerification => (decodeBool value).map .skipVerification
  | .certificate => .ok (.certificate value)
  | .upstreamProtocol => (decodeProtocol value).map .upstreamProtocol
  | .antiDpi => (decodeBool value).map .antiDpi
  | .clientRandomPrefix => (decodePrefixField x value).map .clientRandomPrefix
  | .name => (decodeString value).map .name
  | .dnsUpstreams => (decodeStringArray value).map .dnsUpstreams
  | .subscriptionUrl => (decodeString value).map .subscriptionUrl
  | .clientRandomAuthKey => (decodeAuthKeyField x value).map .clientRandomAuthKey

lemma onField_some (x : Crates) (c : DeepLinkConfig) (tag : TlvTag) (value : Bytes) :
    onField x c (some tag, value) = (readField x tag value).map (Field.set c) := by
  cases tag with
  | certificate => rfl
  | version =>
    simp only [onField, readField]
    cases decodeVersionField value <;> rfl
  | hasIpv6 | skipVerification | antiDpi =>
    simp only [onField, readField]
    cases decodeBool value <;> rfl
  | upstreamProtocol =>
    simp only [onField, readField]
    cases decodeProtocol value <;> rfl
  | dnsUpstreams =>
    simp only [onField, readField]
    cases decodeStringArray value <;> rfl
  | clientRandomPrefix =>
    simp only [onField, readField]
    cases decodePrefixField x value <;> rfl
  | clientRandomAuthKey =>
    simp only [onField, readField]
    cases decodeAuthKeyField x value <;> rfl
  | _ =>
    simp only [onField, readField]
    cases decodeString value <;> rfl

lemma tag_of_readField (h : readField x tag value = .ok f) : f.tag = tag := by
  have hm : ∀ {α : Type} {r : Except DeepLinkError α} {g : α → Field} {t : TlvTag},
      (∀ a, (g a).tag = t) → r.map g = .ok f → f.tag = t := by
    intro α r g t hg hr
    cases r with
    | error => cases hr
    | ok a =>
      cases hr
      exact hg a
  cases tag with
  | certificate =>
    cases h
    rfl
  | _ => exact hm (fun _ => rfl) h

/-! ## Reading a payload -/

def fieldOf (x : Crates) (e : Nat × Bytes) : Option Field :=
  (knownTag e.1).bind (fun tag => (readField x tag e.2).toOption)

def Readable (x : Crates) (e : Nat × Bytes) : Prop :=
  ∀ tag, knownTag e.1 = some tag → ∃ f, readField x tag e.2 = .ok f

def configOf (x : Crates) (entries : List (Nat × Bytes)) : DeepLinkConfig :=
  (entries.filterMap (fieldOf x)).foldl Field.set initial

lemma onField_eq_ok_iff : onField x c (knownTag e.1, e.2) = .ok c' ↔
      Readable x e ∧ c' = (fieldOf x e).elim c (Field.set c) := by
  unfold Readable fieldOf
  cases knownTag e.1 with
  | none => simp [onField, eq_comm]
  | some tag =>
    simp only [onField_some, Option.some.injEq, forall_eq', Option.bind_some]
    cases readField x tag e.2 with
    | error => simp [Except.map]
    | ok => simp [Except.map, Except.toOption, eq_comm]

lemma foldlM_onField {entries : List (Nat × Bytes)} :
    (entries.map (fun e => (knownTag e.1, e.2))).foldlM (onField x) c = .ok c' ↔
      (∀ e ∈ entries, Readable x e) ∧ c' = (entries.filterMap (fieldOf x)).foldl Field.set c := by
  induction entries generalizing c with
  | nil =>
    simp only [map_nil, foldlM_nil, not_mem_nil, false_imp_iff, implies_true,
      true_and, filterMap_nil, foldl_nil]
    exact ⟨fun h => (Except.ok.inj h).symm, fun h => congrArg Except.ok h.symm⟩
  | cons e entries ih =>
    rw [map_cons, foldlM_cons, bind_eq_ok, forall_mem_cons]
    simp only [onField_eq_ok_iff, ih]
    cases hf : fieldOf x e <;> simp [hf, and_assoc]

/-- **The decoder, by the entries of the payload.** -/
lemma decodeTlvPayload_eq_ok_iff {config : DeepLinkConfig} :
    decodeTlvPayload x payload = .ok config ↔
      ∃ entries, Items.Reads readEntry payload entries ∧ (∀ e ∈ entries, Readable x e) ∧
        config = configOf x entries ∧ config.validate = .ok () := by
  have hrea : (fun l => (nextField l).toOption) =
      fun l => (readEntry l).map (fun e => ((knownTag e.1.1, e.1.2), e.2)) :=
    funext toOption_nextField
  have hs : Items.Sequential (fun l => (nextField l).toOption) := by
    rw [hrea]
    exact sequential_readEntry.map (fun e : Nat × Bytes => (knownTag e.1, e.2))
  rw [decodeTlvPayload, bind_eq_ok]
  simp only [Items.loop_eq_ok_iff hs le_rfl, bind_eq_ok]
  simp only [hrea, Items.reads_map (f := fun e : Nat × Bytes => (knownTag e.1, e.2))
    (fun _ => rfl)]
  constructor
  · rintro ⟨c, ⟨_, ⟨entries, hre, rfl⟩, hf⟩, _, hv, heq⟩
    cases heq
    obtain ⟨hr, rfl⟩ := foldlM_onField.mp hf
    exact ⟨entries, hre, hr, rfl, hv⟩
  · rintro ⟨entries, hre, hr, rfl, hv⟩
    exact ⟨_, ⟨_, ⟨entries, hre, rfl⟩, foldlM_onField.mpr ⟨hr, rfl⟩⟩, (), hv, rfl⟩

/-! ## Unknown tags -/

/-- Entries with these tags can be put at any boundary. -/
def Ignored (x : Crates) (tags : List Nat) : Prop :=
  ∀ (before inserted after : Bytes) (front entries : List (Nat × Bytes)) (config : DeepLinkConfig),
    Items.Reads readEntry before front → Items.Reads readEntry inserted entries →
      entries.map Prod.fst = tags → decodeTlvPayload x (before ++ after) = .ok config →
        decodeTlvPayload x (before ++ inserted ++ after) = .ok config

lemma fieldOf_eq_none (h : knownTag e.1 = none) : fieldOf x e = none := by
  rw [fieldOf, h, Option.bind_none]

lemma ignored_of_unknown (x : Crates) (h : ∀ t ∈ tags, knownTag t = none) : Ignored x tags := by
  rintro before inserted after front entries config hb hi rfl hd
  have hu : ∀ e ∈ entries, knownTag e.1 = none := fun e he => h _ (mem_map_of_mem he)
  obtain ⟨all, hal, hr, rfl, hv⟩ := decodeTlvPayload_eq_ok_iff.mp hd
  obtain ⟨back, rfl, ha⟩ := hb.of_append sequential_readEntry hal
  have hs : entries.filterMap (fieldOf x) = [] := by
    rw [filterMap_eq_nil_iff]
    exact fun e he => fieldOf_eq_none (hu e he)
  refine decodeTlvPayload_eq_ok_iff.mpr ⟨front ++ entries ++ back, ?_, ?_, ?_, hv⟩
  · exact (hb.append sequential_readEntry hi).append sequential_readEntry ha
  · intro e he
    rcases mem_append.mp he with he | he
    · rcases mem_append.mp he with he | he
      · exact hr e (mem_append_left back he)
      · intro tag ht
        rw [hu e he] at ht
        cases ht
    · exact hr e (mem_append_right front he)
  · rw [configOf, configOf, filterMap_append, filterMap_append, filterMap_append, hs, append_nil]

lemma readField_ff (h : readField x tag [0xff] = .ok f) : f = .certificate [0xff] := by
  cases tag with
  | certificate => exact (Except.ok.inj h).symm
  | _ => cases h

lemma certificate_set (c : DeepLinkConfig) (f : Field) : (Field.set c f).certificate =
      match f with
      | .certificate der => some der
      | _ => c.certificate := by
  cases f <;> rfl

lemma certificate_foldl {fields : List Field} {c : DeepLinkConfig}
    (h : c.certificate ≠ none ∨ ∃ der, .certificate der ∈ fields) :
    (fields.foldl Field.set c).certificate ≠ none := by
  induction fields generalizing c with
  | nil =>
    rcases h with h | ⟨der, hd⟩
    · exact h
    · cases hd
  | cons f fields ih =>
    refine ih ?_
    rw [certificate_set]
    rcases h with h | ⟨der, hd⟩
    · left
      split
      · exact Option.some_ne_none _
      · exact h
    · rcases mem_cons.mp hd with rfl | hd
      · exact .inl (Option.some_ne_none _)
      · exact .inr ⟨der, hd⟩

def leastConfig : DeepLinkConfig := { initial with subscriptionUrl := some "https://" }

def leastPayload : Bytes := writeEntry 0x0e (utf8 "https://")

lemma reads_leastPayload : Items.Reads readEntry leastPayload [(0x0e, utf8 "https://")] :=
  (encodes_writeEntry (by decide) (by decide +kernel)).reads

lemma decode_leastPayload (x : Crates) : decodeTlvPayload x leastPayload = .ok leastConfig := by
  have hf : fieldOf x (0x0e, utf8 "https://") = some (.subscriptionUrl "https://") := by
    have hr : readField x .subscriptionUrl (utf8 "https://") =
      .ok (.subscriptionUrl "https://") := by
      rw [readField, decodeString_utf8]
      rfl
    have hk : knownTag 0x0e = some .subscriptionUrl := rfl
    rw [fieldOf, hk, Option.bind_some, hr]
    rfl
  refine decodeTlvPayload_eq_ok_iff.mpr ⟨_, reads_leastPayload, ?_, ?_, by decide +kernel⟩
  · intro e he tag ht
    rw [mem_singleton.mp he] at ht ⊢
    cases ht
    exact ⟨_, by rw [readField, decodeString_utf8]; rfl⟩
  · rw [configOf, filterMap_cons_some hf]
    rfl

/-- **Which tags are ignored**: those whose low byte is not that of a field. -/
theorem unknown_ignored_iff (x : Crates) {tags : List Nat} (htags : ∀ t ∈ tags, t < 2 ^ 62) :
    Ignored x tags ↔ ∀ t ∈ tags, 16 ≤ t % 256 := by
  constructor
  · intro hi t ht
    by_contra hl
    let inserted := tags.map (fun t => (t, ([0xff] : Bytes)))
    have hr : Items.Reads readEntry (tags.flatMap (fun t => writeEntry t [0xff])) inserted :=
      Items.reads_flatMap (fun t ht => encodes_writeEntry (htags t ht) (by decide))
    have hd := hi [] _ leastPayload [] inserted leastConfig .nil hr
      (by rw [map_map]; exact map_id tags) (decode_leastPayload x)
    obtain ⟨all, ha, hre, hc, -⟩ := decodeTlvPayload_eq_ok_iff.mp hd
    obtain rfl := ha.unique sequential_readEntry
      (hr.append sequential_readEntry reads_leastPayload)
    have hm : (t, ([0xff] : Bytes)) ∈ inserted ++ [(0x0e, utf8 "https://")] :=
      mem_append_left _ (mem_map.mpr ⟨t, ht, rfl⟩)
    obtain ⟨tag, hta⟩ := Option.ne_none_iff_exists'.mp (mt knownTag_eq_none_iff.mp hl)
    obtain ⟨f, hf⟩ := hre _ hm tag hta
    obtain rfl := readField_ff hf
    have hfi : .certificate [0xff] ∈ (inserted ++ [(0x0e, utf8 "https://")]).filterMap
      (fieldOf x) :=
      mem_filterMap.mpr ⟨_, hm, by rw [fieldOf, hta, Option.bind_some, hf]; rfl⟩
    refine certificate_foldl (c := initial) (.inr ⟨_, hfi⟩) ?_
    change (configOf x _).certificate = none
    rw [← hc]
    rfl
  · intro h
    exact ignored_of_unknown x (fun t ht => knownTag_eq_none_iff.mpr (h t ht))

/-- `hex`, and the standard engine of `base64`. -/
def standard : Crates where
  hexDecode text :=
    match Rules.RulesEngine.hexDecode text with
    | some bytes => .ok bytes
    | none => .error "Invalid character"
  base64Encode := Core.base64
  base64Decode := Credentials.base64Decode

theorem spareTags_ignored : Ignored standard [0x10, 0x3fff] :=
  (unknown_ignored_iff standard (by decide)).mpr (by decide)

/-- The tag `0x101` is read as the tag of the host name. -/
theorem wideTag_read : decodeTlvPayload standard leastPayload = .ok leastConfig ∧
      Items.Reads readEntry (writeEntry 0x101 (utf8 "evil.example"))
        [(0x101, utf8 "evil.example")] ∧
      decodeTlvPayload standard (writeEntry 0x101 (utf8 "evil.example") ++ leastPayload) =
        .ok { leastConfig with hostname := some "evil.example" } :=
  ⟨decode_leastPayload standard, (encodes_writeEntry (by decide) (by decide +kernel)).reads,
    by decide +kernel⟩

/-! ## The order of the fields -/

structure Entry where
  bytes : Bytes
  tag : TlvTag
  value : Bytes
  wire : Items.Encodes readEntry bytes (tag.asU8.toNat, value)

def payloadOf (es : List Entry) : Bytes := es.flatMap Entry.bytes

def Entry.apply (x : Crates) (c : DeepLinkConfig) (e : Entry) : DeepLinkConfig :=
  (readField x e.tag e.value).toOption.elim c (Field.set c)

lemma Entry.apply_of_ok {e : Entry}
    (h : readField x e.tag e.value = .ok f) (c : DeepLinkConfig) : e.apply x c = Field.set c f := by
  rw [Entry.apply, h]
  rfl

lemma Entry.apply_comm (x : Crates) (e e' : Entry) (c : DeepLinkConfig) (h : e.tag ≠ e'.tag) :
    e'.apply x (e.apply x c) = e.apply x (e'.apply x c) := by
  unfold Entry.apply
  cases hf : readField x e.tag e.value with
  | error => rfl
  | ok f =>
    cases hg : readField x e'.tag e'.value with
    | error => rfl
    | ok g =>
      have ht : f.tag ≠ g.tag := by rwa [tag_of_readField hf, tag_of_readField hg]
      exact Field.set_comm ht c

lemma configOf_entries (x : Crates) (es : List Entry) (c : DeepLinkConfig) :
    ((es.map (fun e => (e.tag.asU8.toNat, e.value))).filterMap (fieldOf x)).foldl Field.set c =
      es.foldl (Entry.apply x) c := by
  induction es generalizing c with
  | nil => rfl
  | cons e es ih =>
    have hfi : fieldOf x (e.tag.asU8.toNat, e.value) = (readField x e.tag e.value).toOption := by
      rw [fieldOf, knownTag_asU8, Option.bind_some]
    rw [map_cons, foldl_cons, Entry.apply]
    cases hf : (readField x e.tag e.value).toOption with
    | none => rw [filterMap_cons_none (hfi.trans hf), ih, Option.elim_none]
    | some =>
      rw [filterMap_cons_some (hfi.trans hf), foldl_cons, ih, Option.elim_some]

lemma decode_payloadOf_iff : decodeTlvPayload x (payloadOf es) = .ok config ↔
      (∀ e ∈ es, ∃ f, readField x e.tag e.value = .ok f) ∧
        config = es.foldl (Entry.apply x) initial ∧ config.validate = .ok () := by
  have hr : Items.Reads readEntry (payloadOf es) (es.map (fun e => (e.tag.asU8.toNat, e.value))) :=
    Items.reads_flatMap (fun e _ => e.wire)
  have hre : (∀ e ∈ es.map (fun e => (e.tag.asU8.toNat, e.value)), Readable x e) ↔
      ∀ e ∈ es, ∃ f, readField x e.tag e.value = .ok f := by
    simp [Readable, knownTag_asU8]
  rw [decodeTlvPayload_eq_ok_iff, ← hre, ← configOf_entries]
  constructor
  · rintro ⟨entries, he, hrea, hc, hv⟩
    obtain rfl := he.unique sequential_readEntry hr
    exact ⟨hrea, hc, hv⟩
  · rintro ⟨hrea, hc, hv⟩
    exact ⟨_, hr, hrea, hc, hv⟩

lemma addresses_set (c : DeepLinkConfig) (f : Field) : (Field.set c f).addresses = match f with
      | .address s => c.addresses ++ [s]
      | _ => c.addresses := by
  cases f <;> rfl

lemma addresses_foldl {es : List Entry}
    (hr : ∀ e ∈ es, ∃ f, readField x e.tag e.value = .ok f) (c : DeepLinkConfig) :
    (es.foldl (Entry.apply x) c).addresses.map utf8 =
      c.addresses.map utf8 ++ (es.filter (fun e => e.tag = .address)).map Entry.value := by
  induction es generalizing c with
  | nil => exact (append_nil _).symm
  | cons e es ih =>
    obtain ⟨⟨f, hf⟩, hre⟩ := forall_mem_cons.mp hr
    rw [foldl_cons, ih hre, Entry.apply_of_ok hf, addresses_set]
    have ht := tag_of_readField hf
    by_cases ha : e.tag = .address
    · rw [ha] at hf
      rw [filter_cons_of_pos (by simpa using ha), map_cons]
      obtain ⟨s, hs, rfl⟩ : ∃ s, decodeString e.value = .ok s ∧ f = .address s := by
        simp only [readField] at hf
        cases hs : decodeString e.value with
        | error =>
          rw [hs] at hf
          cases hf
        | ok s =>
          rw [hs] at hf
          cases hf
          exact ⟨s, rfl, rfl⟩
      rw [decodeString_eq_ok_iff.mp hs, map_append, map_singleton, append_assoc, singleton_append]
    · rw [filter_cons_of_neg (by simpa using ha)]
      cases f <;> first | rfl | exact absurd ht.symm ha

/-- **The order of fields with different tags does not matter.** The last of a tag counts, and
all addresses. -/
theorem decode_reordered {x : Crates} {es : List Entry} {config : DeepLinkConfig}
    (h : decodeTlvPayload x (payloadOf es) = .ok config) :
    (∀ es' : List Entry, es'.Perm es →
        (∀ t, es'.filter (fun e => e.tag = t) = es.filter (fun e => e.tag = t)) →
          decodeTlvPayload x (payloadOf es') = .ok config) ∧
      (∀ t, t ≠ .address →
        decodeTlvPayload x (payloadOf (Keyed.keepLast Entry.tag t es)) = .ok config) ∧
      config.addresses.map utf8 = (es.filter (fun e => e.tag = .address)).map Entry.value := by
  obtain ⟨hr, rfl, hv⟩ := decode_payloadOf_iff.mp h
  refine ⟨fun es' _ hfi => ?_, fun t ht => ?_, ?_⟩
  · refine decode_payloadOf_iff.mpr
      ⟨fun e he => hr e (Keyed.mem_of_filter_eq hfi he), ?_, hv⟩
    exact (Keyed.foldl_eq_of_filter_eq (Entry.apply_comm x) hfi initial).symm
  · refine decode_payloadOf_iff.mpr ⟨fun e he => hr e (Keyed.mem_of_mem_keepLast he), ?_, hv⟩
    refine (Keyed.foldl_keepLast (Entry.apply_comm x) (fun e he e' he' hta hta' c =>
      ?_) initial).symm
    obtain ⟨f, hf⟩ := hr e he
    obtain ⟨g, hg⟩ := hr e' he'
    rw [Entry.apply_of_ok hf, Entry.apply_of_ok hg, Entry.apply_of_ok hg]
    have hft : f.tag = t := (tag_of_readField hf).trans hta
    have hgt : g.tag = t := (tag_of_readField hg).trans hta'
    exact Field.set_undone (hft.trans hgt.symm) (hgt ▸ ht) c
  · exact addresses_foldl hr initial

def entryOf (tag : TlvTag) (text : String) (h : (utf8 text).length < 2 ^ 62) : Entry where
  bytes := writeEntry tag.asU8.toNat (utf8 text)
  tag
  value := utf8 text
  wire := encodes_writeEntry (Nat.lt_of_lt_of_le (asU8_lt tag) (by decide)) h

def urlEntry : Entry := entryOf .subscriptionUrl "https://vpn.example/s" (by decide +kernel)
def oldNameEntry : Entry := entryOf .hostname "old.example" (by decide +kernel)
def newNameEntry : Entry := entryOf .hostname "vpn.example" (by decide +kernel)
def addressEntry : Entry := entryOf .address "192.0.2.1:443" (by decide +kernel)

def namedConfig : DeepLinkConfig :=
  { initial with
    hostname := some "vpn.example"
    addresses := ["192.0.2.1:443"]
    subscriptionUrl := some "https://vpn.example/s" }

theorem renamed_reordered :
    decodeTlvPayload standard (payloadOf [oldNameEntry, urlEntry, addressEntry, newNameEntry]) =
        .ok namedConfig ∧
      decodeTlvPayload standard (payloadOf [urlEntry, addressEntry, newNameEntry]) =
        .ok namedConfig := by
  have hd : decodeTlvPayload standard
      (payloadOf [urlEntry, oldNameEntry, addressEntry, newNameEntry]) = .ok namedConfig := by
    decide +kernel
  obtain ⟨hp, hl, -⟩ := decode_reordered hd
  exact ⟨hp _ (.swap _ _ _) (fun t => by cases t <;> rfl), hl .hostname (by decide)⟩

end TrustTunnel.DeepLink
