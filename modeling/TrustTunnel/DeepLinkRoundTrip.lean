import TrustTunnel.DeepLinkFields

/-!
# Deep links there and back

A configuration is written field by field (`fieldsOf`) and read back; builder, encoder and decoder
are compared.
-/

namespace TrustTunnel.DeepLink

open Io Lib List Rules.RulesEngine
open Lib.Http1 (utf8)
open Lib.Tlv (readEntry writeEntry writeVarint writeBlock)

/-! ## Writing a field -/

section

variable {α ε : Type} {parts : List (Except ε Bytes)} {payload : Bytes}

def fieldsOf (c : DeepLinkConfig) : List Field :=
  [.version]
    ++ (c.hostname.map Field.hostname).toList
    ++ (c.username.map Field.username).toList
    ++ (c.password.map Field.password).toList
    ++ c.addresses.map Field.address
    ++ ((c.clientRandomPrefix.filter (fun s => !s.isEmpty)).map Field.clientRandomPrefix).toList
    ++ ((c.clientRandomAuthKey.filter (fun s => !s.isEmpty)).map Field.clientRandomAuthKey).toList
    ++ (c.customSni.map Field.customSni).toList
    ++ (if c.hasIpv6 then [] else [.hasIpv6 false])
    ++ (if c.skipVerification then [.skipVerification true] else [])
    ++ (if c.antiDpi then [.antiDpi true] else [])
    ++ (c.certificate.map Field.certificate).toList
    ++ (if c.upstreamProtocol ≠ .http2 then [.upstreamProtocol c.upstreamProtocol] else [])
    ++ (c.name.map Field.name).toList
    ++ (if c.dnsUpstreams.isEmpty then [] else [.dnsUpstreams c.dnsUpstreams])
    ++ (c.subscriptionUrl.map Field.subscriptionUrl).toList

def Field.value : Field → Bytes
  | version => writeVarint currentVersion
  | hostname s | address s | customSni s | username s | password s | clientRandomPrefix s | name s
  | subscriptionUrl s | clientRandomAuthKey s => utf8 s
  | hasIpv6 b | skipVerification b | antiDpi b => if b then [0x01] else [0x00]
  | certificate der => der
  | upstreamProtocol p => [p.asU8]
  | dnsUpstreams l => l.flatMap (fun s => writeBlock (utf8 s))

/-- `payload.extend` for one field. -/
def encodeField (f : Field) : Except DeepLinkError Bytes :=
  match f with
  | .version => encodeVarint currentVersion >>= encodeTlv .version
  | .dnsUpstreams l => encodeStringArray l >>= encodeTlv .dnsUpstreams
  | f => encodeTlv f.tag f.value

lemma map_toList {β γ : Type} (o : Option α) (F : α → β) (g : β → γ) :
    (o.map F).toList.map g = (o.map (fun a => g (F a))).toList := by
  cases o <;> rfl

lemma sections_eq (c : DeepLinkConfig) : sections c = (fieldsOf c).map encodeField := by
  delta sections fieldsOf
  simp only [map_append, map_toList, map_map, apply_ite (map _)]
  rfl

lemma length_le_dnsUpstreams (hs : s ∈ l) :
    (utf8 s).length ≤ (Field.dnsUpstreams l).value.length := by
  have hsu : writeBlock (utf8 s) <:+: l.flatMap (fun s => writeBlock (utf8 s)) := by
    obtain ⟨a, b, rfl⟩ := append_of_mem hs
    rw [flatMap_append, flatMap_cons]
    exact ⟨_, _, by rw [append_assoc]⟩
  have hle := hsu.length_le
  rw [writeBlock, length_append] at hle
  exact Nat.le_trans (Nat.le_add_left _ _) hle

lemma encodeField_eq_ok_iff : encodeField f = .ok bytes ↔
      f.value.length < 2 ^ 62 ∧ bytes = writeEntry f.tag.asU8.toNat f.value := by
  cases f with
  | version =>
    have hv : encodeVarint currentVersion = .ok (writeVarint currentVersion) :=
      encodeVarint_eq (by decide)
    have hf : encodeField .version = encodeTlv .version (writeVarint currentVersion) := by
      rw [encodeField, hv]
      rfl
    rw [hf]
    exact encodeTlv_eq_ok_iff
  | dnsUpstreams =>
    rw [encodeField, bind_eq_ok]
    simp only [encodeStringArray_eq_ok_iff, encodeTlv_eq_ok_iff]
    constructor
    · rintro ⟨_, ⟨-, rfl⟩, h⟩
      exact h
    · rintro ⟨hl, rfl⟩
      exact ⟨_, ⟨fun s hs => Nat.lt_of_le_of_lt (length_le_dnsUpstreams hs) hl, rfl⟩, hl, rfl⟩
  | _ => exact encodeTlv_eq_ok_iff

lemma foldlM_extend :
    parts.foldlM (fun payload part => do return payload ++ (← part)) acc = .ok payload ↔
      ∃ pieces : List Bytes, parts = pieces.map .ok ∧ payload = acc ++ pieces.flatten := by
  induction parts generalizing acc with
  | nil =>
    constructor
    · intro h
      cases h
      exact ⟨[], rfl, (append_nil _).symm⟩
    · rintro ⟨pieces, hpieces, rfl⟩
      obtain rfl := map_eq_nil_iff.mp hpieces.symm
      exact congrArg Except.ok (append_nil acc).symm
  | cons part parts ih =>
    rw [foldlM_cons, bind_eq_ok]
    simp only [ih, bind_eq_ok]
    constructor
    · rintro ⟨_, ⟨piece, rfl, heq⟩, pieces, rfl, rfl⟩
      cases heq
      exact ⟨piece :: pieces, rfl, by rw [flatten_cons, append_assoc]⟩
    · rintro ⟨pieces, hpieces, rfl⟩
      obtain ⟨piece, rest, rfl, hp, hr⟩ := map_eq_cons_iff.mp hpieces.symm
      exact ⟨_, ⟨piece, hp.symm, rfl⟩, rest, hr.symm, by rw [flatten_cons, append_assoc]⟩

lemma extendAll_eq_ok_iff : extendAll parts = .ok payload ↔
      ∃ pieces : List Bytes, parts = pieces.map .ok ∧ payload = pieces.flatten := by
  simp only [extendAll, foldlM_extend, nil_append]

lemma extendAll_map_eq_ok_iff {write : α → Except ε Bytes} {Writable : α → Prop}
    {bytes : α → Bytes} (h : ∀ a b, write a = .ok b ↔ Writable a ∧ b = bytes a) {as : List α} :
    extendAll (as.map write) = .ok payload ↔
      (∀ a ∈ as, Writable a) ∧ payload = as.flatMap bytes := by
  rw [extendAll_eq_ok_iff]
  constructor
  · rintro ⟨pieces, hpieces, rfl⟩
    induction as generalizing pieces with
    | nil =>
      obtain rfl := map_eq_nil_iff.mp hpieces.symm
      exact ⟨forall_mem_nil _, rfl⟩
    | cons a as ih =>
      obtain ⟨piece, rest, rfl, hp, hr⟩ := map_eq_cons_iff.mp hpieces.symm
      obtain ⟨ha, rfl⟩ := (h a piece).mp hp.symm
      obtain ⟨has, hf⟩ := ih rest hr.symm
      exact ⟨forall_mem_cons.mpr ⟨ha, has⟩, by rw [flatten_cons, hf]; rfl⟩
  · rintro ⟨has, rfl⟩
    refine ⟨as.map bytes, ?_, flatMap_def⟩
    rw [map_map]
    exact map_congr_left (fun a ha => (h a _).mpr ⟨has a ha, rfl⟩)

def Fits (c : DeepLinkConfig) : Prop := ∀ f ∈ fieldsOf c, f.value.length < 2 ^ 62

def written (c : DeepLinkConfig) : Bytes :=
  (fieldsOf c).flatMap (fun f => writeEntry f.tag.asU8.toNat f.value)

/-- **The encoder, by the fields of the configuration.** -/
lemma encodeTlvPayload_eq_ok_iff {c : DeepLinkConfig} :
    encodeTlvPayload c = .ok payload ↔ c.validate = .ok () ∧ Fits c ∧ payload = written c := by
  rw [encodeTlvPayload, bind_eq_ok, sections_eq]
  simp only [extendAll_map_eq_ok_iff (fun _ _ => encodeField_eq_ok_iff)]
  constructor
  · rintro ⟨_, hv, hf, hp⟩
    exact ⟨hv, hf, hp⟩
  · rintro ⟨hv, hf, hp⟩
    exact ⟨(), hv, hf, hp⟩

end

/-! ## Hexadecimal texts -/

section

variable {x : Crates} {what text s : String} {u : Unit}

/-- What is known of `hex` and `base64`. -/
structure Crates.Lawful (x : Crates) : Prop where
  base64 : ∀ bytes, x.base64Decode (x.base64Encode bytes) = .ok bytes
  hex_empty : ∃ bytes, x.hexDecode "" = .ok bytes
  hex_slash : ∀ text bytes, x.hexDecode text = .ok bytes → '/' ∉ text.toList

def IsHex (x : Crates) (text : String) : Prop := ∃ bytes, x.hexDecode text = .ok bytes

/-- `hex` or `hex/hex`. -/
def IsPrefix (x : Crates) (text : String) : Prop :=
  IsHex x text ∨ ∃ p m, text = p ++ String.singleton '/' ++ m ∧ IsHex x p ∧ IsHex x m

lemma requireHex_eq_ok_iff : requireHex x what text = .ok u ↔ IsHex x text := by
  unfold requireHex IsHex
  cases x.hexDecode text <;> simp

def HexOrEmpty (x : Crates) (field : Option String) : Prop :=
  ∀ text, field.filter (fun s => !s.isEmpty) = some text → IsHex x text

lemma checkHex_eq_ok_iff : checkHex x what field = .ok u ↔ HexOrEmpty x field := by
  unfold HexOrEmpty
  cases field with
  | none => simp [checkHex]
  | some text =>
    have hc : checkHex x what (some text) =
        if text.isEmpty then .ok () else requireHex x what text := rfl
    rw [hc, Option.filter_some]
    cases text.isEmpty with
    | true => simp
    | false =>
      simp only [Bool.false_eq_true, if_false, Bool.not_false, if_true, Option.some.injEq,
        forall_eq']
      exact requireHex_eq_ok_iff

lemma isPrefix_iff (hx : x.Lawful) :
    IsPrefix x text ↔ IsHex x ((Text.splitOnce '/' text).getD (text, "")).1 ∧
      IsHex x ((Text.splitOnce '/' text).getD (text, "")).2 := by
  constructor
  · rintro (⟨bytes, ht⟩ | ⟨p, m, rfl, ⟨bytes, hp⟩, hm⟩)
    · rw [Text.splitOnce_eq_none.mpr (hx.hex_slash text bytes ht), Option.getD_none]
      exact ⟨⟨bytes, ht⟩, hx.hex_empty⟩
    · rw [Text.splitOnce_append (hx.hex_slash p bytes hp), Option.getD_some]
      exact ⟨⟨bytes, hp⟩, hm⟩
  · rintro ⟨hp, hm⟩
    cases hs : Text.splitOnce '/' text with
    | none =>
      rw [hs] at hp
      exact .inl hp
    | some =>
      rw [hs] at hp hm
      obtain ⟨⟨a, b⟩, hab, rfl⟩ := Option.map_eq_some_iff.mp hs
      refine .inr ⟨_, _, ?_, hp, hm⟩
      rw [← String.toList_inj, (Lib.splitOnce_eq_some.mp hab).1]
      simp

lemma decodePrefixField_eq_ok_iff (hx : x.Lawful) :
    decodePrefixField x (utf8 text) = .ok s ↔ IsPrefix x text ∧ s = text := by
  rw [isPrefix_iff hx, decodePrefixField, decodeString_utf8, @eq_comm _ s text]
  change (requireHex x _ _ >>= fun _ => requireHex x _ _ >>= fun _ => .ok text) = .ok s ↔ _
  simp only [bind_eq_ok, requireHex_eq_ok_iff, exists_const, Except.ok.injEq, and_assoc]
  rfl

lemma decodeAuthKeyField_eq_ok_iff :
    decodeAuthKeyField x (utf8 text) = .ok s ↔ IsHex x text ∧ s = text := by
  rw [decodeAuthKeyField, decodeString_utf8, @eq_comm _ s text]
  change (requireHex x _ _ >>= fun _ => .ok text) = .ok s ↔ _
  simp [bind_eq_ok, requireHex_eq_ok_iff]

end

/-! ## Reading a field back -/

def Field.Accepted (x : Crates) : Field → Prop
  | clientRandomPrefix s => IsPrefix x s
  | clientRandomAuthKey s => IsHex x s
  | _ => True

lemma decodeBool_value (b : Bool) : decodeBool (if b then [0x01] else [0x00]) = .ok b := by
  cases b <;> rfl

lemma decodeProtocol_value (p : Protocol) : decodeProtocol [p.asU8] = .ok p := by
  cases p <;> rfl

/-- **A field that is written is read back** if it passes the decoder's checks. -/
lemma readField_value (hx : x.Lawful) (h : f.value.length < 2 ^ 62) :
    readField x f.tag f.value = .ok g ↔ f.Accepted x ∧ g = f := by
  rw [@eq_comm _ g]
  cases f with
  | version =>
    have hv : decodeVersionField (writeVarint currentVersion) = .ok () := by decide
    simp [Field.tag, Field.value, Field.Accepted, readField, map_eq_ok_iff, hv]
  | certificate => simp [Field.tag, Field.value, Field.Accepted, readField]
  | hasIpv6 | skipVerification | antiDpi =>
    simp [Field.tag, Field.value, Field.Accepted, readField, map_eq_ok_iff, decodeBool_value]
  | upstreamProtocol =>
    simp [Field.tag, Field.value, Field.Accepted, readField, map_eq_ok_iff, decodeProtocol_value]
  | dnsUpstreams l =>
    have hl : decodeStringArray (l.flatMap (fun s => writeBlock (utf8 s))) = .ok l :=
      decodeStringArray_encoded (fun s hs => Nat.lt_of_le_of_lt (length_le_dnsUpstreams hs) h)
    simp [Field.tag, Field.value, Field.Accepted, readField, map_eq_ok_iff, hl]
  | clientRandomPrefix =>
    simp [Field.tag, Field.value, Field.Accepted, readField, map_eq_ok_iff,
      decodePrefixField_eq_ok_iff hx, and_assoc]
  | clientRandomAuthKey =>
    simp [Field.tag, Field.value, Field.Accepted, readField, map_eq_ok_iff,
      decodeAuthKeyField_eq_ok_iff, and_assoc]
  | _ =>
    simp [Field.tag, Field.value, Field.Accepted, readField, map_eq_ok_iff, decodeString_utf8]

lemma fieldOf_value (hx : x.Lawful) (h : f.value.length < 2 ^ 62)
    (hf : f.Accepted x) : fieldOf x (f.tag.asU8.toNat, f.value) = some f := by
  rw [fieldOf, knownTag_asU8, Option.bind_some, (readField_value hx h).mpr ⟨hf, rfl⟩]
  rfl

lemma readable_value_iff {x : Crates} (hx : x.Lawful) {f : Field} (h : f.value.length < 2 ^ 62) :
    Readable x (f.tag.asU8.toNat, f.value) ↔ f.Accepted x := by
  unfold Readable
  simp [knownTag_asU8, readField_value hx h]

lemma reads_written (h : Fits c) : Items.Reads readEntry (written c)
      ((fieldsOf c).map (fun f => (f.tag.asU8.toNat, f.value))) :=
  Items.reads_flatMap (fun f hf =>
    Tlv.encodes_writeEntry (Nat.lt_of_lt_of_le (asU8_lt f.tag) (by decide)) (h f hf))

/-! ## The fields say the configuration -/

section

variable {c : DeepLinkConfig} {s : String}

def DeepLinkConfig.normalised (c : DeepLinkConfig) : DeepLinkConfig :=
  { c with
    clientRandomPrefix := c.clientRandomPrefix.filter (fun s => !s.isEmpty)
    clientRandomAuthKey := c.clientRandomAuthKey.filter (fun s => !s.isEmpty) }

lemma foldl_optional {α : Type} (F : α → Field) (get : DeepLinkConfig → Option α)
    (put : DeepLinkConfig → Option α → DeepLinkConfig)
    (hs : ∀ d a, Field.set d (F a) = put d (some a)) (hg : ∀ d, put d (get d) = d)
    (o : Option α) (d : DeepLinkConfig) :
    (o.map F).toList.foldl Field.set d = put d (o.or (get d)) := by
  cases o with
  | none => exact (hg d).symm
  | some a => exact hs d a

lemma foldl_address (l : List String) (d : DeepLinkConfig) :
    (l.map Field.address).foldl Field.set d = { d with addresses := d.addresses ++ l } := by
  induction l generalizing d with
  | nil => rw [append_nil]; rfl
  | cons s l ih =>
    rw [map_cons, foldl_cons, ih]
    simp [Field.set]

/-- **The fields of a configuration say it.** -/
lemma foldl_fieldsOf (c : DeepLinkConfig) :
    (fieldsOf c).foldl Field.set initial = c.normalised := by
  have hi : ∀ d, (if c.hasIpv6 then [] else [.hasIpv6 false]).foldl Field.set d =
      { d with hasIpv6 := c.hasIpv6 && d.hasIpv6 } := by
    intro d
    cases c.hasIpv6 <;> rfl
  have hs : ∀ d, (if c.skipVerification then [.skipVerification true] else []).foldl Field.set d =
      { d with skipVerification := c.skipVerification || d.skipVerification } := by
    intro d
    cases c.skipVerification <;> rfl
  have hdp : ∀ d, (if c.antiDpi then [.antiDpi true] else []).foldl Field.set d =
      { d with antiDpi := c.antiDpi || d.antiDpi } := by
    intro d
    cases c.antiDpi <;> rfl
  have hp : ∀ d, d.upstreamProtocol = .http2 →
      (if c.upstreamProtocol ≠ .http2 then [.upstreamProtocol c.upstreamProtocol] else []).foldl
        Field.set d = { d with upstreamProtocol := c.upstreamProtocol } := by
    intro d hd
    cases c.upstreamProtocol with
    | http2 => cases d; cases hd; rfl
    | http3 => rfl
  have hdn : ∀ d, d.dnsUpstreams = [] →
      (if c.dnsUpstreams.isEmpty then [] else [.dnsUpstreams c.dnsUpstreams]).foldl Field.set d =
        { d with dnsUpstreams := c.dnsUpstreams } := by
    intro d hd
    cases c.dnsUpstreams with
    | nil => cases d; cases hd; rfl
    | cons => rfl
  simp only [fieldsOf, foldl_append]
  rw [foldl_optional .hostname DeepLinkConfig.hostname (fun d o => { d with hostname := o })
      (fun _ _ => rfl) (fun _ => rfl),
    foldl_optional .username DeepLinkConfig.username (fun d o => { d with username := o })
      (fun _ _ => rfl) (fun _ => rfl),
    foldl_optional .password DeepLinkConfig.password (fun d o => { d with password := o })
      (fun _ _ => rfl) (fun _ => rfl),
    foldl_address,
    foldl_optional .clientRandomPrefix DeepLinkConfig.clientRandomPrefix
      (fun d o => { d with clientRandomPrefix := o }) (fun _ _ => rfl) (fun _ => rfl),
    foldl_optional .clientRandomAuthKey DeepLinkConfig.clientRandomAuthKey
      (fun d o => { d with clientRandomAuthKey := o }) (fun _ _ => rfl) (fun _ => rfl),
    foldl_optional .customSni DeepLinkConfig.customSni (fun d o => { d with customSni := o })
      (fun _ _ => rfl) (fun _ => rfl),
    hi, hs, hdp,
    foldl_optional .certificate DeepLinkConfig.certificate (fun d o => { d with certificate := o })
      (fun _ _ => rfl) (fun _ => rfl),
    hp _ rfl,
    foldl_optional .name DeepLinkConfig.name (fun d o => { d with name := o })
      (fun _ _ => rfl) (fun _ => rfl),
    hdn _ rfl,
    foldl_optional .subscriptionUrl DeepLinkConfig.subscriptionUrl
      (fun d o => { d with subscriptionUrl := o }) (fun _ _ => rfl) (fun _ => rfl)]
  simp [initial, DeepLinkConfig.normalised, Field.set]

lemma clientRandomPrefix_mem_fieldsOf :
    .clientRandomPrefix s ∈ fieldsOf c ↔ c.normalised.clientRandomPrefix = some s := by
  simp [fieldsOf, DeepLinkConfig.normalised]

lemma clientRandomAuthKey_mem_fieldsOf :
    .clientRandomAuthKey s ∈ fieldsOf c ↔ c.normalised.clientRandomAuthKey = some s := by
  simp [fieldsOf, DeepLinkConfig.normalised]

lemma accepted_fieldsOf_iff : (∀ f ∈ fieldsOf c, f.Accepted x) ↔
      (∀ s, c.normalised.clientRandomPrefix = some s → IsPrefix x s) ∧
        HexOrEmpty x c.clientRandomAuthKey := by
  constructor
  · intro h
    constructor
    · intro s hs
      exact h (.clientRandomPrefix s) (clientRandomPrefix_mem_fieldsOf.mpr hs)
    · intro s hs
      exact h (.clientRandomAuthKey s) (clientRandomAuthKey_mem_fieldsOf.mpr hs)
  · rintro ⟨hr, hk⟩ f hf
    cases f with
    | clientRandomPrefix s => exact hr s (clientRandomPrefix_mem_fieldsOf.mp hf)
    | clientRandomAuthKey s => exact hk s (clientRandomAuthKey_mem_fieldsOf.mp hf)
    | _ => trivial

end

/-! ## There and back -/

lemma decode_link (hx : x.Lawful) (payload : Bytes) :
    decode x ("tt://?" ++ x.base64Encode payload) = decodeTlvPayload x payload := by
  have hs : Text.startsWith "tt://" ("tt://?" ++ x.base64Encode payload) := by
    simp [Text.startsWith]
  have hst : Authentication.stripPrefix "tt://?" ("tt://?" ++ x.base64Encode payload) =
      some (x.base64Encode payload) := Credentials.stripPrefix_append _ _
  simp only [decode, hs, hst, Option.some_or, hx.base64, Bool.not_true, Bool.false_eq_true,
    if_false]
  rfl

lemma encode_eq_ok_iff : encode x c = .ok uri ↔
      c.validate = .ok () ∧ Fits c ∧ uri = "tt://?" ++ x.base64Encode (written c) := by
  rw [encode, bind_eq_ok]
  simp only [encodeTlvPayload_eq_ok_iff]
  constructor
  · rintro ⟨payload, ⟨hv, hf, hp⟩, hl⟩
    rw [← hp]
    exact ⟨hv, hf, (Except.ok.inj hl).symm⟩
  · rintro ⟨hv, hf, hu⟩
    exact ⟨written c, ⟨hv, hf, rfl⟩, congrArg Except.ok hu.symm⟩

lemma decode_written_iff (hx : x.Lawful) (hv : c.validate = .ok ()) (hfi : Fits c) :
    decodeTlvPayload x (written c) = .ok c' ↔
      (∀ f ∈ fieldsOf c, f.Accepted x) ∧ c' = c.normalised := by
  have hc : (∀ f ∈ fieldsOf c, f.Accepted x) →
      configOf x ((fieldsOf c).map (fun f => (f.tag.asU8.toNat, f.value))) = c.normalised := by
    intro ha
    have hs : ∀ f ∈ fieldsOf c,
        (fieldOf x ∘ fun f : Field => (f.tag.asU8.toNat, f.value)) f = some f := fun f hf =>
      fieldOf_value hx (hfi f hf) (ha f hf)
    rw [configOf, filterMap_map, filterMap_congr hs, filterMap_some, foldl_fieldsOf]
  rw [decodeTlvPayload_eq_ok_iff]
  constructor
  · rintro ⟨entries, hr, hre, rfl, -⟩
    rw [hr.unique Tlv.sequential_readEntry (reads_written hfi)] at hre ⊢
    have ha : ∀ f ∈ fieldsOf c, f.Accepted x := fun f hf =>
      (readable_value_iff hx (hfi f hf)).mp (hre _ (mem_map_of_mem hf))
    exact ⟨ha, hc ha⟩
  · rintro ⟨ha, rfl⟩
    refine ⟨_, reads_written hfi, ?_, (hc ha).symm, hv⟩
    intro e he
    obtain ⟨f, hf, rfl⟩ := mem_map.mp he
    exact (readable_value_iff hx (hfi f hf)).mpr (ha f hf)

/-- **The round trip**, with an empty prefix or key left out. -/
theorem link_round_trip {x : Crates} (hx : x.Lawful) {c : DeepLinkConfig}
    (hvalid : c.validate = .ok ())
    (hrandom : ∀ s, c.clientRandomPrefix = some s → IsPrefix x s)
    (hkey : ∀ s, c.clientRandomAuthKey = some s → IsHex x s) (hfits : Fits c) :
    ∃ uri, encode x c = .ok uri ∧ decode x uri = .ok c.normalised := by
  refine ⟨_, encode_eq_ok_iff.mpr ⟨hvalid, hfits, rfl⟩, ?_⟩
  rw [decode_link hx, decode_written_iff hx hvalid hfits, accepted_fieldsOf_iff]
  refine ⟨⟨?_, ?_⟩, rfl⟩
  · intro s hs
    exact hrandom s (Option.filter_eq_some_iff.mp hs).1
  · intro s hs
    exact hkey s (Option.filter_eq_some_iff.mp hs).1

lemma slash_notMem_of_go (h : hexDecode.go l = some bytes) : '/' ∉ l := by
  induction l using hexDecode.go.induct generalizing bytes with
  | case1 => exact not_mem_nil
  | case2 => cases h
  | case3 a b rest ih =>
    simp only [hexDecode.go, Option.bind_eq_bind, Option.bind_eq_some_iff] at h
    obtain ⟨d, ha, e, hb, tail, hr, -⟩ := h
    have hd : NetUtils.Parser.toDigit 16 '/' = none := by decide
    simp only [mem_cons, not_or]
    refine ⟨?_, ?_, ih hr⟩
    · rintro rfl
      rw [hd] at ha
      cases ha
    · rintro rfl
      rw [hd] at hb
      cases hb

lemma standard_lawful : standard.Lawful where
  base64 := Credentials.base64_standard.decode_encode
  hex_empty := ⟨[], by decide⟩
  hex_slash text bytes h := by
    simp only [standard] at h
    split at h
    · rename_i hgo
      exact slash_notMem_of_go hgo
    · cases h

lemma fits_of_all (h : (fieldsOf c).all (fun f => decide (f.value.length < 2 ^ 62))) : Fits c :=
  fun f hf => of_decide_eq_true (all_eq_true.mp h f hf)

def maskedConfig : DeepLinkConfig :=
  { initial with
    hostname := some "vpn.example"
    addresses := ["1.2.3.4:443", "[::1]:443"]
    username := some "alice"
    password := some "secret"
    clientRandomPrefix := some "aabb/ff00"
    clientRandomAuthKey := some "" }

theorem maskedConfig_round_trip : ∃ uri, encode standard maskedConfig = .ok uri ∧
      decode standard uri = .ok { maskedConfig with clientRandomAuthKey := none } := by
  refine link_round_trip standard_lawful (by decide +kernel) ?_ ?_ ?_
  · rintro s hs
    cases hs
    exact .inr ⟨"aabb", "ff00", by decide, ⟨[0xaa, 0xbb], by decide⟩, ⟨[0xff, 0x00], by decide⟩⟩
  · rintro s hs
    cases hs
    exact ⟨[], by decide⟩
  · exact fits_of_all (by decide +kernel)

/-! ## One notion of validity -/

/-- The builder accepts what the encoder accepts, and the decoder what the encoder writes. -/
def OneNotion (x : Crates) (b : DeepLinkConfigBuilder) : Prop :=
  ((∃ c, b.build x = .ok c) ↔ ∃ uri, encode x b.config = .ok uri) ∧
    ((∃ uri, encode x b.config = .ok uri) ↔
      ∃ uri c, encode x b.config = .ok uri ∧ decode x uri = .ok c)

lemma build_ok_iff {b : DeepLinkConfigBuilder} :
    (∃ c, b.build x = .ok c) ↔ b.config.validate = .ok () ∧
      HexOrEmpty x b.clientRandomPrefix ∧ HexOrEmpty x b.clientRandomAuthKey := by
  rw [DeepLinkConfigBuilder.build]
  simp only [bind_eq_ok, checkHex_eq_ok_iff, exists_const]
  constructor
  · rintro ⟨c, hr, hk, _, hv, -⟩
    exact ⟨hv, hr, hk⟩
  · rintro ⟨hv, hr, hk⟩
    exact ⟨_, hr, hk, (), hv, rfl⟩

lemma encode_ok_iff : (∃ uri, encode x c = .ok uri) ↔ c.validate = .ok () ∧ Fits c := by
  simp [encode_eq_ok_iff]

lemma decode_ok_iff (hx : x.Lawful) : (∃ uri c', encode x c = .ok uri ∧ decode x uri = .ok c') ↔
      c.validate = .ok () ∧ Fits c ∧ ∀ f ∈ fieldsOf c, f.Accepted x := by
  constructor
  · rintro ⟨_, c', he, hd⟩
    obtain ⟨hv, hf, hu⟩ := encode_eq_ok_iff.mp he
    rw [hu, decode_link hx, decode_written_iff hx hv hf] at hd
    exact ⟨hv, hf, hd.1⟩
  · rintro ⟨hv, hf, ha⟩
    refine ⟨_, c.normalised, encode_eq_ok_iff.mpr ⟨hv, hf, rfl⟩, ?_⟩
    rw [decode_link hx]
    exact (decode_written_iff hx hv hf).mpr ⟨ha, rfl⟩

/-- **When they agree**: the prefix and the key are hexadecimal exactly if the fields can be
written. -/
theorem validity_iff {x : Crates} (hx : x.Lawful) (b : DeepLinkConfigBuilder) :
    OneNotion x b ↔ (b.config.validate = .ok () →
      (HexOrEmpty x b.clientRandomPrefix ∧ HexOrEmpty x b.clientRandomAuthKey ↔
        Fits b.config)) := by
  have ha : HexOrEmpty x b.clientRandomPrefix ∧ HexOrEmpty x b.clientRandomAuthKey →
      ∀ f ∈ fieldsOf b.config, f.Accepted x := by
    rintro ⟨hr, hk⟩
    exact accepted_fieldsOf_iff.mpr ⟨fun s hs => .inl (hr s hs), hk⟩
  rw [OneNotion, build_ok_iff, encode_ok_iff, decode_ok_iff hx]
  by_cases hv : b.config.validate = .ok ()
  · simp only [hv, true_and, true_imp_iff]
    constructor
    · rintro ⟨hb, -⟩
      exact hb
    · intro hb
      exact ⟨hb, fun hf => ⟨hf, ha (hb.mpr hf)⟩, And.left⟩
  · simp only [hv, false_and, false_imp_iff, iff_self, and_self]

def prefixBuilder (prefixText : String) : DeepLinkConfigBuilder :=
  { hostname := some "vpn.example", addresses := some ["1.2.3.4:443"], username := some "alice",
    password := some "secret", clientRandomPrefix := some prefixText, clientRandomAuthKey := none,
    customSni := none, hasIpv6 := none, skipVerification := none, certificate := none,
    upstreamProtocol := none, antiDpi := none, name := none, dnsUpstreams := none,
    subscriptionUrl := none }

theorem plainPrefix_oneNotion : OneNotion standard (prefixBuilder "aabb") := by
  refine (validity_iff standard_lawful _).mpr (fun _ => iff_of_true ⟨?_, ?_⟩ ?_)
  · rintro s hs
    cases hs
    exact ⟨[0xaa, 0xbb], by decide⟩
  · rintro s hs
    cases hs
  · exact fits_of_all (by decide +kernel)

/-- The builder refuses a masked prefix, and the encoder accepts one that is not hexadecimal. -/
theorem builder_apart : (prefixBuilder "aabb/ff00").build standard =
        .error (.invalidAddress "client_random_prefix must be valid hex: Invalid character") ∧
      (encode standard (prefixBuilder "aabb/ff00").config).bind (decode standard) =
        .ok (prefixBuilder "aabb/ff00").config ∧
      (∃ uri, encode standard (prefixBuilder "zz").config = .ok uri) ∧
      (encode standard (prefixBuilder "zz").config).bind (decode standard) =
        .error (.invalidAddress "client_random_prefix must be valid hex: Invalid character") := by
  refine ⟨by decide +kernel, by decide +kernel, ?_, by decide +kernel⟩
  exact encode_ok_iff.mpr ⟨by decide +kernel, fits_of_all (by decide +kernel)⟩

end TrustTunnel.DeepLink
