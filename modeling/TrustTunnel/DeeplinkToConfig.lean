import TrustTunnel.ConfigToDeeplink
import TrustTunnel.DeepLinkCert

/-!
# The script that reads links

`scripts/deeplink_to_config.py` decodes what `deeplink/src/decode.rs` decodes.
-/

namespace TrustTunnel.Scripts.DeeplinkToConfig

open Io Lib List ConfigToDeeplink Tlv
open Lib.Http1 (utf8)
open Lib.Tlv (readVarint readBlock readEntry)

/-! ## Integers -/

def decodeVarintOf (size mask : Nat) (truncated : String) (data : Bytes) :
    Except PyError (Nat × Bytes) :=
  if data.length < size then .error (.valueError truncated)
  else .ok (ofBigEndian (data.take size) &&& mask, data.drop size)

def decodeVarint (data : Bytes) : Except PyError (Nat × Bytes) :=
  match data with
  | [] => .error (.valueError "unexpected end of data while reading varint")
  | first :: rest =>
    match (first >>> 6).toNat with
    | 0 => .ok ((first &&& 0x3f).toNat, rest)
    | 1 => decodeVarintOf 2 0x3fff "truncated 2-byte varint" data
    | 2 => decodeVarintOf 4 0x3fffffff "truncated 4-byte varint" data
    | _ => decodeVarintOf 8 0x3fffffffffffffff "truncated 8-byte varint" data

/-! ## Certificates -/

/-- `_read_asn1_length`; integers have any size. -/
def readAsn1Length (data : Bytes) : Except PyError (Nat × Bytes) :=
  match data with
  | [] => .error (.valueError "unexpected end of data in ASN.1 length")
  | first :: rest =>
    if first < 0x80 then .ok (first.toNat, rest)
    else
      let numBytes := (first &&& 0x7f).toNat
      if numBytes = 0 ∨ rest.length < numBytes then
        .error (.valueError "invalid ASN.1 length encoding")
      else .ok (ofBigEndian (rest.take numBytes), rest.drop numBytes)

/-- The body of the loop in `_split_der_certs`. -/
def nextCert (total : Nat) (data : Bytes) : Except PyError (Bytes × Bytes) :=
  match data with
  | [] => .error (.valueError "unexpected end of data")
  | first :: rest =>
    if first ≠ 0x30 then
      .error (.valueError ("expected ASN.1 SEQUENCE (0x30) at offset "
        ++ toString (total - data.length) ++ ", got 0x" ++ DeepLink.hexUpper first.toNat))
    else do
      let (bodyLen, body) ← readAsn1Length rest
      let hdrEnd := total - body.length
      if total < hdrEnd + bodyLen then .error (.valueError "truncated DER certificate")
      else return (data.take (data.length - body.length + bodyLen), body.drop bodyLen)

def splitDerCerts (data : Bytes) : Except PyError (List Bytes) :=
  Items.loop (nextCert data.length) (fun certs cert => .ok (certs ++ [cert])) data.length [] data

/-- `[text[i:i + 64] for i in range(0, len(text), 64)]`. -/
def slices (text : List Char) : List (List Char) :=
  (range ((text.length + 63) / 64)).map fun i => (text.drop (64 * i)).take 64

/-- What the loop in `der_to_pem` appends. -/
def pemBlock (x : PyLib) (der : Bytes) : String :=
  "-----BEGIN CERTIFICATE-----\n" ++
    "\n".intercalate ((slices (x.b64encode der).toList).map String.ofList) ++
    "\n-----END CERTIFICATE-----"

def derToPem (x : PyLib) (data : Bytes) : Except PyError String := do
  let certs ← splitDerCerts data
  return "\n".intercalate (certs.map (pemBlock x)) ++ "\n"

/-! ## Entries -/

/-- The body of the loop in `parse_tlv`. -/
def parseEntry (data : Bytes) : Except PyError ((Nat × Bytes) × Bytes) := do
  let (tag, data) ← decodeVarint data
  let (length, data) ← decodeVarint data
  if data.length < length then
    .error (.valueError ("TLV value truncated: tag=0x" ++ DeepLink.hexUpper tag ++ ", expected "
      ++ toString length ++ " bytes, got " ++ toString data.length))
  else return ((tag, data.take length), data.drop length)

def parseTlv (data : Bytes) : Except PyError (List (Nat × Bytes)) :=
  Items.loop parseEntry (fun entries entry => .ok (entries ++ [entry])) data.length [] data

/-- `bytes.decode`. -/
def decodeText (value : Bytes) : Except PyError String :=
  match String.fromUTF8? ⟨value.toArray⟩ with
  | some s => .ok s
  | none => .error .unicodeDecodeError

/-- The body of the loop in `_decode_string_array`, up to the slice. -/
def nextString (data : Bytes) : Except PyError (Bytes × Bytes) := do
  let (length, data) ← decodeVarint data
  if data.length < length then .error (.valueError "truncated string in String[] value")
  else return (data.take length, data.drop length)

def decodeStringArray (data : Bytes) : Except PyError (List String) :=
  Items.loop nextString (fun result entry => do return result ++ [← decodeText entry])
    data.length [] data

/-! ## The decoder -/

def currentVersion : Nat := 2

def protocolRmap (byte : UInt8) : Option String :=
  if byte = 0x01 then some "http2" else if byte = 0x02 then some "http3" else none

structure State where
  cfg : Cfg
  addresses : List String

def initial : State :=
  ⟨⟨none, none, none, none, none, none, none, none, none, none, none, none, none, none⟩, []⟩

/-- `value[0]`. -/
def firstByte (value : Bytes) : Except PyError UInt8 :=
  match value with
  | [] => .error (.indexError "index out of range")
  | byte :: _ => .ok byte

def decodeFlag (value : Bytes) : Except PyError Bool := do return (← firstByte value) != 0

/-- The body of the loop in `decode_config`; unknown tags are ignored. -/
def onEntry (x : PyLib) (s : State) (entry : Nat × Bytes) : Except PyError State :=
  let cfg := s.cfg
  let value := entry.2
  match entry.1 with
  | 0x00 => do
    let (version, _) ← decodeVarint value
    if currentVersion < version then
      .error (.valueError ("unsupported deep link version: " ++ toString version
        ++ " (max supported: " ++ toString currentVersion ++ ")"))
    else return s
  | 0x01 => do return { s with cfg := { cfg with hostname := some (← decodeText value) } }
  | 0x02 => do return { s with addresses := s.addresses ++ [← decodeText value] }
  | 0x03 => do return { s with cfg := { cfg with customSni := some (← decodeText value) } }
  | 0x04 => do return { s with cfg := { cfg with hasIpv6 := some (← decodeFlag value) } }
  | 0x05 => do return { s with cfg := { cfg with username := some (← decodeText value) } }
  | 0x06 => do return { s with cfg := { cfg with password := some (← decodeText value) } }
  | 0x07 => do return { s with cfg := { cfg with skipVerification := some (← decodeFlag value) } }
  | 0x08 => do return { s with cfg := { cfg with certificate := some (← derToPem x value) } }
  | 0x09 => do
    let protoByte ← firstByte value
    match protocolRmap protoByte with
    | none =>
      .error (.valueError ("unknown upstream_protocol byte: 0x" ++ DeepLink.hexUpper protoByte.toNat))
    | some proto => return { s with cfg := { cfg with upstreamProtocol := some proto } }
  | 0x0a => do return { s with cfg := { cfg with antiDpi := some (← decodeFlag value) } }
  | 0x0b => do return { s with cfg := { cfg with clientRandomPrefix := some (← decodeText value) } }
  | 0x0c => do return { s with cfg := { cfg with name := some (← decodeText value) } }
  | 0x0d => do return { s with cfg := { cfg with dnsUpstreams := some (← decodeStringArray value) } }
  | 0x0e => do return { s with cfg := { cfg with subscriptionUrl := some (← decodeText value) } }
  | _ => .ok s

def finish (s : State) : Cfg :=
  { s.cfg with
    addresses := if s.addresses.isEmpty then s.cfg.addresses else some s.addresses
    hasIpv6 := some (s.cfg.hasIpv6.getD true)
    skipVerification := some (s.cfg.skipVerification.getD false)
    upstreamProtocol := some (s.cfg.upstreamProtocol.getD "http2")
    antiDpi := some (s.cfg.antiDpi.getD false)
    certificate := some (s.cfg.certificate.getD "") }

def decodeConfig (x : PyLib) (data : Bytes) : Except PyError Cfg := do
  let entries ← parseTlv data
  let s ← entries.foldlM (onEntry x) initial
  if s.cfg.subscriptionUrl.any (fun url => !Text.startsWith "https://" url) then
    .error (.valueError ("subscription_url must be an https:// URL: "
      ++ s.cfg.subscriptionUrl.getD ""))
  else return finish s

/-! ## The script reads what the crate reads -/

lemma toOption_decodeVarint (data : Bytes) : (decodeVarint data).toOption = readVarint data := by
  have hof : ∀ size mask truncated, (decodeVarintOf size mask truncated data).toOption =
      (DeepLink.decodeVarintOf size mask truncated data).toOption := by
    intro size mask truncated
    unfold decodeVarintOf DeepLink.decodeVarintOf
    split <;> rfl
  rw [← DeepLink.toOption_decodeVarint]
  cases data with
  | nil => rfl
  | cons first =>
    simp only [decodeVarint, DeepLink.decodeVarint]
    generalize (first >>> 6).toNat = width
    rcases width with _ | _ | _ | width
    · rfl
    · exact hof _ _ _
    · exact hof _ _ _
    · exact hof _ _ _

lemma toOption_nextString (data : Bytes) : (nextString data).toOption = readBlock data := by
  rw [nextString, toOption_bind, toOption_decodeVarint, readBlock]
  congr 1
  refine funext ?_
  rintro ⟨length, rest⟩
  simp only [Items.take]
  split <;> rfl

lemma toOption_parseEntry (data : Bytes) : (parseEntry data).toOption = readEntry data := by
  rw [parseEntry, toOption_bind, toOption_decodeVarint, readEntry]
  congr 1
  refine funext ?_
  rintro ⟨tag, rest⟩
  simp only [toOption_bind, toOption_decodeVarint, readBlock]
  cases readVarint rest with
  | none => rfl
  | some =>
    simp only [Option.bind_some, Items.take]
    split <;> rfl

/-- **The script reads the entries that the crate reads.** -/
lemma parseTlv_eq_ok_iff {data : Bytes} {entries : List (Nat × Bytes)} :
    parseTlv data = .ok entries ↔ Items.Reads readEntry data entries := by
  have hr : (fun l => (parseEntry l).toOption) = readEntry := funext toOption_parseEntry
  rw [parseTlv, Items.loop_eq_ok_iff (by rw [hr]; exact sequential_readEntry) le_rfl, hr]
  simp [foldlM_collect]

lemma toOption_decodeText (value : Bytes) :
    (decodeText value).toOption = (DeepLink.decodeString value).toOption := by
  unfold decodeText DeepLink.decodeString
  cases String.fromUTF8? ⟨value.toArray⟩ <;> rfl

lemma decodeText_eq_ok_iff : decodeText value = .ok s ↔ DeepLink.decodeString value = .ok s := by
  rw [← toOption_eq_some_iff, toOption_decodeText, toOption_eq_some_iff]

lemma decodeStringArray_eq_ok_iff :
    decodeStringArray value = .ok l ↔ DeepLink.decodeStringArray value = .ok l := by
  have hr : (fun l => (nextString l).toOption) = readBlock := funext toOption_nextString
  have hr' : (fun l => (DeepLink.nextListEntry l).toOption) = readBlock :=
    funext DeepLink.toOption_nextListEntry
  have hf : ∀ blocks : List Bytes,
      blocks.foldlM (fun result entry => do return result ++ [← decodeText entry]) [] = .ok l ↔
        blocks.foldlM (fun result entry => do return result ++ [← DeepLink.decodeString entry]) [] =
          .ok l := by
    intro blocks
    rw [← toOption_eq_some_iff, ← toOption_eq_some_iff, toOption_foldlM_congr]
    intro result entry
    simp only [toOption_bind, toOption_decodeText]
    rfl
  rw [decodeStringArray, DeepLink.decodeStringArray,
    Items.loop_eq_ok_iff (by rw [hr]; exact sequential_readBlock) le_rfl,
    Items.loop_eq_ok_iff (by rw [hr']; exact sequential_readBlock) le_rfl, hr, hr']
  simp only [hf]

lemma decodeFlag_of_decodeBool
    (hc : DeepLink.decodeBool value = .ok b) (hs : decodeFlag value = .ok b') : b' = b := by
  unfold DeepLink.decodeBool at hc
  split at hc
  · rename_i byte
    cases hs
    split at hc
    · rename_i hb
      cases hc
      rw [show byte = 0 from UInt8.toNat_inj.mp hb]
      rfl
    · rename_i hb
      cases hc
      rw [show byte = 1 from UInt8.toNat_inj.mp hb]
      rfl
    · cases hc
  · cases hc

lemma firstByte_of_decodeProtocol
    (hc : DeepLink.decodeProtocol value = .ok p) (hs : firstByte value = .ok byte) :
    byte = p.asU8 := by
  unfold DeepLink.decodeProtocol DeepLink.Protocol.fromU8 at hc
  split at hc
  · cases hs
    split at hc
    · rename_i hb
      cases hc
      exact UInt8.toNat_inj.mp hb
    · rename_i hb
      cases hc
      exact UInt8.toNat_inj.mp hb
    · cases hc
  · cases hc

/-! ## Certificates -/

/-- An ASN.1 length field whose value is `n`. -/
def LengthField (field : Bytes) (n : Nat) : Prop :=
  match field with
  | [] => False
  | first :: bytes =>
    if first < 0x80 then bytes = [] ∧ n = first.toNat
    else bytes ≠ [] ∧ bytes.length = (first &&& 0x7f).toNat ∧ n = ofBigEndian bytes

/-- A sequence tag, a length field, and as many bytes as `wrap` makes of it. -/
def IsPiece (wrap : Nat → Nat) (cert : Bytes) : Prop :=
  ∃ field n body, cert = 0x30 :: (field ++ body) ∧ LengthField field n ∧ body.length = wrap n

lemma readAsn1Length_eq_ok :
    readAsn1Length data = .ok (n, rest) ↔ ∃ field, data = field ++ rest ∧ LengthField field n := by
  constructor
  · intro h
    cases data with
    | nil => cases h
    | cons first tail =>
      rw [readAsn1Length] at h
      split at h
      · rename_i hs
        cases h
        exact ⟨[first], rfl, by rw [LengthField, if_pos hs]; exact ⟨rfl, rfl⟩⟩
      · rename_i hl
        obtain ⟨hbytes, h⟩ := ite_error_eq_ok.mp h
        cases h
        have hle : (tail.take (first &&& 0x7f).toNat).length = (first &&& 0x7f).toNat := by
          rw [length_take]
          omega
        refine ⟨first :: tail.take (first &&& 0x7f).toNat, by simp, ?_⟩
        rw [LengthField, if_neg hl]
        exact ⟨ne_nil_of_length_pos (by omega), hle, rfl⟩
  · rintro ⟨field, rfl, h⟩
    cases field with
    | nil => exact h.elim
    | cons first bytes =>
      rw [LengthField] at h
      rw [cons_append, readAsn1Length]
      split at h
      · rename_i hs
        obtain ⟨rfl, rfl⟩ := h
        rw [if_pos hs]
        rfl
      · rename_i hl
        obtain ⟨hne, hle, rfl⟩ := h
        have hpos := length_pos_iff.mpr hne
        have he : ¬ ((first &&& 0x7f).toNat = 0 ∨
          (bytes ++ rest).length < (first &&& 0x7f).toNat) := by
          rw [length_append]
          omega
        rw [if_neg hl]
        simp only [if_neg he]
        rw [← hle, take_left, drop_left]

lemma crate_readAsn1Length (data : Bytes) : (DeepLink.readAsn1Length data).toOption =
      (readAsn1Length data).toOption.map (fun x => (x.1 % 2 ^ 64, x.2)) := by
  cases data with
  | nil => rfl
  | cons first tail =>
    rw [readAsn1Length, DeepLink.readAsn1Length]
    split
    · have hs : first.toNat % 2 ^ 64 = first.toNat :=
        Nat.mod_eq_of_lt (by have := first.toNat_lt; omega)
      exact congrArg (fun n => some (n, tail)) hs.symm
    · have hw := DeepLink.ofBigEndian_wrapped (tail.take (first &&& 0x7f).toNat) 0
      rw [Nat.zero_mod] at hw
      simp only [hw]
      split <;> rfl

lemma crate_readAsn1Length_eq_ok : DeepLink.readAsn1Length data = .ok (m, rest) ↔
      ∃ field n, data = field ++ rest ∧ LengthField field n ∧ m = n % 2 ^ 64 := by
  rw [← toOption_eq_some_iff, crate_readAsn1Length, Option.map_eq_some_iff]
  constructor
  · rintro ⟨⟨n, rest⟩, h, ⟨⟩⟩
    obtain ⟨field, hd, hf⟩ := readAsn1Length_eq_ok.mp (toOption_eq_some_iff.mp h)
    exact ⟨field, n, hd, hf, rfl⟩
  · rintro ⟨field, n, hd, hf, rfl⟩
    exact ⟨(n, rest), toOption_eq_some_iff.mpr (readAsn1Length_eq_ok.mpr ⟨field, hd, hf⟩), rfl⟩

lemma piece_iff :
    (∃ field n body, data = 0x30 :: (field ++ body) ∧ LengthField field n ∧ wrap n ≤ body.length ∧
      cert = data.take (data.length - body.length + wrap n) ∧ rest = body.drop (wrap n)) ↔
    data = cert ++ rest ∧ IsPiece wrap cert := by
  have ht (field body : Bytes) (n : Nat) :
      (0x30 :: (field ++ body)).take ((0x30 :: (field ++ body)).length - body.length + n) =
        0x30 :: (field ++ body.take n) := by
    have hc : (0x30 :: (field ++ body)).length - body.length + n = field.length + n + 1 := by
      simp only [length_cons, length_append]
      omega
    rw [hc, take_succ_cons, take_length_add_append]
  constructor
  · rintro ⟨field, n, body, rfl, hf, hn, rfl, rfl⟩
    rw [ht]
    refine ⟨by simp, field, n, body.take (wrap n), rfl, hf, length_take_of_le hn⟩
  · rintro ⟨rfl, field, n, body, rfl, hf, hn⟩
    refine ⟨field, n, body ++ rest, by simp, hf, by simp [hn], ?_, ?_⟩
    · rw [cons_append, append_assoc, ht, ← hn, take_left]
    · rw [← hn, drop_left]

lemma nextCert_eq_ok (hd : data.length ≤ total) :
    nextCert total data = .ok (cert, rest) ↔ data = cert ++ rest ∧ IsPiece id cert := by
  rw [← piece_iff]
  cases data with
  | nil => exact iff_of_false (fun h => by cases h) (fun ⟨_, _, _, h, _⟩ => by cases h)
  | cons =>
    simp only [nextCert, ite_error_eq_ok, bind_eq_ok]
    constructor
    · rintro ⟨hfir, ⟨n, body⟩, hr, hfi, ⟨⟩⟩
      obtain ⟨field, rfl, hf⟩ := readAsn1Length_eq_ok.mp hr
      simp only [length_cons, length_append] at hd
      exact ⟨field, n, body, by rw [not_not.mp hfir], hf, by dsimp only [id] at hfi ⊢; omega, rfl,
        rfl⟩
    · rintro ⟨field, n, body, heq, hf, hn, rfl, rfl⟩
      cases heq
      simp only [length_cons, length_append] at hd
      refine ⟨not_not.mpr rfl, (n, body), readAsn1Length_eq_ok.mpr ⟨field, rfl, hf⟩, ?_, rfl⟩
      dsimp only [id] at hn ⊢
      omega

lemma crate_nextCert_eq_ok (hd : data.length ≤ total) :
    (DeepLink.nextCert total data = .ok (cert, rest) → data = cert ++ rest ∧
      IsPiece (· % 2 ^ 64) cert) ∧
    (total < 2 ^ 64 → data = cert ++ rest ∧ IsPiece (· % 2 ^ 64) cert →
      DeepLink.nextCert total data = .ok (cert, rest)) := by
  rw [← piece_iff]
  cases data with
  | nil => exact ⟨(fun h => by cases h), fun _ ⟨_, _, _, h, _⟩ => by cases h⟩
  | cons =>
    simp only [DeepLink.nextCert, ite_error_eq_ok, bind_eq_ok]
    constructor
    · rintro ⟨hfir, ⟨_, body⟩, hr, -, hfi, ⟨⟩⟩
      obtain ⟨field, n, rfl, hf, rfl⟩ := crate_readAsn1Length_eq_ok.mp hr
      simp only [length_cons, length_append] at hd
      exact ⟨field, n, body, by rw [not_not.mp hfir], hf, by dsimp only at hfi ⊢; omega, rfl, rfl⟩
    · rintro htotal ⟨field, n, body, heq, hf, hn, rfl, rfl⟩
      cases heq
      simp only [length_cons, length_append] at hd
      refine ⟨not_not.mpr rfl, (n % 2 ^ 64, body),
        crate_readAsn1Length_eq_ok.mpr ⟨field, n, rfl, hf, rfl⟩,
        ?_, ?_, rfl⟩
      · dsimp only at hn ⊢
        omega
      · dsimp only at hn ⊢
        omega

lemma ne_nil_of_isPiece (cert : Bytes) (h : IsPiece wrap cert) : cert ≠ [] := by
  obtain ⟨field, n, body, rfl, -, -⟩ := h
  exact cons_ne_nil _ _

lemma splitDerCerts_eq_ok :
    splitDerCerts data = .ok certs ↔ certs.flatten = data ∧ ∀ cert ∈ certs, IsPiece id cert := by
  constructor
  · intro h
    obtain ⟨new, rfl, hn⟩ := Items.collect_of_loop (fun _ _ _ hl => (nextCert_eq_ok hl).mp)
      ne_nil_of_isPiece le_rfl le_rfl h
    exact hn
  · rintro ⟨rfl, hc⟩
    exact Items.loop_of_collect (fun _ _ hl hp => (nextCert_eq_ok hl).mpr ⟨rfl, hp⟩)
      ne_nil_of_isPiece le_rfl le_rfl hc

lemma pieces_of_splitDerCerts (h : DeepLink.splitDerCerts data = .ok certs) :
    certs.flatten = data ∧ ∀ cert ∈ certs, IsPiece (· % 2 ^ 64) cert := by
  obtain ⟨new, rfl, hn⟩ := Items.collect_of_loop (fun _ _ _ hl => (crate_nextCert_eq_ok hl).1)
    ne_nil_of_isPiece le_rfl le_rfl h
  exact hn

lemma crate_splitDerCerts_eq_ok (hd : data.length < 2 ^ 64) :
    DeepLink.splitDerCerts data = .ok certs ↔
      certs.flatten = data ∧ ∀ cert ∈ certs, IsPiece (· % 2 ^ 64) cert := by
  refine ⟨pieces_of_splitDerCerts, ?_⟩
  rintro ⟨rfl, hc⟩
  exact Items.loop_of_collect (fun _ _ hl hp => (crate_nextCert_eq_ok hl).2 hd ⟨rfl, hp⟩)
    ne_nil_of_isPiece le_rfl le_rfl hc

lemma crate_of_splitDerCerts (hd : data.length < 2 ^ 64)
    (h : splitDerCerts data = .ok certs) : DeepLink.splitDerCerts data = .ok certs := by
  obtain ⟨rfl, hce⟩ := splitDerCerts_eq_ok.mp h
  refine (crate_splitDerCerts_eq_ok hd).mpr ⟨rfl, fun cert hc => ?_⟩
  obtain ⟨field, n, body, rfl, hf, hn⟩ := hce cert hc
  have hl := (sublist_flatten_of_mem hc).length_le
  simp only [length_cons, length_append] at hl
  have hs : n < 2 ^ 64 := by
    rw [id] at hn
    omega
  exact ⟨field, n, body, rfl, hf, hn.trans (Nat.mod_eq_of_lt hs).symm⟩

lemma slices_append (hu : u.length = 64) (v : List Char) : slices (u ++ v) = u :: slices v := by
  have hn : ((u ++ v).length + 63) / 64 = (v.length + 63) / 64 + 1 := by
    rw [length_append, hu]
    omega
  rw [slices, hn, range_succ_eq_map, map_cons, map_map]
  congr 1
  · simp [← hu]
  · refine map_congr_left fun i _ => ?_
    rw [Function.comp_apply, ← hu, Nat.mul_succ, Nat.add_comm, drop_length_add_append]

lemma slices_of_le (hu : u ≠ []) (h : u.length ≤ 64) : slices u = [u] := by
  have hp := length_pos_of_ne_nil hu
  have hn : (u.length + 63) / 64 = 1 := by omega
  rw [slices, hn]
  simpa using h

lemma toChunks_eq_slices (text : List Char) : text.toChunks 64 = slices text := by
  -- the piece that is being read is never empty, and full only before the next character
  have hgo : ∀ (l : List Char) (acc : Array Char) done, acc.toList ≠ [] → acc.size ≤ 64 →
      toChunks.go 64 l acc done = done.toList ++ slices (acc.toList ++ l) := by
    intro l
    induction l with
    | nil => intro acc done hn hle; simp [toChunks.go, slices_of_le hn hle]
    | cons c l ih =>
      intro acc done hn hle
      rw [toChunks.go]
      split
      case isTrue hf =>
        have hs : acc.toList.length = 64 := by simpa using hf
        rw [ih _ _ (by simp) (by simp), slices_append hs]
        simp
      case isFalse hf =>
        have hs : acc.size ≠ 64 := by simpa using hf
        rw [ih _ _ (by simp) (by rw [Array.size_push]; omega)]
        simp
  cases text with
  | nil => rfl
  | cons c text => simpa [toChunks] using hgo text #[c] #[] (by simp) (by simp)

lemma pemBlock_eq (x : PyLib) : pemBlock x = DeepLink.pemBlock x.b64encode := by
  funext der
  unfold pemBlock DeepLink.pemBlock
  rw [← toChunks_eq_slices]

lemma derToPem_of_script (hd : data.length < 2 ^ 64)
    (h : derToPem x data = .ok pem) : DeepLink.derToPem x.b64encode data = .ok pem := by
  obtain ⟨certs, hc, h⟩ := bind_eq_ok.mp h
  rw [DeepLink.derToPem, crate_of_splitDerCerts hd hc, ← pemBlock_eq]
  cases h
  rfl

/-- No length field met when `data` is read without bound is `2 ^ 64` or more. -/
def ShortLengths (data : Bytes) : Prop :=
  ∀ certs field n body, data = flatten certs ++ 0x30 :: (field ++ body) →
    (∀ cert ∈ certs, IsPiece id cert) → LengthField field n → n < 2 ^ 64

lemma pieces_of_shortLengths (certs : List Bytes) (h : ShortLengths (flatten certs ++ flatten more))
    (hc : ∀ cert ∈ certs, IsPiece id cert) (hm : ∀ cert ∈ more, IsPiece (· % 2 ^ 64) cert) :
    ∀ cert ∈ more, IsPiece id cert := by
  induction more generalizing certs with
  | nil => exact fun _ hn => absurd hn not_mem_nil
  | cons cert more ih =>
    obtain ⟨⟨field, n, body, rfl, hf, hn⟩, hm'⟩ := forall_mem_cons.mp hm
    have hlt : n < 2 ^ 64 := h certs field n (body ++ more.flatten) (by simp) hc hf
    have hp : IsPiece id (0x30 :: (field ++ body)) :=
      ⟨field, n, body, rfl, hf, hn.trans (Nat.mod_eq_of_lt hlt)⟩
    refine forall_mem_cons.mpr ⟨hp, ih (certs ++ [0x30 :: (field ++ body)]) ?_ ?_ hm'⟩
    · simpa using h
    · simpa [or_imp, forall_and] using ⟨hc, hp⟩

lemma shortLengths_of_pieces (hd : (flatten certs).length < 2 ^ 64)
    (hc : ∀ cert ∈ certs, IsPiece id cert) : ShortLengths certs.flatten := by
  intro before field n body heq hb hf
  induction before generalizing certs with
  | nil =>
    cases certs with
    | nil => cases heq
    | cons cert =>
      -- the field is that of the first piece
      obtain ⟨field', n', body', rfl, hf', hn'⟩ := hc cert mem_cons_self
      simp only [flatten_cons, cons_append, append_assoc, flatten_nil, nil_append,
        cons.injEq, true_and] at heq
      have hr := readAsn1Length_eq_ok.mpr ⟨field', heq.symm, hf'⟩
      rw [readAsn1Length_eq_ok.mpr ⟨field, rfl, hf⟩] at hr
      cases hr
      simp only [flatten_cons, cons_append, length_cons, length_append, id] at hd hn'
      omega
  | cons cert' before ih =>
    obtain ⟨hp', hb⟩ := forall_mem_cons.mp hb
    cases certs with
    | nil => simp at heq
    | cons =>
      obtain ⟨hp, hc⟩ := forall_mem_cons.mp hc
      rw [flatten_cons, flatten_cons, append_assoc] at heq
      have hn := (nextCert_eq_ok le_rfl).mpr ⟨heq.symm, hp⟩
      rw [(nextCert_eq_ok le_rfl).mpr ⟨rfl, hp'⟩] at hn
      simp only [Except.ok.injEq, Prod.mk.injEq] at hn
      refine ih ?_ hc hn.2.symm hb
      rw [flatten_cons, length_append] at hd
      omega

/-- **Splitting certificates.** What each accepts; they agree if no length field of the data
is `2 ^ 64` or more, and on no other data the crate accepts. -/
theorem splitDerCerts_iff (data : Bytes) (hdata : data.length < 2 ^ 64) :
    (∀ certs, splitDerCerts data = .ok certs ↔
      certs.flatten = data ∧ ∀ cert ∈ certs, IsPiece id cert) ∧
    (∀ certs, DeepLink.splitDerCerts data = .ok certs ↔
      certs.flatten = data ∧ ∀ cert ∈ certs, IsPiece (· % 2 ^ 64) cert) ∧
    (ShortLengths data →
      ∀ certs, DeepLink.splitDerCerts data = .ok certs ↔ splitDerCerts data = .ok certs) ∧
    ∀ certs, DeepLink.splitDerCerts data = .ok certs →
      (splitDerCerts data = .ok certs ↔ ShortLengths data) := by
  have hshort (h : ShortLengths data) (certs : List Bytes)
      (hc : DeepLink.splitDerCerts data = .ok certs) : splitDerCerts data = .ok certs := by
    obtain ⟨rfl, hp⟩ := (crate_splitDerCerts_eq_ok hdata).mp hc
    exact splitDerCerts_eq_ok.mpr
      ⟨rfl, pieces_of_shortLengths [] h (fun _ hn => absurd hn not_mem_nil) hp⟩
  refine ⟨fun certs => splitDerCerts_eq_ok, fun certs => crate_splitDerCerts_eq_ok hdata,
    fun h certs => ⟨hshort h certs, crate_of_splitDerCerts hdata⟩,
    fun certs hc => ⟨fun hs => ?_, fun h => hshort h certs hc⟩⟩
  obtain ⟨rfl, hp⟩ := splitDerCerts_eq_ok.mp hs
  exact shortLengths_of_pieces hdata hp

theorem twoCertificates_split : ([0x30, 1, 7, 0x30, 0x81, 2, 8, 9] : Bytes).length < 2 ^ 64 ∧
    splitDerCerts [0x30, 1, 7, 0x30, 0x81, 2, 8, 9] =
      .ok [[0x30, 1, 7], [0x30, 0x81, 2, 8, 9]] := by
  refine ⟨by decide, ((splitDerCerts_iff _ (by decide)).1 _).mpr ⟨rfl, ?_⟩⟩
  refine forall_mem_cons.mpr ⟨⟨[1], 1, [7], rfl, ⟨rfl, rfl⟩, rfl⟩, forall_mem_singleton.mpr ?_⟩
  exact ⟨[0x81, 2], 2, [8, 9], rfl, ⟨by decide, rfl, rfl⟩, rfl⟩

def wrappedLength : Bytes := [0x30, 0x89, 1, 0, 0, 0, 0, 0, 0, 0, 0]

theorem wrappedLength_split : DeepLink.splitDerCerts wrappedLength = .ok [wrappedLength] ∧
    splitDerCerts wrappedLength = .error (.valueError "truncated DER certificate") := by
  decide +kernel

/-! ## Step by step -/

def protocolName : DeepLink.Protocol → String
  | .http2 => "http2"
  | .http3 => "http3"

def CertificateText (b64encode : Bytes → String) (certificate : Option Bytes)
    (text : Option String) : Prop :=
  match certificate with
  | none => text = none
  | some der => ∃ pem, text = some pem ∧ DeepLink.derToPem b64encode der = .ok pem

structure Tracks (x : PyLib) (c : DeepLink.DeepLinkConfig) (s : State) : Prop where
  hostname : s.cfg.hostname = c.hostname
  addresses : s.addresses = c.addresses
  cfgAddresses : s.cfg.addresses = none
  customSni : s.cfg.customSni = c.customSni
  hasIpv6 : s.cfg.hasIpv6.getD true = c.hasIpv6
  username : s.cfg.username = c.username
  password : s.cfg.password = c.password
  skipVerification : s.cfg.skipVerification.getD false = c.skipVerification
  certificate : CertificateText x.b64encode c.certificate s.cfg.certificate
  upstreamProtocol : s.cfg.upstreamProtocol.getD "http2" = protocolName c.upstreamProtocol
  antiDpi : s.cfg.antiDpi.getD false = c.antiDpi
  clientRandomPrefix : s.cfg.clientRandomPrefix = c.clientRandomPrefix
  name : s.cfg.name = c.name
  dnsUpstreams : s.cfg.dnsUpstreams.getD [] = c.dnsUpstreams
  subscriptionUrl : s.cfg.subscriptionUrl = c.subscriptionUrl

lemma tracks_initial (x : PyLib) : Tracks x DeepLink.initial initial :=
  ⟨rfl, rfl, rfl, rfl, rfl, rfl, rfl, rfl, rfl, rfl, rfl, rfl, rfl, rfl, rfl⟩

variable {x : DeepLink.Crates} {y : PyLib} {c c' : DeepLink.DeepLinkConfig} {s s' : State}
  {tag : DeepLink.TlvTag} {value : Bytes}

lemma decodeString_of_decodePrefixField
    (h : DeepLink.decodePrefixField x value = .ok t) : DeepLink.decodeString value = .ok t := by
  obtain ⟨text, ht, h⟩ := bind_eq_ok.mp h
  obtain ⟨_, -, h⟩ := bind_eq_ok.mp h
  obtain ⟨_, -, h⟩ := bind_eq_ok.mp h
  cases h
  exact ht

lemma read_both {ε α : Type} {read : Bytes → Except ε α} {read' : Bytes → Except PyError α}
    (hsa : ∀ a a', read value = .ok a → read' value = .ok a' → a' = a)
    {F : α → DeepLink.Field} {f : DeepLink.Field} {G : α → State} (hc : (read value).map F = .ok f)
    (hsc : (do return G (← read' value) : Except PyError State) = .ok s') :
    ∃ a, f = F a ∧ s' = G a := by
  obtain ⟨a, ha, rfl⟩ := Lib.map_eq_ok_iff.mp hc
  obtain ⟨a', ha', hs⟩ := bind_eq_ok.mp hsc
  cases hs
  rw [hsa a a' ha ha']
  exact ⟨a, rfl, rfl⟩

lemma decodeText_of_decodeString (t t' : String) (h : DeepLink.decodeString value = .ok t)
    (h' : decodeText value = .ok t') : t' = t := by
  rw [decodeText_eq_ok_iff, h] at h'
  exact (Except.ok.inj h').symm

/-- **One entry with a tag that the crate knows.** -/
lemma tracks_known (hv : value.length < 2 ^ 64) (h : Tracks y c s)
    {f : DeepLink.Field} (hc : DeepLink.readField x tag value = .ok f)
    (hsc : onEntry y s (tag.asU8.toNat, value) = .ok s') :
    Tracks y (DeepLink.Field.set c f) s' := by
  have hf : ∀ b b', DeepLink.decodeBool value = .ok b → decodeFlag value = .ok b' → b' = b :=
    fun _ _ => decodeFlag_of_decodeBool
  cases tag with
  | version =>
    obtain ⟨u, hu, rfl⟩ := Lib.map_eq_ok_iff.mp hc
    obtain ⟨⟨version, rest⟩, hver, hs⟩ := bind_eq_ok.mp hsc
    simp only at hs
    split at hs
    · cases hs
    · cases hs
      exact h
  | hostname =>
    obtain ⟨t, rfl, rfl⟩ := read_both decodeText_of_decodeString hc hsc
    exact { h with hostname := rfl }
  | address =>
    obtain ⟨t, rfl, rfl⟩ := read_both decodeText_of_decodeString hc hsc
    exact { h with addresses := by rw [h.addresses]; rfl }
  | customSni =>
    obtain ⟨t, rfl, rfl⟩ := read_both decodeText_of_decodeString hc hsc
    exact { h with customSni := rfl }
  | hasIpv6 =>
    obtain ⟨b, rfl, rfl⟩ := read_both hf hc hsc
    exact { h with hasIpv6 := rfl }
  | username =>
    obtain ⟨t, rfl, rfl⟩ := read_both decodeText_of_decodeString hc hsc
    exact { h with username := rfl }
  | password =>
    obtain ⟨t, rfl, rfl⟩ := read_both decodeText_of_decodeString hc hsc
    exact { h with password := rfl }
  | skipVerification =>
    obtain ⟨b, rfl, rfl⟩ := read_both hf hc hsc
    exact { h with skipVerification := rfl }
  | certificate =>
    cases hc
    obtain ⟨pem, hpe, hs⟩ := bind_eq_ok.mp hsc
    cases hs
    exact { h with certificate := ⟨pem, rfl, derToPem_of_script hv hpe⟩ }
  | upstreamProtocol =>
    obtain ⟨p, hp, rfl⟩ := Lib.map_eq_ok_iff.mp hc
    obtain ⟨byte, hb, hs⟩ := bind_eq_ok.mp hsc
    obtain rfl := firstByte_of_decodeProtocol hp hb
    cases p with
    | http2 | http3 =>
      cases hs
      exact { h with upstreamProtocol := rfl }
  | antiDpi =>
    obtain ⟨b, rfl, rfl⟩ := read_both hf hc hsc
    exact { h with antiDpi := rfl }
  | clientRandomPrefix =>
    obtain ⟨t, rfl, rfl⟩ := read_both (fun t t' ht =>
      decodeText_of_decodeString t t' (decodeString_of_decodePrefixField ht)) hc hsc
    exact { h with clientRandomPrefix := rfl }
  | name =>
    obtain ⟨t, rfl, rfl⟩ := read_both decodeText_of_decodeString hc hsc
    exact { h with name := rfl }
  | dnsUpstreams =>
    obtain ⟨l, hl, rfl⟩ := Lib.map_eq_ok_iff.mp hc
    obtain ⟨l', hl', hs⟩ := bind_eq_ok.mp hsc
    cases hs
    rw [decodeStringArray_eq_ok_iff, hl] at hl'
    exact { h with dnsUpstreams := (Except.ok.inj hl').symm }
  | subscriptionUrl =>
    obtain ⟨t, rfl, rfl⟩ := read_both decodeText_of_decodeString hc hsc
    exact { h with subscriptionUrl := rfl }
  | clientRandomAuthKey =>
    obtain ⟨t, ht, rfl⟩ := Lib.map_eq_ok_iff.mp hc
    cases hsc
    exact { h with }

lemma onEntry_unknown (hn : 16 ≤ n) : onEntry y s (n, value) = .ok s := by
  obtain ⟨m, rfl⟩ := Nat.exists_eq_add_of_le' hn
  rfl

/-- **One entry**, whose tag is a byte. -/
lemma tracks_step (hn : n < 256) (hv : value.length < 2 ^ 64) (h : Tracks y c s)
    (hc : DeepLink.onField x c (DeepLink.knownTag n, value) = .ok c')
    (hs : onEntry y s (n, value) = .ok s') : Tracks y c' s' := by
  cases hk : DeepLink.knownTag n with
  | none =>
    rw [hk] at hc
    rw [DeepLink.knownTag_eq_none_iff, Nat.mod_eq_of_lt hn] at hk
    rw [onEntry_unknown hk] at hs
    cases hc
    cases hs
    exact h
  | some =>
    rw [hk, DeepLink.onField_some] at hc
    obtain ⟨f, hf, rfl⟩ := Lib.map_eq_ok_iff.mp hc
    obtain rfl := DeepLink.eq_asU8_of_knownTag hn hk
    exact tracks_known hv h hf hs

/-! ## Agreement -/

structure Agrees (x : PyLib) (c : DeepLink.DeepLinkConfig) (cfg : Cfg) : Prop where
  hostname : cfg.hostname = c.hostname
  addresses : cfg.addresses.getD [] = c.addresses
  customSni : cfg.customSni = c.customSni
  hasIpv6 : cfg.hasIpv6 = some c.hasIpv6
  username : cfg.username = c.username
  password : cfg.password = c.password
  skipVerification : cfg.skipVerification = some c.skipVerification
  certificate : match c.certificate with
    | none => cfg.certificate = some ""
    | some der => ∃ pem, cfg.certificate = some pem ∧ DeepLink.derToPem x.b64encode der = .ok pem
  upstreamProtocol : cfg.upstreamProtocol = some (protocolName c.upstreamProtocol)
  antiDpi : cfg.antiDpi = some c.antiDpi
  clientRandomPrefix : cfg.clientRandomPrefix = c.clientRandomPrefix
  name : cfg.name = c.name
  dnsUpstreams : cfg.dnsUpstreams.getD [] = c.dnsUpstreams
  subscriptionUrl : cfg.subscriptionUrl = c.subscriptionUrl

lemma agrees_finish (h : Tracks y c s) : Agrees y c (finish s) where
  hostname := h.hostname
  addresses := by
    simp only [finish, h.cfgAddresses, h.addresses]
    cases c.addresses <;> rfl
  customSni := h.customSni
  hasIpv6 := congrArg some h.hasIpv6
  username := h.username
  password := h.password
  skipVerification := congrArg some h.skipVerification
  certificate := by
    have hce := h.certificate
    unfold CertificateText at hce
    cases hc : c.certificate with
    | none =>
      rw [hc] at hce
      simp [finish, show s.cfg.certificate = none from hce]
    | some =>
      rw [hc] at hce
      obtain ⟨pem, hp, hd⟩ := hce
      exact ⟨pem, by rw [finish, hp, Option.getD_some], hd⟩
  upstreamProtocol := congrArg some h.upstreamProtocol
  antiDpi := congrArg some h.antiDpi
  clientRandomPrefix := h.clientRandomPrefix
  name := h.name
  dnsUpstreams := h.dnsUpstreams
  subscriptionUrl := h.subscriptionUrl

/-- **The decoders agree** on every payload that both accept, if its tags are bytes. -/
theorem decoders_agree {payload : Bytes} {cfg : Cfg} (hpayload : payload.length < 2 ^ 64)
    (htags : ∀ entries, Items.Reads readEntry payload entries → ∀ e ∈ entries, e.1 < 256)
    (hcrate : DeepLink.decodeTlvPayload x payload = .ok c)
    (hscript : decodeConfig y payload = .ok cfg) : Agrees y c cfg := by
  obtain ⟨entries, hr, hre, hco, -⟩ := DeepLink.decodeTlvPayload_eq_ok_iff.mp hcrate
  obtain ⟨entries', hp, hscript⟩ := bind_eq_ok.mp hscript
  obtain ⟨s, hf, hscript⟩ := bind_eq_ok.mp hscript
  obtain rfl := (parseTlv_eq_ok_iff.mp hp).unique sequential_readEntry hr
  have hc := DeepLink.foldlM_onField.mpr ⟨hre, hco⟩
  rw [foldlM_map] at hc
  have ht : Tracks y c s := by
    refine foldlM_related (R := Tracks y) ?_ (tracks_initial y) hc hf
    intro e he c1 s1 c2 s2 h
    have hl : e.2.length < 2 ^ 64 :=
      Nat.lt_of_le_of_lt (length_le_of_reads hr e he) hpayload
    exact tracks_step (htags entries' hr e he) hl h
  split at hscript
  · cases hscript
  · cases hscript
    exact agrees_finish ht

/-- A repeated host name, and an unknown tag. -/
def mixedEntries : List (Nat × Bytes) :=
  [(0x01, utf8 "old.example"), (0x08, [0x30, 0x01, 0x05]), (0x77, [0x00]), (0x04, [0x00]),
    (0x01, utf8 "new.example"), (0x0e, utf8 "https://vpn.example/s")]

def mixedPayload : Bytes := mixedEntries.flatMap (fun e => writeEntry e.1 e.2)

def mixedConfig : DeepLink.DeepLinkConfig :=
  { DeepLink.initial with
    hostname := some "new.example"
    hasIpv6 := false
    certificate := some [0x30, 0x01, 0x05]
    subscriptionUrl := some "https://vpn.example/s" }

def mixedCfg : Cfg :=
  { finish initial with
    hostname := some "new.example"
    hasIpv6 := some false
    certificate := some "-----BEGIN CERTIFICATE-----\nMAEF\n-----END CERTIFICATE-----\n"
    subscriptionUrl := some "https://vpn.example/s" }

theorem mixedPayload_agree :
    DeepLink.decodeTlvPayload DeepLink.standard mixedPayload = .ok mixedConfig ∧
      decodeConfig blind mixedPayload = .ok mixedCfg ∧
      Agrees blind mixedConfig mixedCfg := by
  have ha : mixedEntries.all (fun e => decide (e.1 < 256 ∧ e.2.length < 2 ^ 62)) := by
    decide +kernel
  have hs : ∀ e ∈ mixedEntries, e.1 < 256 ∧ e.2.length < 2 ^ 62 := fun e he =>
    of_decide_eq_true (all_eq_true.mp ha e he)
  have hr : Items.Reads readEntry mixedPayload (mixedEntries.map id) :=
    Items.reads_flatMap (fun e he =>
      encodes_writeEntry (Nat.lt_trans (hs e he).1 (by decide)) (hs e he).2)
  rw [map_id] at hr
  have hc : DeepLink.decodeTlvPayload DeepLink.standard mixedPayload = .ok mixedConfig := by
    decide +kernel
  have hsc : decodeConfig blind mixedPayload = .ok mixedCfg := by
    decide +kernel
  refine ⟨hc, hsc, decoders_agree (by decide +kernel) ?_ hc hsc⟩
  intro entries hen e he
  obtain rfl := hen.unique sequential_readEntry hr
  exact (hs e he).1

end TrustTunnel.Scripts.DeeplinkToConfig
