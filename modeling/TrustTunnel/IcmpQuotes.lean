import TrustTunnel.IcmpMessages
import TrustTunnel.UdpRecords

/-!
# Requests that are quoted in errors (`icmp_utils.rs`, `net_utils.rs`)

An error quotes the header and the beginning of a packet. Lengths of IPv6 extension headers are in
units of eight bytes; the endpoint takes them for bytes.
-/

namespace TrustTunnel.IcmpUtils

open Io HttpUdpCodec List MessageV6

/-! ## Requests -/

/-- The loop of `net_utils::rfc1071_checksum`. -/
def rfc1071Sum (sum : UInt32) : Bytes → UInt32
  | a :: b :: bytes => rfc1071Sum (sum + (a.toUInt32 <<< 8) + b.toUInt32) bytes
  | [a] => sum + (a.toUInt32 <<< 8)
  | [] => sum

def rfc1071Checksum (bytes : Bytes) : UInt16 :=
  let sum := rfc1071Sum 0 bytes
  (~~~((sum >>> 16) + sum)).toUInt16

/-- `Echo::serialize`; the checksum is put in last. -/
def Echo.serialize (x : Echo) (typeId : UInt8) : Bytes :=
  let rest := putU16 x.identifier ++ putU16 x.sequenceNumber ++ x.data
  [typeId, 0] ++ putU16 (rfc1071Checksum ([typeId, 0] ++ putU16 0 ++ rest)) ++ rest

def Finds (request : Echo) (r : Option (Option Echo)) : Prop :=
  ∃ echo, r = some (some echo) ∧ echo.identifier = request.identifier ∧
    echo.sequenceNumber = request.sequenceNumber ∧ echo.eq request = true

lemma quotedEcho_finds {request : Echo} {icmp typeId : UInt8} {quote : Bytes}
    (hq : quote <+: request.serialize typeId) (hl : 8 ≤ quote.length) :
    Finds request (quotedEcho icmp typeId (some (icmp, quote))) := by
  have ht : (request.serialize typeId).take 8 <+: quote :=
    prefix_of_prefix_length_le ( take_prefix 8 _) hq (Nat.le_trans (length_take_le 8 _) hl)
  obtain ⟨data, rfl⟩ := ht
  have hd : data <+: request.data := by
    have hs := take_append_drop 8 (request.serialize typeId)
    rw [← hs] at hq
    exact (prefix_append_right_inj _).mp hq
  refine ⟨⟨0, request.identifier, request.sequenceNumber, data⟩, ?_, rfl, rfl,
    Echo.eq_iff.mpr ⟨rfl, rfl, .inr hd⟩⟩
  have ha (a b : UInt8) (bytes : Bytes) : advance 2 (a :: b :: bytes) = some bytes :=
    advance_eq (by simp only [length_cons]; omega)
  simp only [Echo.serialize, putU16, cons_append, nil_append, take_succ_cons, take_zero,
    quotedEcho, bne_self_eq_false, Bool.or_self, Bool.false_eq_true, if_false, deserializeEcho]
  rw [if_neg (by simp only [length_cons]; omega)]
  simp [getU8, ha, parseEcho, getU16, beU16_putU16]

/-! ## Headers -/

/-- The first byte has its length in units of four bytes. -/
structure Ipv4Header where
  first : UInt8
  fields : Bytes
  rest : Bytes
  fields_length : fields.length = 8
  length : 10 + rest.length = (first &&& 0x0f).toNat * 4
  minimum : 10 ≤ rest.length

def Ipv4Header.bytes (h : Ipv4Header) : Bytes := h.first :: (h.fields ++ 1 :: h.rest)

lemma skipIpv4Header_bytes (h : Ipv4Header) (payload : Bytes) :
    skipIpv4Header (h.bytes ++ payload) = some (some (1, payload)) := by
  have hf := h.fields_length
  have hl := h.length
  have hminimum := h.minimum
  have hwords : (h.first &&& 0x0f).toNat ≤ 15 := by
    rw [UInt8.toNat_and]
    exact Nat.and_le_right
  have hh : ((h.first &&& 0x0f) * 4).toNat = 10 + h.rest.length := by
    rw [UInt8.toNat_mul, hl, show (4 : UInt8).toNat = 4 from rfl]
    exact Nat.mod_eq_of_lt (by omega)
  have hfi : advance 8 (h.fields ++ 1 :: h.rest ++ payload) = some (1 :: (h.rest ++ payload)) := by
    rw [advance_eq (by simp only [length_append, length_cons]; omega), append_assoc, drop_left' hf]
    rfl
  have hr : advance h.rest.length (h.rest ++ payload) = some payload := by
    rw [advance_eq (by simp only [length_append]; omega), drop_left]
  have ho : 2 + 4 + 4 + (10 + h.rest.length - 20) = h.rest.length := by omega
  rw [skipIpv4Header, if_neg (by simp only [Ipv4Header.bytes, length_append, length_cons]; omega)]
  simp only [Ipv4Header.bytes, cons_append, getU8, Option.bind_eq_bind, Option.bind_some, hh]
  rw [if_neg (by simp only [length_append, length_cons, Bool.or_eq_true, decide_eq_true_eq]; omega)]
  simp only [Nat.reduceAdd, hfi, Option.bind_some] at ho ⊢
  rw [ho, hr]
  rfl

inductive Extension where
  /-- Hop-by-hop options, routing and destination options. -/
  | options (kind : UInt8) (len : UInt8) (content : Bytes)
  | fragment (content : Bytes)

namespace Extension

def kind : Extension → UInt8
  | options kind _ _ => kind
  | fragment _ => 44

def body : Extension → Bytes
  | options _ len content => len :: content
  | fragment content => content

def Valid : Extension → Prop
  | options kind len content => isOptions kind = true ∧ content.length = 8 * len.toNat + 6
  | fragment content => content.length = 7

def shape : Extension → Option (UInt8 × UInt8)
  | options kind len _ => some (kind, len)
  | fragment _ => none

def filled : Extension → Extension
  | options kind len _ => options kind len (replicate (8 * len.toNat + 6) 1)
  | fragment _ => fragment (replicate 7 1)

end Extension

def firstKind : List Extension → UInt8
  | [] => 58
  | x :: _ => x.kind

def chain : List Extension → Bytes → Bytes
  | [], payload => payload
  | x :: xs, payload => firstKind xs :: (x.body ++ chain xs payload)

structure Ipv6Header where
  fields : Bytes
  rest : Bytes
  extensions : List Extension
  fields_length : fields.length = 6
  rest_length : rest.length = 33
  valid : ∀ x ∈ extensions, x.Valid

def Ipv6Header.before (h : Ipv6Header) (payload : Bytes) : Bytes :=
  h.fields ++ firstKind h.extensions :: (h.rest ++ chain h.extensions payload)

lemma skipIpv6Header_before (h : Ipv6Header) (payload : Bytes) :
    skipIpv6Header (h.before payload) =
      skipIpv6Extensions (firstKind h.extensions) (chain h.extensions payload) := by
  have hf := h.fields_length
  have hrest := h.rest_length
  have hl : 40 ≤ (h.before payload).length := by
    simp only [Ipv6Header.before, length_append, length_cons]
    omega
  rw [skipIpv6Header_eq hl]
  congr 1
  · rw [Ipv6Header.before, getD_eq_getElem?_getD, getElem?_append_right (by omega), hf]
    rfl
  · have hs : h.before payload =
        (h.fields ++ firstKind h.extensions :: h.rest) ++ chain h.extensions payload := by
      simp [Ipv6Header.before]
    rw [hs, drop_left']
    simp only [length_append, length_cons]
    omega

/-! ## The chain -/

lemma skipIpv6Extensions_fragment (h : content.length = 7) (next : UInt8) (bytes : Bytes) :
    skipIpv6Extensions 44 (next :: (content ++ bytes)) = skipIpv6Extensions next bytes := by
  match content, h with
  | [a, b, c, d, e, f, g], _ =>
    rw [skipIpv6Extensions.eq_def, if_neg (by decide), if_pos (by decide)]
    rfl

lemma skipIpv6Extensions_options {kind len : UInt8} (hk : isOptions kind) {skipped : Bytes}
    (h : skipped.length = len.toNat) (next : UInt8) (bytes : Bytes) :
    skipIpv6Extensions kind (next :: len :: (skipped ++ bytes)) =
      skipIpv6Extensions next bytes := by
  have hle : len.toNat ≤ (skipped ++ bytes).length := by
    rw [length_append]
    omega
  rw [skipIpv6Extensions.eq_def, ← isOptions, if_pos hk]
  simp only [if_pos hle, drop_left' h]

lemma skipIpv6Extensions_other (h : isOptions proto = false) (hf : proto ≠ 44)
    (bytes : Bytes) : skipIpv6Extensions proto bytes = some (some (proto, bytes)) := by
  rw [skipIpv6Extensions.eq_def, ← isOptions, h, if_neg Bool.false_ne_true,
    if_neg (by simpa using hf)]

lemma skipIpv6Extensions_chain (hv : ∀ x ∈ xs, x.Valid)
    (h : ∀ x ∈ xs, x.shape = none) (payload : Bytes) :
    skipIpv6Extensions (firstKind xs) (chain xs payload) = some (some (58, payload)) := by
  induction xs with
  | nil => exact skipIpv6Extensions_other rfl (by decide) payload
  | cons x xs ih =>
    obtain ⟨hx, hxs⟩ := forall_mem_cons.mp hv
    obtain ⟨hf, hr⟩ := forall_mem_cons.mp h
    cases x with
    | options => cases hf
    | fragment => exact (skipIpv6Extensions_fragment hx _ _).trans (ih hxs hr)

lemma quotedEcho_ones (next : UInt8) (bytes : Bytes) :
    skipIpv6Extensions next (replicate 6 1 ++ bytes) >>= quotedEcho 58 128 = some none := by
  have hon (bytes : Bytes) : skipIpv6Extensions 1 bytes >>= quotedEcho 58 128 = some none := by
    rw [skipIpv6Extensions_other rfl (by decide)]
    cases bytes <;> rfl
  cases ho : isOptions next with
  | true =>
    rw [show replicate 6 (1 : UInt8) ++ bytes = 1 :: 1 :: ([1] ++ ([1, 1, 1] ++ bytes)) from rfl,
      skipIpv6Extensions_options ho rfl]
    exact hon _
  | false =>
    by_cases hf : next = 44
    · subst hf
      match bytes with
      | a :: b :: bytes =>
        have hs := skipIpv6Extensions_fragment (show [1, 1, 1, 1, 1, a, b].length =
          7 from rfl) 1 bytes
        exact (congrArg (· >>= quotedEcho 58 128) hs).trans (hon bytes)
      | [a] | [] => rw [skipIpv6Extensions.eq_def, if_neg (by decide), if_pos (by decide)]; rfl
    · rw [skipIpv6Extensions_other ho hf]
      simp [quotedEcho, replicate]

lemma quotedEcho_filled {xs : List Extension} (hv : ∀ x ∈ xs, x.Valid)
    (h : ¬ ∀ x ∈ xs, x.shape = none) (payload : Bytes) :
    skipIpv6Extensions (firstKind (xs.map Extension.filled))
      (chain (xs.map Extension.filled) payload) >>= quotedEcho 58 128 = some none := by
  induction xs with
  | nil => exact absurd (fun _ h => (not_mem_nil h).elim) h
  | cons x xs ih =>
    obtain ⟨hx, hxs⟩ := forall_mem_cons.mp hv
    cases x with
    | options kind len content =>
      have hf : replicate (8 * len.toNat + 6) (1 : UInt8) =
          replicate len.toNat 1 ++ (replicate 6 1 ++ replicate (7 * len.toNat) 1) := by
        simp only [replicate_append_replicate]
        congr 1
        omega
      have hc : chain ((Extension.options kind len content :: xs).map Extension.filled) payload =
          firstKind (xs.map Extension.filled) :: len :: (replicate len.toNat 1 ++ (replicate 6 1 ++
            (replicate (7 * len.toNat) 1 ++ chain (xs.map Extension.filled) payload))) := by
        rw [map_cons, chain, Extension.filled, Extension.body, hf]
        simp
      have hs := skipIpv6Extensions_options hx.1
        (length_replicate (n := len.toNat) (a := (1 : UInt8)))
      rw [hc]
      exact (congrArg (· >>= quotedEcho 58 128) (hs _ _)).trans (quotedEcho_ones _ _)
    | fragment =>
      have hr := ih hxs (fun ha => h (forall_mem_cons.mpr ⟨rfl, ha⟩))
      rw [← hr]
      exact congrArg (· >>= quotedEcho 58 128) (skipIpv6Extensions_fragment length_replicate _ _)

lemma Extension.filled_valid {x : Extension} (h : x.Valid) : x.filled.Valid := by
  cases x with
  | options => exact ⟨h.1, length_replicate⟩
  | fragment => exact length_replicate

lemma Extension.shape_filled (x : Extension) : x.filled.shape = x.shape := by
  cases x <;> rfl

lemma deserialize_timeExceeded (h : 40 ≤ data.length) :
    deserialize ([3, 0, 0, 0, 0, 0, 0, 0] ++ data) = some (.ok (.timeExceeded 0 data)) := by
  have hc : quotingCheck.error (1 + ([0, 0, 0, 0, 0, 0, 0] ++ data).length) = none := by
    rw [length_append]
    exact if_neg (by simp only [icmpMinCommonHeaderSize, length_cons, length_nil]; omega)
  have hcode : advance 2 ([0, 0, 0, 0, 0, 0] ++ data) = some ([0, 0, 0, 0] ++ data) :=
    advance_eq (by rw [length_append]; exact Nat.le_add_right_of_le (by decide))
  have hd : advance 4 ([0, 0, 0, 0] ++ data) = some data :=
    advance_eq (by rw [length_append]; exact Nat.le_add_right_of_le (by decide))
  have hpa : parseTimeExceeded timeExceeded 0 ([0, 0, 0, 0] ++ data) =
      some (.ok (.timeExceeded 0 data)) := by
    rw [parseTimeExceeded, if_pos (by decide), parseData, hd]
    rfl
  have hp : deserializePacket quotingCheck (parseTimeExceeded timeExceeded)
      ([0, 0, 0, 0, 0, 0, 0] ++ data) = some (.ok (.timeExceeded 0 data)) := by
    rw [deserializePacket, hc]
    exact (congrArg (· >>= parseTimeExceeded timeExceeded 0) hcode).trans hpa
  exact hp

/-- **Correlation of errors.** Behind IPv4 the request is found; behind IPv6 exactly if all
extensions are fragment headers. -/
theorem correlation_iff (h4 : Ipv4Header) (h : Ipv6Header) :
    (∀ (request : Echo) quote,
      quote <+: request.serialize (MessageV4.echo request).typeId →
      8 ≤ quote.length → ∀ b m, MessageV4.deserialize b = some (.ok m) →
        m.icmpData = some (h4.bytes ++ quote) → Finds request m.respondedEchoRequest) ∧
    ((∀ h' : Ipv6Header, h'.extensions.map Extension.shape =
      h.extensions.map Extension.shape →
      ∀ (request : Echo) quote, quote <+: request.serialize (echoRequest request).typeId →
        8 ≤ quote.length → ∀ b m, deserialize b = some (.ok m) →
          m.icmpData = some (h'.before quote) → Finds request m.respondedEchoRequest) ↔
      ∀ x ∈ h.extensions, x.shape = none) := by
  refine ⟨fun request quote hq hle b m _ hd => ?_, fun ha => ?_, fun hs h' hl
    request quote hq hle b m _ hd => ?_⟩
  · rw [MessageV4.respondedEchoRequest_of_icmpData hd, skipIpv4Header_bytes]
    exact quotedEcho_finds hq hle
  · by_contra hs
    let filled : Ipv6Header := { h with
      extensions := h.extensions.map Extension.filled
      valid := forall_mem_map.mpr fun x hx => Extension.filled_valid (h.valid x hx) }
    have hl : filled.extensions.map Extension.shape = h.extensions.map Extension.shape := by
      rw [map_map]
      exact map_congr_left fun x _ => x.shape_filled
    let request : Echo := ⟨0, 0, 0, []⟩
    have hlo : 40 ≤ (filled.before (request.serialize 128)).length := by
      have hfields := filled.fields_length
      have hrest := filled.rest_length
      simp only [Ipv6Header.before, length_append, length_cons]
      omega
    obtain ⟨echo, he, -⟩ := ha filled hl request _ prefix_rfl (by decide) _ _
      (deserialize_timeExceeded hlo) rfl
    rw [respondedEchoRequest_of_icmpData rfl, skipIpv6Header_before,
      quotedEcho_filled h.valid hs] at he
    cases he
  · have hf : ∀ x ∈ h'.extensions, x.shape = none := by
      intro x hx
      obtain ⟨y, hy, hyx⟩ := mem_map.mp (hl ▸ mem_map_of_mem (f := Extension.shape) hx)
      rw [← hyx]
      exact hs y hy
    rw [respondedEchoRequest_of_icmpData hd, skipIpv6Header_before,
      skipIpv6Extensions_chain h'.valid hf]
    exact quotedEcho_finds hq hle

def somePing : Echo := ⟨0, 7, 1, [0xaa, 0xbb, 0xcc]⟩

def hopByHop : Extension := .options 0 0 [1, 4, 0, 0, 0, 0]

def hopByHopHeader : Ipv6Header :=
  ⟨replicate 6 0, replicate 33 0, [hopByHop], rfl, rfl, forall_mem_singleton.mpr ⟨rfl, rfl⟩⟩

theorem optionsV4_found : Finds somePing (MessageV4.timeExceeded 0
    ((0x46 :: replicate 8 0 ++ 1 :: replicate 14 0) ++ (somePing.serialize 8).take 8)
      ).respondedEchoRequest :=
  (correlation_iff ⟨0x46, replicate 8 0, replicate 14 0, rfl, rfl, by decide⟩
    hopByHopHeader).1 somePing _ ( take_prefix 8 _) (by decide)
    ([11, 0, 0, 0, 0, 0, 0, 0] ++ (0x46 :: replicate 8 0 ++ 1 :: replicate 14 0) ++
      (somePing.serialize 8).take 8) _ rfl rfl

theorem hopByHop_lost : ∃ b, ∃ m : MessageV6, deserialize b = some (.ok m) ∧
    m.icmpData = some (hopByHopHeader.before (somePing.serialize 128)) ∧
    m.respondedEchoRequest = some none := by
  refine ⟨_, .timeExceeded 0 _, deserialize_timeExceeded ?_, rfl, ?_⟩
  · decide
  · have hs := skipIpv6Extensions_options (show isOptions 0 from rfl)
      (show ([] : Bytes).length = (0 : UInt8).toNat from rfl) 58
      ([1, 4, 0, 0, 0, 0] ++ somePing.serialize 128)
    rw [skipIpv6Extensions_other (show isOptions 58 = false from rfl) (by decide)] at hs
    rw [respondedEchoRequest_of_icmpData rfl, skipIpv6Header_before]
    exact congrArg (· >>= quotedEcho 58 128) hs

end TrustTunnel.IcmpUtils
