import TrustTunnel.AddressForms
import TrustTunnel.IcmpQuotes

/-!
# Echos as keys, and their checksum (`icmp_utils.rs`, `net_utils.rs`)

`==` compares data up to the shorter length, and the checksum adds the carries back only once.
-/

namespace TrustTunnel.IcmpUtils

open Io HttpUdpCodec

/-! ## Echos as keys -/

namespace Echo

/-- What `Hash for Echo` gives to the hasher. -/
def hash (x : Echo) : List UInt16 := [x.identifier, x.sequenceNumber]

lemma hash_eq_iff {x y : Echo} :
    x.hash = y.hash ↔ x.identifier = y.identifier ∧ x.sequenceNumber = y.sequenceNumber := by
  simp [hash]

lemma eq_iff_hash {x y : Echo} :
    x.eq y ↔ x.hash = y.hash ∧ (y.data <+: x.data ∨ x.data <+: y.data) := by
  rw [eq_iff, hash_eq_iff, and_assoc]

lemma eq_refl (x : Echo) : x.eq x = true :=
  eq_iff_hash.mpr ⟨rfl, .inl List.prefix_rfl⟩

/-- **Where echos are lawful keys.** `==` is transitive in the sets where two echos that a third
begins are comparable. -/
theorem eq_lawful_iff (s : Set Echo) :
    (∀ x : Echo, x.eq x = true) ∧ (∀ x y : Echo, x.eq y = true → y.eq x = true) ∧
      (∀ x y : Echo, x.eq y = true → x.hash = y.hash) ∧
      ((∀ x ∈ s, ∀ y ∈ s, ∀ z ∈ s, x.eq y = true → y.eq z = true → x.eq z = true) ↔
        ∀ x ∈ s, ∀ y ∈ s, ∀ z ∈ s, x.hash = y.hash → y.hash = z.hash →
          y.data <+: x.data → y.data <+: z.data → x.data <+: z.data ∨ z.data <+: x.data) := by
  refine ⟨eq_refl, fun x y h => eq_comm x y ▸ h, fun x y h => (eq_iff_hash.mp h).1, ?_⟩
  constructor
  · intro h x hx y hy z hz hxy hyz hyx hyz'
    have hxz := h x hx y hy z hz (eq_iff_hash.mpr ⟨hxy, .inl hyx⟩)
      (eq_iff_hash.mpr ⟨hyz, .inr hyz'⟩)
    exact (eq_iff_hash.mp hxz).2.symm
  · intro h x hx y hy z hz hxy hyz
    obtain ⟨hxy, hda⟩ := eq_iff_hash.mp hxy
    obtain ⟨hyz, hda'⟩ := eq_iff_hash.mp hyz
    refine eq_iff_hash.mpr ⟨hxy.trans hyz, ?_⟩
    rcases hda, hda' with ⟨hd | hd, hd' | hd'⟩
    · exact .inl (hd'.trans hd)
    · exact (h x hx y hy z hz hxy hyz hd hd').symm
    · exact List.prefix_or_prefix_of_prefix hd' hd
    · exact .inr (hd.trans hd')

theorem eq_not_transitive : ∃ x y z : Echo, x.eq y = true ∧ y.eq z = true ∧ x.eq z = false :=
  ⟨⟨0, 1, 1, [1]⟩, ⟨0, 1, 1, []⟩, ⟨0, 1, 1, [2]⟩, rfl, rfl, rfl⟩

end Echo

/-! ## Sums of words -/

/-- The sum of the 16-bit words, an odd last byte padded with zero. -/
def wordSum : Bytes → Nat
  | a :: b :: bytes => 256 * a.toNat + b.toNat + wordSum bytes
  | [a] => 256 * a.toNat
  | [] => 0

/-- Add the carries out of sixteen bits back until there are none. -/
def foldCarries (n : Nat) : Nat :=
  if n < 2 ^ 16 then n else foldCarries (n / 2 ^ 16 + n % 2 ^ 16)
termination_by n
decreasing_by omega

/-- The one's-complement sum of RFC 1071. -/
def onesComplementSum (bytes : Bytes) : Nat := foldCarries (wordSum bytes)

/-- The carries of the sum, added back, give no further carry. -/
def CarriesOnce (bytes : Bytes) : Prop :=
  wordSum bytes / 2 ^ 16 + wordSum bytes % 2 ^ 16 < 2 ^ 16

lemma foldCarries_eq (n : Nat) : foldCarries n = if n = 0 then 0 else (n - 1) % 65535 + 1 := by
  induction n using foldCarries.induct with
  | case1 n h =>
    rw [foldCarries, if_pos h]
    split <;> omega
  | case2 n h ih =>
    rw [foldCarries, if_neg h, ih]
    split <;> split <;> omega

lemma foldCarries_once (h : n / 2 ^ 16 + n % 2 ^ 16 < 2 ^ 16) :
    foldCarries n = n / 2 ^ 16 + n % 2 ^ 16 := by
  rw [foldCarries]
  split
  · omega
  · rw [foldCarries, if_pos h]

lemma foldCarries_twice (hn : n < 2 ^ 32) (h : 2 ^ 16 ≤ n / 2 ^ 16 + n % 2 ^ 16) :
    foldCarries n = n / 2 ^ 16 + n % 2 ^ 16 - 65535 := by
  rw [foldCarries, if_neg (by omega), foldCarries, if_neg (by omega), foldCarries,
    if_pos (by omega)]
  omega

lemma wordSum_le (bytes : Bytes) : wordSum bytes ≤ 65535 * ((bytes.length + 1) / 2) := by
  induction bytes using wordSum.induct with
  | case1 a b =>
    have ha := a.toNat_lt
    have hb := b.toNat_lt
    simp only [wordSum, List.length_cons]
    omega
  | case2 a =>
    have ha := a.toNat_lt
    simp only [wordSum, List.length_cons, List.length_nil]
    omega
  | case3 => exact Nat.le_refl 0

lemma wordSum_lt (h : bytes.length ≤ 65543) : wordSum bytes < 2 ^ 32 := by
  have := wordSum_le bytes
  omega

/-! ## The checksum -/

lemma toNat_word (a : UInt8) : (a.toUInt32 <<< 8).toNat = 256 * a.toNat := by
  have := a.toNat_lt
  rw [UInt32.toNat_shiftLeft, UInt8.toNat_toUInt32, Nat.shiftLeft_eq]
  simp
  omega

/-- The accumulator is the sum as long as that fits its 32 bits. -/
lemma toNat_rfc1071Sum (h : sum.toNat + wordSum bytes < 2 ^ 32) :
    (rfc1071Sum sum bytes).toNat = sum.toNat + wordSum bytes := by
  induction sum, bytes using rfc1071Sum.induct with
  | case1 sum a b bytes ih =>
    simp only [wordSum] at h
    have hs : (sum + (a.toUInt32 <<< 8) + b.toUInt32).toNat =
        sum.toNat + 256 * a.toNat + b.toNat := by
      rw [UInt32.toNat_add, UInt32.toNat_add, toNat_word, UInt8.toNat_toUInt32]
      omega
    rw [rfc1071Sum, ih (by omega), hs, wordSum]
    omega
  | case2 =>
    simp only [wordSum] at h
    rw [rfc1071Sum, UInt32.toNat_add, toNat_word, wordSum, Nat.mod_eq_of_lt h]
  | case3 => rfl

lemma toNat_rfc1071Checksum (h : bytes.length ≤ 65543) : (rfc1071Checksum bytes).toNat =
      65535 - (wordSum bytes / 2 ^ 16 + wordSum bytes % 2 ^ 16) % 2 ^ 16 := by
  have hlt := wordSum_lt h
  have hs : (rfc1071Sum 0 bytes).toNat = wordSum bytes := by
    rw [toNat_rfc1071Sum (by simpa using hlt)]
    simp
  rw [rfc1071Checksum, UInt32.toNat_toUInt16, UInt32.toNat_not, UInt32.toNat_add,
    UInt32.toNat_shiftRight, hs]
  simp [Nat.shiftRight_eq_div_pow, UInt32.size]
  omega

lemma rfc1071Checksum_iff (h : bytes.length ≤ 65543) :
    rfc1071Checksum bytes = ~~~UInt16.ofNat (onesComplementSum bytes) ↔ CarriesOnce bytes := by
  have hlt := wordSum_lt h
  rw [← UInt16.toNat_inj, toNat_rfc1071Checksum h, UInt16.toNat_not, UInt16.toNat_ofNat',
    onesComplementSum, CarriesOnce]
  by_cases ho : wordSum bytes / 2 ^ 16 + wordSum bytes % 2 ^ 16 < 2 ^ 16
  · rw [foldCarries_once ho]
    exact iff_of_true rfl ho
  · rw [foldCarries_twice hlt (by omega)]
    refine iff_of_false ?_ ho
    simp only [UInt16.size]
    omega

/-! ## Echos -/

/-- The packet of `Echo::serialize` before its checksum is put in. -/
def Echo.unsigned (x : Echo) (typeId : UInt8) : Bytes :=
  [typeId, 0] ++ putU16 0 ++ (putU16 x.identifier ++ putU16 x.sequenceNumber ++ x.data)

lemma wordSum_serialize (x : Echo) (typeId : UInt8) : wordSum (x.serialize typeId) =
      wordSum (x.unsigned typeId) + (rfc1071Checksum (x.unsigned typeId)).toNat := by
  generalize hc : rfc1071Checksum (x.unsigned typeId) = c
  have hw : 256 * (c >>> 8).toUInt8.toNat + c.toUInt8.toNat = c.toNat := by
    rw [← NetUtils.toNat_beU16, beU16_putU16]
  rw [Echo.serialize, ← Echo.unsigned, hc]
  simp only [Echo.unsigned, putU16, wordSum, List.cons_append, List.nil_append, ← hw]
  have hz : (UInt16.toUInt8 0).toNat = 0 := rfl
  rw [UInt16.zero_shiftRight, hz]
  omega

lemma onesComplementSum_serialize_iff {x : Echo} (typeId : UInt8) (h : x.data.length ≤ 65535) :
    onesComplementSum (x.serialize typeId) = 0xffff ↔ CarriesOnce (x.unsigned typeId) := by
  have hl : (x.unsigned typeId).length ≤ 65543 := by
    simp [Echo.unsigned, putU16]
    omega
  have hlt := wordSum_lt hl
  have hs := toNat_rfc1071Checksum hl
  rw [onesComplementSum, wordSum_serialize, hs, CarriesOnce]
  generalize wordSum (x.unsigned typeId) = n at hlt ⊢
  -- the sum with the checksum is a multiple of 65535, or one more than that
  by_cases ho : n / 2 ^ 16 + n % 2 ^ 16 < 2 ^ 16
  · have ht : n + (65535 - (n / 2 ^ 16 + n % 2 ^ 16) % 2 ^ 16) = 65535 * (n / 2 ^ 16 + 1) := by
      omega
    rw [ht, foldCarries_eq, if_neg (by omega)]
    exact iff_of_true (by omega) ho
  · have ht : n + (65535 - (n / 2 ^ 16 + n % 2 ^ 16) % 2 ^ 16) = 65535 * (n / 2 ^ 16 + 2) + 1 := by
      omega
    rw [ht, foldCarries_eq, if_neg (by omega)]
    exact iff_of_false (by omega) ho

/-- **When the checksum is that of RFC 1071**: exactly if the carries, added back once, leave
none. -/
theorem rfc1071_iff (bytes : Bytes) (h : bytes.length ≤ 65543) (x : Echo) (typeId : UInt8)
    (hx : x.data.length ≤ 65535) :
    wordSum bytes < 2 ^ 32 ∧ (rfc1071Sum 0 bytes).toNat = wordSum bytes ∧
      (rfc1071Checksum bytes = ~~~UInt16.ofNat (onesComplementSum bytes) ↔ CarriesOnce bytes) ∧
      (onesComplementSum (x.serialize typeId) = 0xffff ↔ CarriesOnce (x.unsigned typeId)) := by
  have hlt := wordSum_lt h
  have hs : (rfc1071Sum 0 bytes).toNat = (0 : UInt32).toNat + wordSum bytes :=
    toNat_rfc1071Sum (by simpa using hlt)
  exact ⟨hlt, by simpa using hs, rfc1071Checksum_iff h, onesComplementSum_serialize_iff typeId hx⟩

theorem rfc1071_iff_ping :
    wordSum [1, 2, 3] < 2 ^ 32 ∧ (rfc1071Sum 0 [1, 2, 3]).toNat = wordSum [1, 2, 3] ∧
      (rfc1071Checksum [1, 2, 3] = ~~~UInt16.ofNat (onesComplementSum [1, 2, 3]) ↔
        CarriesOnce [1, 2, 3]) ∧
      (onesComplementSum (Echo.serialize ⟨0, 1, 1, [7]⟩ 8) = 0xffff ↔
        CarriesOnce (Echo.unsigned ⟨0, 1, 1, [7]⟩ 8)) :=
  rfc1071_iff [1, 2, 3] (by decide) ⟨0, 1, 1, [7]⟩ 8 (by decide)

/-- The sum is `0x1ffff`. -/
theorem rfc1071_second_carry : rfc1071Checksum [0xff, 0xff, 0xff, 0xff, 0x00, 0x01] = 0xffff ∧
      ~~~UInt16.ofNat (onesComplementSum [0xff, 0xff, 0xff, 0xff, 0x00, 0x01]) = 0xfffe := by
  constructor
  · decide
  · rw [onesComplementSum, foldCarries_eq]
    decide

end TrustTunnel.IcmpUtils
