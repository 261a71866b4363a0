import TrustTunnel.UdpRecords

/-!
# The forms of an address (`net_utils.rs`)

An IPv4 address has two spellings as an IPv6 address, and in the datagram codecs it stands behind
twelve zeros.
-/

namespace TrustTunnel.NetUtils

open Io HttpUdpCodec

/-! ## IPv4 addresses in IPv6 addresses -/

/-- `Ipv4Addr::to_ipv6_mapped`, `::ffff:a.b.c.d`. -/
def Ipv4Addr.toIpv6Mapped (ip : Ipv4Addr) : Ipv6Addr :=
  ⟨0, 0, 0, 0, 0, 0xffff, beU16 ip.a ip.b, beU16 ip.c ip.d⟩

/-- `Ipv4Addr::to_ipv6_compatible`, `::a.b.c.d`. -/
def Ipv4Addr.toIpv6Compatible (ip : Ipv4Addr) : Ipv6Addr :=
  ⟨0, 0, 0, 0, 0, 0, beU16 ip.a ip.b, beU16 ip.c ip.d⟩

lemma toNat_beU16 (hi lo : UInt8) : (beU16 hi lo).toNat = 256 * hi.toNat + lo.toNat := by
  have hs : (hi.toUInt16 <<< 8).toNat = 2 ^ 8 * hi.toNat := by
    rw [UInt16.toNat_shiftLeft, UInt8.toNat_toUInt16, Nat.shiftLeft_eq]
    have := hi.toNat_lt
    simp
    omega
  rw [beU16, UInt16.toNat_or, hs, UInt8.toNat_toUInt16, ← Nat.two_pow_add_eq_or_of_lt lo.toNat_lt]

@[simp] lemma beU16_high (hi lo : UInt8) : (beU16 hi lo >>> 8).toUInt8 = hi := by
  have := hi.toNat_lt
  have := lo.toNat_lt
  rw [← UInt8.toNat_inj, UInt16.toNat_toUInt8, UInt16.toNat_shiftRight, toNat_beU16]
  simp [Nat.shiftRight_eq_div_pow]
  omega

@[simp] lemma beU16_low (hi lo : UInt8) : (beU16 hi lo).toUInt8 = lo := by
  have := lo.toNat_lt
  rw [← UInt8.toNat_inj, UInt16.toNat_toUInt8, toNat_beU16]
  omega

lemma extractIpv4FromIpv6_mapped (ip : Ipv4Addr) :
    extractIpv4FromIpv6 ip.toIpv6Mapped = some ip := by
  simp [extractIpv4FromIpv6, Ipv4Addr.toIpv6Mapped]

lemma isGlobalIp_mapped (ip : Ipv4Addr) : isGlobalIp (.v6 ip.toIpv6Mapped) =
    isGlobalIp (.v4 ip) := by
  simp [isGlobalIp, extractIpv4FromIpv6_mapped]

lemma extractIpv4FromIpv6_compatible (h : 1 < beU16 ip.c ip.d ∨ beU16 ip.a ip.b ≠ 0) :
    extractIpv4FromIpv6 ip.toIpv6Compatible = some ip := by
  rcases h with h | h
  · simp [extractIpv4FromIpv6, Ipv4Addr.toIpv6Compatible, h]
  · simp [extractIpv4FromIpv6, Ipv4Addr.toIpv6Compatible, h]

lemma isGlobalIp_compatible (ip : Ipv4Addr) :
    isGlobalIp (.v6 ip.toIpv6Compatible) = isGlobalIp (.v4 ip) := by
  by_cases h : 1 < beU16 ip.c ip.d ∨ beU16 ip.a ip.b ≠ 0
  · simp [isGlobalIp, extractIpv4FromIpv6_compatible h]
  · -- `::` and `::1` are not taken for IPv4 addresses, but neither they nor `0.0.0.0/8` are global
    rw [not_or, not_not, UInt16.not_lt, UInt16.le_iff_toNat_le, ← UInt16.toNat_inj, toNat_beU16,
      toNat_beU16] at h
    obtain ⟨a, b, c, d⟩ := ip
    obtain ⟨hl, hh⟩ := h
    simp only [UInt16.toNat_one, UInt16.toNat_zero] at hl hh
    obtain rfl : a = 0 := UInt8.toNat_inj.mp (by simp; omega)
    obtain rfl : b = 0 := UInt8.toNat_inj.mp (by simp; omega)
    obtain rfl : c = 0 := UInt8.toNat_inj.mp (by simp; omega)
    obtain rfl | rfl : d = 0 ∨ d = 1 := by
      rw [← UInt8.toNat_inj, ← UInt8.toNat_inj]
      simp
      omega
    · rfl
    · rfl

lemma isGlobalIp_unmapIpv6 (x : IpAddr) : isGlobalIp (unmapIpv6 x) = isGlobalIp x := by
  cases x with
  | v4 => rfl
  | v6 ip =>
    cases h : extractIpv4FromIpv6 ip with
    | none => simp [unmapIpv6, h]
    | some => simp [unmapIpv6, isGlobalIp, h]

/-- **Every spelling of an address is classified alike.** -/
theorem isGlobalIp_spellings (a : Ipv4Addr) (x : IpAddr) :
    isGlobalIp (.v6 a.toIpv6Mapped) = isGlobalIp (.v4 a) ∧
      isGlobalIp (.v6 a.toIpv6Compatible) = isGlobalIp (.v4 a) ∧
      isGlobalIp (unmapIpv6 x) = isGlobalIp x :=
  ⟨isGlobalIp_mapped a, isGlobalIp_compatible a, isGlobalIp_unmapIpv6 x⟩

/-! ## The fixed-size form -/

def Ipv4Addr.octets (ip : Ipv4Addr) : Bytes := [ip.a, ip.b, ip.c, ip.d]

def Ipv6Addr.octets (ip : Ipv6Addr) : Bytes :=
  putU16 ip.s0 ++ putU16 ip.s1 ++ putU16 ip.s2 ++ putU16 ip.s3 ++ putU16 ip.s4 ++ putU16 ip.s5
    ++ putU16 ip.s6 ++ putU16 ip.s7

def IpAddr.octets : IpAddr → Bytes
  | .v4 ip => ip.octets
  | .v6 ip => ip.octets

def putFixedSizeIp : IpAddr → Bytes
  | .v4 ip => List.replicate ipv4PaddingWireLength 0 ++ ip.octets
  | .v6 ip => ip.octets

lemma ipOfOctets_octets (ip : IpAddr) : ipOfOctets ip.octets = some ip := by
  cases ip with
  | v4 => rfl
  | v6 => simp [IpAddr.octets, Ipv6Addr.octets, putU16, ipOfOctets, beU16_putU16]

lemma getFixedSizeIp_v4 (ip : Ipv4Addr) (rest : Bytes) :
    getFixedSizeIp (putFixedSizeIp (.v4 ip) ++ rest) = some (.v4 ip, rest) := rfl

lemma getFixedSizeIp_v6 (ip : Ipv6Addr) (rest : Bytes) :
    getFixedSizeIp (putFixedSizeIp (.v6 ip) ++ rest) =
      if (ip.octets.take ipv4PaddingWireLength).all (· == 0) then
        (ipOfOctets (ip.octets.drop ipv4PaddingWireLength)).map (·, rest)
      else some (.v6 ip, rest) := by
  have ht : (ip.octets ++ rest).take ipv6WireLength = ip.octets := rfl
  have hd : (ip.octets ++ rest).drop ipv6WireLength = rest := rfl
  have hl : ip.octets.length = ipv6WireLength := rfl
  rw [putFixedSizeIp, getFixedSizeIp, ht, hd, if_pos hl]
  split
  · rfl
  · rw [show ip.octets = (IpAddr.v6 ip).octets from rfl, ipOfOctets_octets]
    rfl

/-- **Which addresses are read back.** Not IPv6 ones that begin with twelve zeros. -/
theorem getFixedSizeIp_put_iff (address : IpAddr) (rest : Bytes) :
    getFixedSizeIp (putFixedSizeIp address ++ rest) = some (address, rest) ↔
      ∀ ip, address = .v6 ip → ∃ b ∈ ip.octets.take ipv4PaddingWireLength, b ≠ 0 := by
  cases address with
  | v4 ip => exact ⟨fun _ _ h => (nomatch h), fun _ => getFixedSizeIp_v4 ip rest⟩
  | v6 ip =>
    rw [getFixedSizeIp_v6]
    constructor
    · rintro h _ ⟨⟩
      split at h
      · cases h
      · rename_i hz
        simpa using hz
    · intro h
      obtain ⟨b, hb, hne⟩ := h ip rfl
      refine if_neg fun hz => hne ?_
      simpa using List.all_eq_true.mp hz b hb

/-- The loopback address `::1` is read as `0.0.0.1`. -/
theorem getFixedSizeIp_loopback :
    getFixedSizeIp (putFixedSizeIp (.v6 ⟨0, 0, 0, 0, 0, 0, 0, 1⟩)) =
      some (.v4 ⟨0, 0, 0, 1⟩, []) := by
  decide

end TrustTunnel.NetUtils
