import TrustTunnel.Io

/-!
# Addresses (`net_utils.rs`)

Addresses, their classification (`isGlobalIp`), and their fixed-size wire form (`getFixedSizeIp`).
-/

namespace TrustTunnel.NetUtils
open Io

/-! ## Addresses of the standard library -/

/-- `Ipv4Addr`, as its four octets. -/
structure Ipv4Addr where
  a : UInt8
  b : UInt8
  c : UInt8
  d : UInt8
  deriving DecidableEq

/-- `Ipv6Addr`, as its eight segments. -/
structure Ipv6Addr where
  s0 : UInt16
  s1 : UInt16
  s2 : UInt16
  s3 : UInt16
  s4 : UInt16
  s5 : UInt16
  s6 : UInt16
  s7 : UInt16
  deriving DecidableEq

inductive IpAddr where
  | v4 (ip : Ipv4Addr)
  | v6 (ip : Ipv6Addr)
  deriving DecidableEq

/-- `SocketAddr`; the last fields are the flow information and the scope id. -/
inductive SocketAddr where
  | v4 (ip : Ipv4Addr) (port : UInt16)
  | v6 (ip : Ipv6Addr) (port : UInt16) (flowinfo scopeId : UInt32)
  deriving DecidableEq

/-- `SocketAddr::new(ip, port)`. -/
def SocketAddr.new : IpAddr → UInt16 → SocketAddr
  | .v4 ip, port => .v4 ip port
  | .v6 ip, port => .v6 ip port 0 0

def SocketAddr.ip : SocketAddr → IpAddr
  | .v4 ip _ => .v4 ip
  | .v6 ip _ _ _ => .v6 ip

def SocketAddr.port : SocketAddr → UInt16
  | .v4 _ port => port
  | .v6 _ port _ _ => port

namespace Ipv4Addr

def isPrivate (ip : Ipv4Addr) : Bool :=
  ip.a == 10 || (ip.a == 172 && ip.b &&& 0xf0 == 16) || (ip.a == 192 && ip.b == 168)

def isLoopback (ip : Ipv4Addr) : Bool := ip.a == 127

def isUnspecified (ip : Ipv4Addr) : Bool := ip == ⟨0, 0, 0, 0⟩

def isLinkLocal (ip : Ipv4Addr) : Bool := ip.a == 169 && ip.b == 254

def isBroadcast (ip : Ipv4Addr) : Bool :=
  ip.a == 255 && ip.b == 255 && ip.c == 255 && ip.d == 255

def isDocumentation (ip : Ipv4Addr) : Bool :=
  (ip.a == 192 && ip.b == 0 && ip.c == 2) ||
  (ip.a == 198 && ip.b == 51 && ip.c == 100) ||
  (ip.a == 203 && ip.b == 0 && ip.c == 113)

end Ipv4Addr

namespace Ipv6Addr

def isMulticast (ip : Ipv6Addr) : Bool := ip.s0 &&& 0xff00 == 0xff00

def isLoopback (ip : Ipv6Addr) : Bool := ip == ⟨0, 0, 0, 0, 0, 0, 0, 1⟩

def isUnspecified (ip : Ipv6Addr) : Bool := ip == ⟨0, 0, 0, 0, 0, 0, 0, 0⟩

end Ipv6Addr

def IpAddr.isLoopback : IpAddr → Bool
  | .v4 ip | .v6 ip => ip.isLoopback

def IpAddr.isUnspecified : IpAddr → Bool
  | .v4 ip | .v6 ip => ip.isUnspecified

def IpAddr.isIpv6 : IpAddr → Bool
  | .v4 _ => false
  | .v6 _ => true

/-! ## Globally routable addresses -/

def isGlobalIpv4 (ip : Ipv4Addr) : Bool :=
  -- 192.0.0.9 and 192.0.0.10 are the only global addresses of 192.0.0.0/24
  if ip == ⟨192, 0, 0, 9⟩ || ip == ⟨192, 0, 0, 10⟩ then true
  else
    !ip.isPrivate
      && !ip.isLoopback
      && !ip.isLinkLocal
      && !ip.isBroadcast
      && !ip.isDocumentation
      && !(ip.a == 100 && ip.b &&& 0b11000000 == 0b01000000)
      && !(ip.a == 192 && ip.b == 0 && ip.c == 0)
      && !(ip.a &&& 240 == 240 && !ip.isBroadcast)
      && !(ip.a == 198 && ip.b &&& 0xfe == 18)
      && ip.a != 0

def isUnicastGlobalIpv6 (ip : Ipv6Addr) : Bool :=
  !(ip.isMulticast
    || ip.isLoopback
    || ip.s0 &&& 0xffc0 == 0xfe80
    || ip.s0 &&& 0xfe00 == 0xfc00
    || ip.isUnspecified
    || (ip.s0 == 0x2001 && ip.s1 == 0xdb8))

def isGlobalIpv6 (ip : Ipv6Addr) : Bool :=
  -- of the multicast scopes only the global one (0xe) is routable
  if ip.isMulticast then ip.s0 &&& 0x000f == 0x0e
  else isUnicastGlobalIpv6 ip

/-- The address inside `::ffff:a.b.c.d` or `::a.b.c.d`; `::` and `::1` are native. -/
def extractIpv4FromIpv6 (ip : Ipv6Addr) : Option Ipv4Addr :=
  let isMapped := ip.s0 == 0 && ip.s1 == 0 && ip.s2 == 0 && ip.s3 == 0 && ip.s4 == 0
    && ip.s5 == 0xffff
  let isCompat := ip.s0 == 0 && ip.s1 == 0 && ip.s2 == 0 && ip.s3 == 0 && ip.s4 == 0
    && ip.s5 == 0 && (ip.s6 != 0 || decide (ip.s7 > 1))
  if isMapped || isCompat then
    some ⟨(ip.s6 >>> 8).toUInt8, ip.s6.toUInt8, (ip.s7 >>> 8).toUInt8, ip.s7.toUInt8⟩
  else none

def isGlobalIp : IpAddr → Bool
  | .v4 x => isGlobalIpv4 x
  | .v6 x =>
    match extractIpv4FromIpv6 x with
    | some v4 => isGlobalIpv4 v4
    | none => isGlobalIpv6 x

def unmapIpv6 : IpAddr → IpAddr
  | .v4 ip => .v4 ip
  | .v6 ip => ((extractIpv4FromIpv6 ip).map .v4).getD (.v6 ip)

/-! ## Fixed-size wire form -/

def ipv6WireLength : Nat := 16
def ipv4PaddingWireLength : Nat := 12

/-- Big-endian `u16`. -/
def beU16 (hi lo : UInt8) : UInt16 := (hi.toUInt16 <<< 8) ||| lo.toUInt16

/-- `IpAddr::from` of four or sixteen octets. -/
def ipOfOctets : Bytes → Option IpAddr
  | [a, b, c, d] => some (.v4 ⟨a, b, c, d⟩)
  | [a0, a1, b0, b1, c0, c1, d0, d1, e0, e1, f0, f1, g0, g1, h0, h1] =>
    some (.v6 ⟨beU16 a0 a1, beU16 b0 b1, beU16 c0 c1, beU16 d0 d1,
      beU16 e0 e1, beU16 f0 f1, beU16 g0 g1, beU16 h0 h1⟩)
  | _ => none

/-- `none` when there are too few bytes (`split_to` then panics). -/
def getFixedSizeIp (bytes : Bytes) : Option (IpAddr × Bytes) :=
  let ip := bytes.take ipv6WireLength
  let address :=
    if (ip.take ipv4PaddingWireLength).all (· == 0) then ip.drop ipv4PaddingWireLength else ip
  if ip.length = ipv6WireLength then
    (ipOfOctets address).map (fun a => (a, bytes.drop ipv6WireLength))
  else none

lemma ipOfOctets_isSome (h : l.length = 4 ∨ l.length = 16) : ∃ a, ipOfOctets l = some a := by
  rcases h with h | h
  · match l, h with
    | [a, b, c, d], _ => exact ⟨_, rfl⟩
  · match l, h with
    | [a0, a1, b0, b1, c0, c1, d0, d1, e0, e1, f0, f1, g0, g1, h0, h1], _ => exact ⟨_, rfl⟩

lemma getFixedSizeIp_append (h : ip.length = 16) :
    ∃ a, ∀ rest, getFixedSizeIp (ip ++ rest) = some (a, rest) := by
  have had : (if (ip.take ipv4PaddingWireLength).all (· == 0) then
      ip.drop ipv4PaddingWireLength else ip).length = 4 ∨
      (if (ip.take ipv4PaddingWireLength).all (· == 0) then
        ip.drop ipv4PaddingWireLength else ip).length = 16 := by
    split
    · exact Or.inl (by simp [ipv4PaddingWireLength, h])
    · exact Or.inr h
  obtain ⟨a, ha⟩ := ipOfOctets_isSome had
  refine ⟨a, fun rest => ?_⟩
  have ht : (ip ++ rest).take ipv6WireLength = ip := by
    rw [List.take_append_of_le_length (by simp [ipv6WireLength, h])]
    exact List.take_of_length_le (by simp [ipv6WireLength, h])
  have hd : (ip ++ rest).drop ipv6WireLength = rest :=
    List.drop_left' (by simp [ipv6WireLength, h])
  simp only [getFixedSizeIp, ht, hd, ha]
  exact if_pos h

end TrustTunnel.NetUtils
