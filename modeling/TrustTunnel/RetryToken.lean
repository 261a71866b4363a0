import TrustTunnel.Lib.BigEndian
import TrustTunnel.Lib.Items
import TrustTunnel.NetUtils

/-!
# Retry tokens

A token is a secret drawn at the start, the address, and the connection id. Proved here:

* `binds_of_family`: among the peers of one socket a token is valid for its own address alone;
* `forges_readdress`: whoever has one token can write one for any address.
-/

namespace TrustTunnel.QuicMultiplexer

open Io NetUtils Lib List

/-- `quiche::Type`. -/
inductive PacketType where
  | initial
  | retry
  | handshake
  | zeroRtt
  | versionNegotiation
  | short
  deriving DecidableEq

structure Header where
  ty : PacketType
  version : Nat
  dcid : Bytes
  scid : Bytes
  token : Option Bytes

/-- `[u8; TOKEN_PREFIX_SIZE]`. -/
structure TokenPrefix where
  bytes : Bytes
  size : bytes.length = 16

/-- `quiche`, `ring` and the socket; `sign` is the code under a key drawn once. -/
structure Network where
  debugHeader : Header → String
  versionIsSupported : Nat → Bool
  sign : Bytes → Bytes
  negotiateVersion (scid dcid : Bytes) : Except String Bytes
  retry (scid dcid newScid token : Bytes) (version : Nat) : Except String Bytes
  trySendTo (packet : Bytes) (peer : SocketAddr) : Except IoError Unit

def maxConnIdLen : Nat := 20

def ipv6Octets (ip : Ipv6Addr) : Bytes :=
  [ip.s0, ip.s1, ip.s2, ip.s3, ip.s4, ip.s5, ip.s6, ip.s7].flatMap (fun s => bigEndian 2 s.toNat)

def socketAddrToVec (addr : SocketAddr) : Bytes :=
  match addr with
  | .v4 ip port => [ip.a, ip.b, ip.c, ip.d] ++ bigEndian 2 port.toNat
  | .v6 ip port _ _ => ipv6Octets ip ++ bigEndian 2 port.toNat

def mintToken (header : Header) (tokenPrefix : TokenPrefix) (peer : SocketAddr) : Bytes :=
  tokenPrefix.bytes ++ socketAddrToVec peer ++ header.dcid

def validateToken (tokenPrefix : TokenPrefix) (peer : SocketAddr) (token : Bytes) : Option Bytes :=
  (token.dropPrefix? tokenPrefix.bytes).bind (fun token => token.dropPrefix? (socketAddrToVec peer))

inductive UnknownPacketStatus where
  | process
  | skip

/-- `on_unknown_quic_packet`, with the retry packet's token. -/
def onUnknownQuicPacket (x : Network) (tokenPrefix : TokenPrefix) (peer : SocketAddr)
    (header : Header) : Except IoError (UnknownPacketStatus × Option Bytes) := do
  if header.ty ≠ .initial then .error ⟨.other, "Unexpected packet type: " ++ x.debugHeader header⟩
  else if !x.versionIsSupported header.version then
    let out ← (x.negotiateVersion header.scid header.dcid).mapError
      (fun e => ⟨.other, "Version negotiation failed: " ++ e⟩)
    x.trySendTo out peer
    return (.skip, none)
  else
    match header.token with
    | none => .error ⟨.other, "Invalid packet: initial packet must contain token"⟩
    | some quicToken =>
      let scid := (x.sign header.dcid).take maxConnIdLen
      if quicToken.isEmpty then
        let token := mintToken header tokenPrefix peer
        let out ← (x.retry header.scid header.dcid scid token header.version).mapError
          (fun e => ⟨.other, "Retry failed: " ++ e⟩)
        x.trySendTo out peer
        return (.skip, some token)
      else if scid.length ≠ header.dcid.length then
        .error ⟨.other, "Invalid packet: unexpected destination connection ID"⟩
      else return (.process, none)

/-- The beginning of `on_new_connection`. -/
def originalConnectionId (tokenPrefix : TokenPrefix) (peer : SocketAddr) (header : Header) :
    Except IoError Bytes :=
  match validateToken tokenPrefix peer (header.token.getD []) with
  | some odcid => .ok odcid
  | none => .error ⟨.other, "Invalid packet: unexpected token"⟩

/-! ## Valid tokens -/

section

variable {tokenPrefix : TokenPrefix} {peer : SocketAddr} {token : Bytes}

/-- **What a valid token is.** -/
lemma validateToken_eq_some_iff : validateToken tokenPrefix peer token = some odcid ↔
      token = tokenPrefix.bytes ++ socketAddrToVec peer ++ odcid := by
  simp only [validateToken, Option.bind_eq_some_iff, dropPrefix?_eq_some_iff, beq_iff_eq]
  constructor
  · rintro ⟨_, ⟨_, rfl, rfl⟩, _, rfl, rfl⟩
    rw [append_assoc]
  · rintro rfl
    exact ⟨_, ⟨_, append_assoc _ _ _, rfl⟩, _, rfl, rfl⟩

lemma validateToken_isSome_iff : (validateToken tokenPrefix peer token).isSome ↔
      token.take 16 = tokenPrefix.bytes ∧ socketAddrToVec peer <+: token.drop 16 := by
  rw [Option.isSome_iff_exists]
  simp only [validateToken_eq_some_iff]
  constructor
  · rintro ⟨odcid, rfl⟩
    rw [append_assoc, take_left' tokenPrefix.size, drop_left' tokenPrefix.size]
    exact ⟨rfl, odcid, rfl⟩
  · rintro ⟨ht, odcid, hd⟩
    refine ⟨odcid, ?_⟩
    rw [append_assoc, hd, ← ht, take_append_drop]

end

/-! ## The addresses a token is valid for -/

lemma length_socketAddrToVec (addr : SocketAddr) :
    (socketAddrToVec addr).length = if addr.ip.isIpv6 then 18 else 6 := by
  cases addr with
  | v4 => simp [socketAddrToVec, SocketAddr.ip, IpAddr.isIpv6, length_bigEndian]
  | v6 =>
    simp [socketAddrToVec, ipv6Octets, SocketAddr.ip, IpAddr.isIpv6, length_bigEndian]

lemma bigEndian_uint16_inj {a b : UInt16} : bigEndian 2 a.toNat = bigEndian 2 b.toNat ↔
    a = b := by
  refine ⟨fun h => UInt16.toNat_inj.mp ?_, fun h => by rw [h]⟩
  have hr := congrArg ofBigEndian h
  rw [ofBigEndian_bigEndian, ofBigEndian_bigEndian] at hr
  have ha := a.toNat_lt
  have hb := b.toNat_lt
  omega

lemma append_bigEndian_inj {x y : Bytes} {a b : UInt16} (hl : x.length = y.length) :
    x ++ bigEndian 2 a.toNat = y ++ bigEndian 2 b.toNat ↔ x = y ∧ a = b := by
  constructor
  · intro h
    obtain ⟨hxy, hab⟩ := append_inj h hl
    exact ⟨hxy, bigEndian_uint16_inj.mp hab⟩
  · rintro ⟨rfl, rfl⟩
    rfl

lemma length_ipv6Octets (ip : Ipv6Addr) : (ipv6Octets ip).length = 16 := by
  simp [ipv6Octets, length_bigEndian]

lemma ipv6Octets_inj : ipv6Octets a = ipv6Octets b ↔ a = b := by
  refine ⟨fun h => ?_, fun h => by rw [h]⟩
  obtain ⟨a0, a1, a2, a3, a4, a5, a6, a7⟩ := a
  obtain ⟨b0, b1, b2, b3, b4, b5, b6, b7⟩ := b
  -- the segments are cut off one after the other
  have hc : ∀ {s t : UInt16} {l l' : List UInt16}, (s :: l).flatMap (fun s => bigEndian 2 s.toNat) =
        (t :: l').flatMap (fun s => bigEndian 2 s.toNat) →
        s = t ∧ l.flatMap (fun s => bigEndian 2 s.toNat) =
          l'.flatMap (fun s => bigEndian 2 s.toNat) := by
    intro s t l l' h
    rw [flatMap_cons, flatMap_cons] at h
    obtain ⟨hh, ht⟩ := append_inj h (by rw [length_bigEndian, length_bigEndian])
    exact ⟨bigEndian_uint16_inj.mp hh, ht⟩
  obtain ⟨rfl, h⟩ := hc h
  obtain ⟨rfl, h⟩ := hc h
  obtain ⟨rfl, h⟩ := hc h
  obtain ⟨rfl, h⟩ := hc h
  obtain ⟨rfl, h⟩ := hc h
  obtain ⟨rfl, h⟩ := hc h
  obtain ⟨rfl, h⟩ := hc h
  obtain ⟨rfl, -⟩ := hc h
  rfl

lemma socketAddrToVec_eq_iff {p q : SocketAddr} (hf : q.ip.isIpv6 = p.ip.isIpv6) :
    socketAddrToVec q = socketAddrToVec p ↔ q.ip = p.ip ∧ q.port = p.port := by
  cases p with
  | v4 ip =>
    cases q with
    | v4 ip' =>
      obtain ⟨a, b, c, d⟩ := ip
      obtain ⟨a', b', c', d'⟩ := ip'
      simp only [socketAddrToVec, SocketAddr.ip, SocketAddr.port, append_bigEndian_inj, length_cons,
        length_nil, cons.injEq, IpAddr.v4.injEq, Ipv4Addr.mk.injEq, and_true]
    | v6 => cases hf
  | v6 ip =>
    cases q with
    | v4 => cases hf
    | v6 ip' =>
      have hl : (ipv6Octets ip').length = (ipv6Octets ip).length := by
        rw [length_ipv6Octets, length_ipv6Octets]
      simp only [socketAddrToVec, SocketAddr.ip, SocketAddr.port, append_bigEndian_inj hl,
        ipv6Octets_inj, IpAddr.v6.injEq]

lemma validateToken_mintToken_iff :
    (validateToken tokenPrefix q (mintToken header tokenPrefix p)).isSome ↔
      socketAddrToVec q <+: socketAddrToVec p ++ header.dcid := by
  rw [validateToken_isSome_iff, mintToken, append_assoc, take_left' tokenPrefix.size,
    drop_left' tokenPrefix.size]
  exact and_iff_right rfl

/-- A token for `p` is valid for `q` if and only if they have the same address, with the
header's connection id. -/
def Binds (header : Header) (tokenPrefix : TokenPrefix) (p q : SocketAddr) : Prop :=
  ((validateToken tokenPrefix q (mintToken header tokenPrefix p)).isSome ↔
    q.ip = p.ip ∧ q.port = p.port) ∧
  ∀ odcid, validateToken tokenPrefix q (mintToken header tokenPrefix p) = some odcid →
    odcid = header.dcid

/-- **Binding**, among the peers of one socket, which are of one family. -/
theorem binds_of_family (header : Header) (tokenPrefix : TokenPrefix) (p q : SocketAddr)
    (hf : q.ip.isIpv6 = p.ip.isIpv6) : Binds header tokenPrefix p q := by
  have hl : (socketAddrToVec q).length = (socketAddrToVec p).length := by
    rw [length_socketAddrToVec, length_socketAddrToVec, hf]
  constructor
  · rw [validateToken_mintToken_iff, ← socketAddrToVec_eq_iff hf]
    constructor
    · rintro ⟨rest, h⟩
      exact (append_inj h hl).1
    · intro h
      exact ⟨header.dcid, by rw [h]⟩
  · intro odcid h
    rw [validateToken_eq_some_iff, mintToken, append_assoc, append_assoc] at h
    have hr := append_cancel_left h
    exact (append_inj hr hl.symm).2.symm

def clientHeader : Header := ⟨.initial, 1, [0x83, 0x94, 0xc8, 0xf0], [0x01], some []⟩

def clientAddr : SocketAddr := .v4 ⟨198, 51, 100, 7⟩ 50000

def spoofedAddr : SocketAddr := .v4 ⟨203, 0, 113, 9⟩ 443

def zeroPrefix : TokenPrefix := ⟨replicate 16 0, length_replicate⟩

theorem binds_client : Binds clientHeader zeroPrefix clientAddr clientAddr ∧
    Binds clientHeader zeroPrefix clientAddr spoofedAddr :=
  ⟨binds_of_family clientHeader zeroPrefix clientAddr clientAddr rfl,
    binds_of_family clientHeader zeroPrefix clientAddr spoofedAddr rfl⟩

/-- An IPv6 address, and the IPv4 address and port its first six bytes are. -/
def ipv6Addr : SocketAddr := .v6 ⟨0x2001, 0xdb8, 0, 0, 0, 0, 0, 7⟩ 443 0 0

def ipv4Addr : SocketAddr := .v4 ⟨0x20, 0x01, 0x0d, 0xb8⟩ 0

/-- IPv6 tokens are valid for IPv4 addresses, and the other way round. -/
theorem families_mixed :
    validateToken zeroPrefix ipv4Addr (mintToken ⟨.initial, 1, [0x83, 0x94], [], some []⟩ zeroPrefix
        ipv6Addr) = some [0, 0, 0, 0, 0, 0, 0, 0, 0, 7, 1, 0xbb, 0x83, 0x94] ∧
      validateToken zeroPrefix ipv6Addr (mintToken
        ⟨.initial, 1, [0, 0, 0, 0, 0, 0, 0, 0, 0, 7, 1, 0xbb], [], some []⟩ zeroPrefix ipv4Addr) =
        some [] ∧
      ¬ Binds ⟨.initial, 1, [0x83, 0x94], [], some []⟩ zeroPrefix ipv6Addr ipv4Addr := by
  refine ⟨by decide, by decide, fun h => ?_⟩
  have hv := h.1.mp (by decide)
  exact absurd hv.2 (by decide)

/-! ## Forged tokens -/

section

variable {tokenPrefix : TokenPrefix} {token : Bytes}

/-- It makes tokens for `b` of tokens for `a` without the secret. -/
def Forges (f : Bytes → Bytes) (header : Header) (a b : SocketAddr) : Prop :=
  ∀ tokenPrefix : TokenPrefix,
    (validateToken tokenPrefix b (f (mintToken header tokenPrefix a))).isSome

/-- The secret is at the beginning; another address is put behind it. -/
def readdress (a b : SocketAddr) (token : Bytes) : Bytes :=
  token.take 16 ++ socketAddrToVec b ++ token.drop (16 + (socketAddrToVec a).length)

lemma readdress_mintToken (header : Header) (tokenPrefix : TokenPrefix) (a b : SocketAddr) :
    readdress a b (mintToken header tokenPrefix a) = mintToken header tokenPrefix b := by
  have hl : (tokenPrefix.bytes ++ socketAddrToVec a).length =
      16 + (socketAddrToVec a).length := by
    rw [length_append, tokenPrefix.size]
  have ht : (tokenPrefix.bytes ++ socketAddrToVec a ++ header.dcid).take 16 =
      tokenPrefix.bytes := by
    rw [append_assoc, take_left' tokenPrefix.size]
  rw [readdress, mintToken, ht, drop_left' hl, mintToken]

lemma forges_readdress (header : Header) (a b : SocketAddr) :
    Forges (readdress a b) header a b := by
  intro tokenPrefix
  rw [readdress_mintToken, Option.isSome_iff_exists]
  exact ⟨header.dcid, validateToken_eq_some_iff.mpr rfl⟩

/-- **Forging** always works, by one function for all headers. -/
theorem always_forgeable (a b : SocketAddr) : ∃ f, ∀ header, Forges f header a b :=
  ⟨readdress a b, fun header => forges_readdress header a b⟩

/-- Sixteen bytes and six others. -/
theorem spoofed_forged :
    clientAddr ≠ spoofedAddr ∧ Forges (readdress clientAddr spoofedAddr) clientHeader clientAddr
      spoofedAddr :=
  ⟨by decide, forges_readdress clientHeader clientAddr spoofedAddr⟩

end

end TrustTunnel.QuicMultiplexer
