import TrustTunnel.HttpUdpCodec

/-!
# ICMP messages (`icmp_utils.rs`)

Two echos are the same if one's data begins with the other's. Reading past the end is `none`.
-/

namespace TrustTunnel.IcmpUtils

open Io HttpUdpCodec List

/-! ## Echos -/

structure Echo where
  code : UInt8
  identifier : UInt16
  sequenceNumber : UInt16
  data : Bytes
  deriving DecidableEq

namespace Echo

/-- `PartialEq` for `Echo`. -/
def eq (x y : Echo) : Bool :=
  if x.identifier != y.identifier || x.sequenceNumber != y.sequenceNumber then false
  else if x.data.length ≥ y.data.length then y.data.isPrefixOf x.data
  else x.data.isPrefixOf y.data

lemma eq_iff {x y : Echo} :
    x.eq y ↔ x.identifier = y.identifier ∧ x.sequenceNumber = y.sequenceNumber ∧
      (y.data <+: x.data ∨ x.data <+: y.data) := by
  unfold eq
  split
  · rename_i h
    simp only [Bool.or_eq_true, bne_iff_ne] at h
    constructor
    · exact fun h' => absurd h' Bool.false_ne_true
    · rintro ⟨hid, hs, -⟩
      exact absurd h (by simp [hid, hs])
  · rename_i h
    simp only [Bool.or_eq_true, bne_iff_ne, not_or, not_not] at h
    obtain ⟨hid, hs⟩ := h
    split
    · rename_i hl
      rw [ isPrefixOf_iff_prefix]
      refine ⟨fun hp => ⟨hid, hs, .inl hp⟩, ?_⟩
      rintro ⟨-, -, hp | hp⟩
      · exact hp
      · have heq := hp.eq_of_length (Nat.le_antisymm hp.length_le hl)
        exact heq ▸ prefix_rfl
    · rename_i hl
      rw [ isPrefixOf_iff_prefix]
      refine ⟨fun hp => ⟨hid, hs, .inr hp⟩, ?_⟩
      rintro ⟨-, -, hp | hp⟩
      · exact absurd hp.length_le hl
      · exact hp

lemma eq_comm (x y : Echo) : x.eq y = y.eq x := by
  rw [Bool.eq_iff_iff, eq_iff, eq_iff]
  constructor
  · rintro ⟨hid, hs, h⟩
    exact ⟨hid.symm, hs.symm, h.symm⟩
  · rintro ⟨hid, hs, h⟩
    exact ⟨hid.symm, hs.symm, h.symm⟩

end Echo

/-! ## Messages -/

structure Timestamp where
  code : UInt8
  identifier : UInt16
  sequenceNumber : UInt16
  originateTimestamp : UInt32
  receiveTimestamp : UInt32
  transmitTimestamp : UInt32
  deriving DecidableEq

structure Information where
  code : UInt8
  identifier : UInt16
  sequenceNumber : UInt16
  deriving DecidableEq

/-- `v4::Message`. -/
inductive MessageV4 where
  | destinationUnreachable (code : UInt8) (data : Bytes)
  | timeExceeded (code : UInt8) (data : Bytes)
  | parameterProblem (code pointer : UInt8) (data : Bytes)
  | sourceQuench (code : UInt8) (data : Bytes)
  | redirect (code : UInt8) (gatewayRedirectAddress : UInt32) (data : Bytes)
  | echo (echo : Echo)
  | echoReply (echo : Echo)
  | timestamp (timestamp : Timestamp)
  | timestampReply (timestamp : Timestamp)
  | informationRequest (information : Information)
  | informationReply (information : Information)
  deriving DecidableEq

/-- `v6::Message`. -/
inductive MessageV6 where
  | destinationUnreachable (code : UInt8) (data : Bytes)
  | packetTooBig (code : UInt8) (mtu : UInt32) (data : Bytes)
  | timeExceeded (code : UInt8) (data : Bytes)
  | parameterProblem (code : UInt8) (pointer : UInt32) (data : Bytes)
  | echoRequest (echo : Echo)
  | echoReply (echo : Echo)
  deriving DecidableEq

inductive Message where
  | v4 (message : MessageV4)
  | v6 (message : MessageV6)
  deriving DecidableEq

def Message.toEcho : Message → Option Echo
  | .v4 (.echo x) => some x
  | .v4 (.echoReply x) => some x
  | .v6 (.echoRequest x) => some x
  | .v6 (.echoReply x) => some x
  | _ => none

/-! ## The echo that is answered -/

def advance (n : Nat) (packet : Bytes) : Option Bytes :=
  if n ≤ packet.length then some (packet.drop n) else none

def skipIpv4Header (packet : Bytes) : Option (Option (UInt8 × Bytes)) :=
  if packet.length < 20 then some none
  else do
    let (x, packet) ← getU8 packet
    let headerLength := ((x &&& 0x0f) * 4).toNat
    if headerLength < 20 || headerLength > packet.length + 1 then some none
    else do
      let packet ← advance (1 + 2 + 2 + 2 + 1) packet
      let (nextProtocol, packet) ← getU8 packet
      let packet ← advance (2 + 4 + 4 + (headerLength - 20)) packet
      some (some (nextProtocol, packet))

/-- The loop of `net_utils::skip_ipv6_header` over the extension headers. -/
def skipIpv6Extensions (nextProtocol : UInt8) (packet : Bytes) : Option (Option (UInt8 × Bytes)) :=
  -- hop-by-hop options, routing and destination options
  if nextProtocol == 0 || nextProtocol == 43 || nextProtocol == 60 then
    match packet with
    | next :: headerExtLength :: rest =>
      if headerExtLength.toNat ≤ rest.length then
        skipIpv6Extensions next (rest.drop headerExtLength.toNat)
      else none
    | _ => some none
  -- fragment
  else if nextProtocol == 44 then
    match packet with
    | next :: _ :: _ :: _ :: _ :: _ :: _ :: _ :: rest => skipIpv6Extensions next rest
    | _ => some none
  else some (some (nextProtocol, packet))
termination_by packet.length
decreasing_by
  all_goals
    simp only [length_cons, length_drop]
    omega

def skipIpv6Header (packet : Bytes) : Option (Option (UInt8 × Bytes)) :=
  if packet.length < 40 then some none
  else do
    let packet ← advance (4 + 2) packet
    let (nextProtocol, packet) ← getU8 packet
    let packet ← advance (1 + 16 + 16) packet
    skipIpv6Extensions nextProtocol packet

def parseEcho (code : UInt8) (packet : Bytes) : Option Echo := do
  let (identifier, packet) ← getU16 packet
  let (sequenceNumber, packet) ← getU16 packet
  some ⟨code, identifier, sequenceNumber, packet⟩

/-- `deserialize_packet!` for an echo, after its type. -/
def deserializeEcho (packet : Bytes) : Option (Option Echo) :=
  if 1 + packet.length < 8 then some none
  else do
    let (code, packet) ← getU8 packet
    let packet ← advance 2 packet
    let echo ← parseEcho code packet
    some (some echo)

def quotedEcho (icmp echoRequest : UInt8) (header : Option (UInt8 × Bytes)) : Option (Option Echo) :=
  match header with
  | some (proto, typeId :: payload) =>
    if proto != icmp || typeId != echoRequest then some none else deserializeEcho payload
  | _ => some none

def MessageV4.respondedEchoRequest : MessageV4 → Option (Option Echo)
  | destinationUnreachable _ data => quoted data
  | timeExceeded _ data => quoted data
  | parameterProblem _ _ data => quoted data
  | sourceQuench _ data => quoted data
  | redirect _ _ data => quoted data
  | echoReply x => some (some x)
  | _ => some none
where
  quoted (data : Bytes) : Option (Option Echo) := skipIpv4Header data >>= quotedEcho 1 8

def MessageV6.respondedEchoRequest : MessageV6 → Option (Option Echo)
  | destinationUnreachable _ data => quoted data
  | packetTooBig _ _ data => quoted data
  | timeExceeded _ data => quoted data
  | parameterProblem _ _ data => quoted data
  | echoRequest _ => some none
  | echoReply x => some (some x)
where
  quoted (data : Bytes) : Option (Option Echo) := skipIpv6Header data >>= quotedEcho 58 128

def Message.respondedEchoRequest : Message → Option (Option Echo)
  | v4 x | v6 x => x.respondedEchoRequest

end TrustTunnel.IcmpUtils
