import TrustTunnel.AddressForms
import TrustTunnel.IcmpQuotes
import TrustTunnel.HttpIcmpCodec

/-!
# Datagram replies (`http_udp_codec.rs`, `http_icmp_codec.rs`)

A client finds in the replies the labels it wrote itself:

* `HttpUdpCodec.encodePacket_reversed`: the addresses of its record, exchanged;
* `HttpIcmpCodec.encodePacket_answers`: the identifier and the sequence number.
-/

namespace TrustTunnel.HttpUdpCodec

open Io NetUtils Forwarder List Option

lemma octets_of_ipOfOctets (h : ipOfOctets l = some a) : a.octets = l := by
  unfold ipOfOctets at h
  split at h <;> cases h
  · rfl
  · simp [IpAddr.octets, Ipv6Addr.octets, putU16]

/-- The other way round, see `getFixedSizeIp_put_iff`. -/
lemma putFixedSizeIp_get (h : ip.length = 16) (hg : getFixedSizeIp ip = some (a, rest)) :
    putFixedSizeIp a = ip := by
  rw [getFixedSizeIp, ipv6WireLength, take_of_length_le h.le, if_pos h] at hg
  obtain ⟨_, hb, ⟨⟩⟩ := map_eq_some_iff.mp hg
  have ho := octets_of_ipOfOctets hb
  have hl := congrArg length ho
  split at ho
  case isTrue hz =>
    rw [if_pos hz, length_drop, h] at hl
    cases a with
    | v6 => cases hl
    | v4 =>
      have hp : ip.take ipv4PaddingWireLength = replicate 12 0 :=
        eq_replicate_iff.mpr ⟨by rw [length_take, h]; rfl, by simpa using hz⟩
      exact (congrArg₂ _ hp.symm ho).trans (take_append_drop _ ip)
  case isFalse hz =>
    rw [if_neg hz, h] at hl
    cases a with
    | v4 => cases hl
    | v6 => exact ho

def udppktOutFixedHeaderSize : Nat :=
  udppktLengthSize + 2 * (udppktAddrSize + udppktPortSize)

def udppktOutFixedHeaderNoLengthSize : Nat := udppktOutFixedHeaderSize - udppktLengthSize

/-- `Encoder::encode_packet`, which always returns a packet. -/
def encodePacket (d : UdpDatagram) : Bytes :=
  putU32 (udppktOutFixedHeaderNoLengthSize + d.payload.length) ++ (putFixedSizeIp d.flow.source.ip ++
    (putU16 d.flow.source.port ++ (putFixedSizeIp d.flow.destination.ip ++
      (putU16 d.flow.destination.port ++ d.payload))))

/-- **A reply has the addresses of the record**, exchanged. -/
theorem encodePacket_reversed (r : Record) (payload : Bytes) :
    encodePacket ⟨r.datagram.key.reversed, payload⟩ =
      putU32 (36 + payload.length) ++ (r.destinationIp ++ (putU16 r.destinationPort ++
        (r.sourceIp ++ (putU16 r.sourcePort ++ payload)))) := by
  obtain ⟨⟨a, _⟩, ha⟩ := isSome_iff_exists.mp (getFixedSizeIp_isSome r.sourceIp_length)
  obtain ⟨⟨b, _⟩, hb⟩ := isSome_iff_exists.mp (getFixedSizeIp_isSome r.destinationIp_length)
  have hs := putFixedSizeIp_get r.sourceIp_length ha
  have hd := putFixedSizeIp_get r.destinationIp_length hb
  simp only [encodePacket, UdpDatagramMeta.reversed, Downstream.UdpDatagram.key,
    UdpDatagramMeta.ofDownstream, Record.datagram, Record.source, Record.destination, ha, hb,
    get_some]
  rw [← hs, ← hd]
  cases a <;> cases b <;> rfl

end TrustTunnel.HttpUdpCodec

namespace TrustTunnel.HttpIcmpCodec

open Io NetUtils IcmpUtils List HttpUdpCodec

/-- `type_id` and `code`. -/
def label : Message → Bytes
  | .v4 m | .v6 m => [m.typeId, m.code]

def encodePacket (peer : IpAddr) (message : Message) : Option (Option Bytes) :=
  message.respondedEchoRequest.map (·.map fun echo =>
    putU16 echo.identifier ++ putFixedSizeIp peer ++ label message ++ putU16 echo.sequenceNumber)

lemma putU16_getD {raw : Bytes} (h : i + 1 < raw.length) :
    putU16 (beU16 (raw.getD i 0) (raw.getD (i + 1) 0)) = (raw.drop i).take 2 := by
  have hi := Nat.lt_of_succ_lt h
  rw [drop_eq_getElem_cons hi, drop_eq_getElem_cons h]
  simp [putU16, h, hi, -getElem_cons_drop]

/-- **A reply has the identifier and the sequence number of the record.** -/
theorem encodePacket_answers (random : Random) (d : Decoder)
    (raw : { raw : Bytes // raw.length = icmppktReqSize }) : ∃ d' request echo,
      d.decodeRecord random raw = some (d', request) ∧ request.message.toEcho = some echo ∧
      ∀ peer (m : Message), Finds echo m.respondedEchoRequest → encodePacket peer m =
        some (some (raw.1.take 2 ++ putFixedSizeIp peer ++ label m ++ (raw.1.drop 18).take 2)) := by
  obtain ⟨raw, h⟩ := raw
  obtain ⟨request, hd, _, -, -, -, hto, -⟩ := decodeRecord_eq random d h
  refine ⟨_, request, _, hd, hto, fun peer m hf => ?_⟩
  obtain ⟨_, hm, hi, hs, -⟩ := hf
  have hfi : _ = raw.take 2 := putU16_getD (i := 0) (by rw [h]; decide)
  have hla := putU16_getD (i := 18) (by rw [h]; decide)
  rw [encodePacket, hm, ← hfi, ← hla]
  exact congrArg₂ (fun i s => some (some (putU16 i ++ _ ++ _ ++ putU16 s))) hi hs

/-- The reply of the destination, and the error of a router on the way. -/
theorem sampleRecord_answered :
    let request : Echo := ⟨0, 7, 1, [0, 0]⟩
    let quote := 0x45 :: replicate 8 0 ++ 1 :: replicate 10 0 ++ request.serialize 8
    encodePacket (.v4 ⟨8, 8, 8, 8⟩) (.v4 (.echoReply request)) =
        some (some ([0, 7] ++ (replicate 12 0 ++ [8, 8, 8, 8]) ++ [0, 0] ++ [0, 1])) ∧
      encodePacket (.v4 ⟨192, 0, 2, 1⟩) (.v4 (.timeExceeded 0 quote)) =
        some (some ([0, 7] ++ (replicate 12 0 ++ [192, 0, 2, 1]) ++ [11, 0] ++ [0, 1])) := by
  obtain ⟨_, _, _, hd, he, h⟩ := encodePacket_answers zeros .new ⟨sampleRecord, rfl⟩
  cases hd
  cases he
  exact ⟨h _ _ ⟨_, rfl, rfl, rfl, rfl⟩, h _ _ ⟨_, rfl, rfl, rfl, rfl⟩⟩

end TrustTunnel.HttpIcmpCodec
