import TrustTunnel.Forwarder
import Mathlib.Data.List.Basic

/-!
# The UDP datagram decoder (`http_udp_codec.rs`, `http_downstream.rs`)

A client's datagrams are records in the body of one stream, cut anywhere. `Decoder` finds them,
`read` feeds it. `none` is a panic.
-/

namespace TrustTunnel.HttpUdpCodec

open Io NetUtils List Option

/-! ## Constants -/

def udppktLengthSize : Nat := 4
def udppktAddrSize : Nat := 16
def udppktPortSize : Nat := 2
def udppktApplenSize : Nat := 1

def udppktInFixedHeaderSize : Nat :=
  udppktLengthSize + 2 * (udppktAddrSize + udppktPortSize) + udppktApplenSize

def udppktInFixedHeaderNoLengthSize : Nat := udppktInFixedHeaderSize - udppktLengthSize

def maxUdpPayloadSize : Nat := 2 ^ 16 - 20 - 8

def maxUdpInPayloadSize : Nat := maxUdpPayloadSize - udppktInFixedHeaderNoLengthSize

@[simp] lemma udppktLengthSize_eq : udppktLengthSize = 4 := rfl
@[simp] lemma udppktInFixedHeaderNoLengthSize_eq : udppktInFixedHeaderNoLengthSize = 37 := rfl
@[simp] lemma maxUdpInPayloadSize_eq : maxUdpInPayloadSize = 65471 := rfl

/-! ## Reading from a buffer -/

/-- Big-endian `u32`, as a `usize`. -/
def beU32 (a b c d : UInt8) : Nat :=
  a.toNat * 2 ^ 24 + b.toNat * 2 ^ 16 + c.toNat * 2 ^ 8 + d.toNat

def getU32 : Bytes → Option (Nat × Bytes)
  | a :: b :: c :: d :: rest => some (beU32 a b c d, rest)
  | _ => none

def getU16 : Bytes → Option (UInt16 × Bytes)
  | hi :: lo :: rest => some (beU16 hi lo, rest)
  | _ => none

def getU8 : Bytes → Option (UInt8 × Bytes)
  | b :: rest => some (b, rest)
  | [] => none

/-- `std::str::from_utf8`, with the copy `to_string` makes. -/
def fromUtf8 (name : Bytes) : Option String := String.fromUTF8? ⟨name.toArray⟩

/-! ## The decoder -/

inductive RecvState where
  | length
  | fixedHeader
  | appName (length : Nat)
  | payload (length : Nat)
  | dropping (remainingLength : Nat)
  deriving DecidableEq

structure Decoder where
  state : RecvState
  totalLength : Nat
  buffer : Bytes
  source : Option SocketAddr
  destination : Option SocketAddr
  appName : Option String
  deriving DecidableEq

def Decoder.new : Decoder :=
  { state := .length, totalLength := 0, buffer := [], source := none, destination := none,
    appName := none }

inductive DecodeResult (δ : Type) where
  | wantMore
  | complete (datagram : δ) (tail : Bytes)

namespace Decoder

/-- The inner `Option` is the source's: `none` while `cap` bytes were not seen. -/
def bufferedRead (d : Decoder) (input : Bytes) (cap : Nat) :
    Option (Decoder × Option (Bytes × Bytes)) :=
  if d.buffer.length < cap ∨ cap = 0 then
    if cap < d.buffer.length then none
    else
      let toDrain := min input.length (cap - d.buffer.length)
      let buffer := d.buffer ++ input.take toDrain
      let input := input.drop toDrain
      if buffer.length < cap then
        if input = [] then some ({ d with buffer := buffer }, none) else none
      else some ({ d with buffer := [] }, some (buffer, input))
  else none

def processClientLength (d : Decoder) (data : Bytes) : Option (Decoder × Bytes) := do
  match ← d.bufferedRead data udppktLengthSize with
  | (d, none) => pure (d, [])
  | (d, some (rawLength, tail)) =>
    let (totalLength, _) ← getU32 rawLength
    let state :=
      if totalLength ≥ udppktInFixedHeaderNoLengthSize then RecvState.fixedHeader
      else .dropping totalLength
    pure ({ d with totalLength := totalLength, state := state }, tail)

def processClientFixedHeader (d : Decoder) (data : Bytes) : Option (Decoder × Bytes) := do
  match ← d.bufferedRead data udppktInFixedHeaderNoLengthSize with
  | (d, none) => pure (d, [])
  | (d, some (header, tail)) =>
    let (sourceIp, header) ← getFixedSizeIp header
    let (sourcePort, header) ← getU16 header
    let (destinationIp, header) ← getFixedSizeIp header
    let (destinationPort, header) ← getU16 header
    let (applen, _) ← getU8 header
    let appNameLength := applen.toNat
    let state :=
      if d.totalLength > maxUdpInPayloadSize - appNameLength then
        RecvState.dropping (d.totalLength - udppktInFixedHeaderNoLengthSize)
      else if d.totalLength ≥ udppktInFixedHeaderNoLengthSize + appNameLength then
        .appName appNameLength
      else .dropping (d.totalLength - udppktInFixedHeaderNoLengthSize)
    pure ({ d with
      source := some (.new sourceIp sourcePort),
      destination := some (.new destinationIp destinationPort),
      state := state }, tail)

def processClientAppName (d : Decoder) (length : Nat) (data : Bytes) :
    Option (Decoder × Bytes) := do
  match ← d.bufferedRead data length with
  | (d, none) => pure (d, [])
  | (d, some (name, tail)) =>
    let payloadLength := d.totalLength - udppktInFixedHeaderNoLengthSize - length
    match fromUtf8 name with
    | some name => pure ({ d with appName := some name, state := .payload payloadLength }, tail)
    | none => pure ({ d with state := .dropping payloadLength }, tail)

/-- The end of `process_client_payload`, once the payload is complete. -/
def emit (d : Decoder) (toSend : Bytes) : Option (Decoder × Downstream.UdpDatagram) := do
  let source ← d.source
  let destination ← d.destination
  pure ({ d with state := .length, appName := none },
    { flow := { source := source, destination := destination, appName := d.appName },
      payload := toSend })

def processClientPayload (d : Decoder) (length : Nat) (data : Bytes) :
    Option (Decoder × Option Downstream.UdpDatagram × Bytes) :=
  if d.buffer = [] ∧ data.length ≥ length then do
    let (d, datagram) ← d.emit (data.take length)
    pure (d, some datagram, data.drop length)
  else if length < d.buffer.length then none
  else
    let toDrain := min data.length (length - d.buffer.length)
    let buffer := d.buffer ++ data.take toDrain
    let data := data.drop toDrain
    if buffer.length < length then some ({ d with buffer := buffer }, none, data)
    else do
      let (d, datagram) ← { d with buffer := [] }.emit buffer
      pure (d, some datagram, data)

/-- One turn of `decode_chunk`; the last state returns what is to be dropped and loses the rest. -/
def decodeChunkOnce (d : Decoder) (data : Bytes) :
    Option (Decoder × Option Downstream.UdpDatagram × Bytes) :=
  match d.state with
  | .length => (d.processClientLength data).map (fun (d, tail) => (d, none, tail))
  | .fixedHeader => (d.processClientFixedHeader data).map (fun (d, tail) => (d, none, tail))
  | .appName length => (d.processClientAppName length data).map (fun (d, tail) => (d, none, tail))
  | .payload length => d.processClientPayload length data
  | .dropping remainingLength =>
    let toDrop := min remainingLength data.length
    let state :=
      if remainingLength ≤ toDrop then RecvState.length
      else .dropping (remainingLength - toDrop)
    some ({ d with state := state }, none, data.take toDrop)

/-! ## What a turn reads

A half-read field is in the buffer, so a turn acts on the buffer and the chunk
as if they had come together. -/

section

variable {d : Decoder} {input field tail data : Bytes} {cap r : Nat}

lemma bufferedRead_short (h : (d.buffer ++ input).length < cap) :
    d.bufferedRead input cap = some ({ d with buffer := d.buffer ++ input }, none) := by
  rw [length_append] at h
  have hm : min input.length (cap - d.buffer.length) = input.length := by omega
  have hc : d.buffer.length < cap ∨ cap = 0 := by omega
  have ho : ¬ cap < d.buffer.length := by omega
  simp [bufferedRead, hc, ho, hm, h]

lemma bufferedRead_full (hbu : d.buffer.length < cap ∨ cap = 0 ∧ d.buffer = [])
    (hf : field.length = cap) (h : d.buffer ++ input = field ++ tail) :
    d.bufferedRead input cap = some ({ d with buffer := [] }, some (field, tail)) := by
  have hlen : d.buffer.length + input.length = cap + tail.length := by
    rw [← length_append, h, length_append, hf]
  have hle : d.buffer.length ≤ cap := by
    rcases hbu with hlt | ⟨-, hb⟩
    · omega
    · simp [hb]
  have hm : min input.length (cap - d.buffer.length) = cap - d.buffer.length := by omega
  have hc : d.buffer.length < cap ∨ cap = 0 := by
    rcases hbu with hlt | ⟨h0, -⟩
    · exact .inl hlt
    · exact .inr h0
  have ht : d.buffer ++ input.take (cap - d.buffer.length) = field := by
    have := congrArg (take cap) h
    rwa [take_append, take_of_length_le hle, take_left' hf] at this
  have hd : input.drop (cap - d.buffer.length) = tail := by
    have := congrArg (drop cap) h
    rwa [drop_append, drop_of_length_le hle, nil_append, drop_left' hf] at this
  simp [bufferedRead, hc, Nat.not_lt.mpr hle, hm, ht, hd, hf]

lemma bufferedRead_tail (hin : input ≠ [])
    (h : d.bufferedRead input cap = some (d', some (field, tail))) :
    tail.length < input.length ∨ cap = 0 ∧ field = [] ∧ tail = input := by
  have hpos : 0 < input.length := length_pos_iff.mpr hin
  obtain ⟨hc, h⟩ := ite_none_right_eq_some.mp h
  split at h
  · cases h
  · simp only at h
    split at h
    · split at h <;> cases h
    · cases h
      rcases hc with hc | hc
      · refine .inl ?_
        rw [length_drop]
        omega
      · have hb : d.buffer = [] := length_eq_zero_iff.mp (by omega)
        simp [hc, hb]

lemma dropping_turn_short (hs : d.state = .dropping r) (h : data.length < r) :
    d.decodeChunkOnce data = some ({ d with state := .dropping (r - data.length) }, none,
      data) := by
  have hm : min r data.length = data.length := by omega
  simp [decodeChunkOnce, hs, hm, Nat.not_le.mpr h]

lemma dropping_turn_full (hs : d.state = .dropping r) (h : r ≤ data.length) :
    d.decodeChunkOnce data = some ({ d with state := .length }, none, data.take r) := by
  have hm : min r data.length = r := by omega
  simp [decodeChunkOnce, hs, hm]

end

end Decoder

/-! ## The loop -/

lemma fromUtf8_nil : fromUtf8 [] = some "" := by decide +kernel

def RecvState.weight : RecvState → Nat
  | .appName _ => 1
  | .dropping remainingLength => remainingLength + 1
  | _ => 0

namespace Decoder

section

variable {d d' : Decoder} {data tail : Bytes} {length : Nat}

def Decreases (d d' : Decoder) (data tail : Bytes) : Prop :=
  tail.length < data.length ∨ tail.length = data.length ∧ d'.state.weight < d.state.weight

lemma processClientLength_decreases (hd : data ≠ [])
    (h : d.processClientLength data = some (d', tail)) : tail.length < data.length := by
  have hp : 0 < data.length := length_pos_iff.mpr hd
  simp only [processClientLength, bind_eq_bind, bind_eq_some_iff] at h
  obtain ⟨⟨d1, r⟩, hr, h⟩ := h
  cases r with
  | none =>
    cases h
    exact hp
  | some x =>
    obtain ⟨field, rest⟩ := x
    have ht := bufferedRead_tail hd hr
    simp only [bind_eq_some_iff] at h
    obtain ⟨⟨len, rest'⟩, -, h⟩ := h
    cases h
    exact ht.resolve_right (by simp)

lemma processClientFixedHeader_decreases (hd : data ≠ [])
    (h : d.processClientFixedHeader data = some (d', tail)) : tail.length < data.length := by
  have hp : 0 < data.length := length_pos_iff.mpr hd
  simp only [processClientFixedHeader, bind_eq_bind, bind_eq_some_iff] at h
  obtain ⟨⟨d1, r⟩, hr, h⟩ := h
  cases r with
  | none =>
    cases h
    exact hp
  | some x =>
    obtain ⟨field, rest⟩ := x
    have ht := bufferedRead_tail hd hr
    simp only [bind_eq_some_iff] at h
    obtain ⟨_, -, _, -, _, -, _, -, _, -, h⟩ := h
    cases h
    exact ht.resolve_right (by simp)

lemma processClientAppName_decreases (hd : data ≠ []) (hs : d.state = .appName length)
    (h : d.processClientAppName length data = some (d', tail)) : Decreases d d' data tail := by
  have hp : 0 < data.length := length_pos_iff.mpr hd
  simp only [processClientAppName, bind_eq_bind, bind_eq_some_iff] at h
  obtain ⟨⟨d1, r⟩, hr, h⟩ := h
  cases r with
  | none =>
    cases h
    exact .inl hp
  | some x =>
    obtain ⟨field, rest⟩ := x
    rcases bufferedRead_tail hd hr with hlt | ⟨rfl, rfl, rfl⟩
    · left
      simp only at h
      split at h <;> cases h <;> exact hlt
    · right
      simp only [fromUtf8_nil] at h
      cases h
      simp [hs, RecvState.weight]

lemma processClientPayload_decreases (hd : data ≠ [])
    (h : d.processClientPayload length data = some (d', none, tail)) :
    tail.length < data.length := by
  have hpos : 0 < data.length := length_pos_iff.mpr hd
  unfold processClientPayload at h
  split at h
  · simp [bind_eq_some_iff] at h
  · obtain ⟨-, h⟩ := ite_none_left_eq_some.mp h
    simp only at h
    split at h
    · rename_i hs
      cases h
      rw [length_append, length_take] at hs
      rw [length_drop]
      omega
    · simp [bind_eq_some_iff] at h

lemma decodeChunkOnce_decreases (hd : data ≠ [])
    (h : d.decodeChunkOnce data = some (d', none, tail)) : Decreases d d' data tail := by
  have hpos : 0 < data.length := length_pos_iff.mpr hd
  unfold decodeChunkOnce at h
  cases hs : d.state with
  | length =>
    simp only [hs, map_eq_some_iff, Prod.mk.injEq, true_and, Prod.exists] at h
    obtain ⟨d1, tail1, h, rfl, rfl⟩ := h
    exact .inl (processClientLength_decreases hd h)
  | fixedHeader =>
    simp only [hs, map_eq_some_iff, Prod.mk.injEq, true_and, Prod.exists] at h
    obtain ⟨d1, tail1, h, rfl, rfl⟩ := h
    exact .inl (processClientFixedHeader_decreases hd h)
  | appName =>
    simp only [hs, map_eq_some_iff, Prod.mk.injEq, true_and, Prod.exists] at h
    obtain ⟨d1, tail1, h, rfl, rfl⟩ := h
    exact processClientAppName_decreases hd hs h
  | payload =>
    simp only [hs] at h
    exact .inl (processClientPayload_decreases hd h)
  | dropping n =>
    simp only [hs, some.injEq, Prod.mk.injEq, true_and] at h
    obtain ⟨rfl, rfl⟩ := h
    simp only [Decreases, length_take, hs]
    by_cases hn : n ≤ min n data.length
    · simp only [hn, if_true, RecvState.weight]
      omega
    · simp only [hn, if_false, RecvState.weight]
      omega

lemma Decreases.lex (h : Decreases d d' data tail) : Prod.Lex (· < ·) (· < ·)
    (tail.length, d'.state.weight) (data.length, d.state.weight) := by
  rcases h with hlt | ⟨heq, hlt⟩
  · exact Prod.Lex.left _ _ hlt
  · rw [heq]
    exact Prod.Lex.right _ hlt

def decodeChunk (d : Decoder) (data : Bytes) :
    Option (Decoder × DecodeResult Downstream.UdpDatagram) :=
  if _hdata : data = [] then some (d, .wantMore)
  else
    match _h : d.decodeChunkOnce data with
    | none => none
    | some (d', some datagram, tail) => some (d', .complete datagram tail)
    | some (d', none, tail) => decodeChunk d' tail
termination_by (data.length, d.state.weight)
decreasing_by exact (decodeChunkOnce_decreases _hdata _h).lex

@[simp] lemma decodeChunk_nil (d : Decoder) : d.decodeChunk [] = some (d, .wantMore) := by
  rw [decodeChunk, dif_pos rfl]

lemma decodeChunk_of_turn (hd : data ≠ []) (h : d.decodeChunkOnce data = some (d', none, tail)) :
    d.decodeChunk data = d'.decodeChunk tail := by
  rw [decodeChunk, dif_neg hd]
  split <;> simp_all

lemma decodeChunk_of_emit (hd : data ≠ [])
    (h : d.decodeChunkOnce data = some (d', some datagram, tail)) :
    d.decodeChunk data = some (d', .complete datagram tail) := by
  rw [decodeChunk, dif_neg hd]
  split <;> simp_all

end

end Decoder

/-! ## Reading datagrams from a stream -/

section Read

variable {σ δ : Type} (decodeChunk : σ → Bytes → Option (σ × DecodeResult δ))

/-- `DatagramDecoder::read`, given the kept tail and the chunks of the source. -/
def read (s : σ) : List Bytes → Option (σ × List Bytes × Except IoError δ)
  | [] => some (s, [], .error (.ofKind .unexpectedEof))
  | chunk :: rest =>
    match decodeChunk s chunk with
    | none => none
    | some (s', .wantMore) => read s' rest
    | some (s', .complete datagram tail) =>
      some (s', if tail = [] then rest else tail :: rest, .ok datagram)

/-- Calling `read` until the stream ends gives these datagrams, in order. -/
inductive Delivers : σ → List Bytes → List δ → Prop
  | eof {s s' chunks} (h : read decodeChunk s chunks = some (s', [], .error (.ofKind .unexpectedEof))) :
    Delivers s chunks []
  | datagram {s s' chunks chunks' d ds}
    (h : read decodeChunk s chunks = some (s', chunks', .ok d)) (hrest : Delivers s' chunks' ds) :
    Delivers s chunks (d :: ds)

variable {decodeChunk}

section

variable {s s' : σ} {ds : List δ} {chunk : Bytes} {rest : List Bytes}

lemma Delivers.unique (h : Delivers decodeChunk s chunks ds)
    (h' : Delivers decodeChunk s chunks ds') : ds = ds' := by
  induction h generalizing ds' with
  | eof h =>
    cases h' with
    | eof => rfl
    | datagram h1 => simp [h] at h1
  | datagram h _ ih =>
    cases h' with
    | eof h1 => simp [h] at h1
    | datagram h1 hrest1 =>
      rw [h] at h1
      cases h1
      rw [ih hrest1]

lemma Delivers.of_wantMore (hc : decodeChunk s chunk = some (s', .wantMore)) :
    Delivers decodeChunk s (chunk :: rest) ds ↔ Delivers decodeChunk s' rest ds := by
  have hr : read decodeChunk s (chunk :: rest) = read decodeChunk s' rest := by
    simp [read, hc]
  constructor
  · intro h
    cases h with
    | eof h => exact .eof (hr ▸ h)
    | datagram h hre => exact .datagram (hr ▸ h) hre
  · intro h
    cases h with
    | eof h => exact .eof (hr.trans h)
    | datagram h hre => exact .datagram (hr.trans h) hre

lemma Delivers.of_complete {tail : Bytes} {d : δ}
    (hc : decodeChunk s chunk = some (s', .complete d tail))
    (hr : Delivers decodeChunk s' (if tail = [] then rest else tail :: rest) ds) :
    Delivers decodeChunk s (chunk :: rest) (d :: ds) :=
  .datagram (by simp only [read, hc]) hr

end

end Read

end TrustTunnel.HttpUdpCodec
