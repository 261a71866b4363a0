import TrustTunnel.IcmpForwarder

/-!
# The stream of ICMP requests (`http_icmp_codec.rs`)

Echo requests in records of 23 bytes, read whole or put together in the buffer. `none` is a failed
assertion; `random` gives the data, of which `filled` were taken.
-/

namespace TrustTunnel.HttpIcmpCodec

open Io NetUtils List
open HttpUdpCodec (DecodeResult getU8 getU16 read)
open IcmpForwarder (IcmpDatagram decoded)

def icmppktReqSize : Nat := 2 + 16 + 2 + 1 + 2

/-- `SystemRandom`: as many bytes as are asked for. -/
structure Random where
  fill : Nat → Nat → Bytes
  length_fill : ∀ k n, (fill k n).length = n

structure Decoder where
  buffer : Bytes
  filled : Nat

namespace Decoder

def new : Decoder := ⟨[], 0⟩

def onMessageChunk (d : Decoder) (chunk : Bytes) : Option (Decoder × Option (Bytes × Bytes)) :=
  if d.buffer ≠ [] ∨ d.buffer.length + chunk.length < icmppktReqSize then
    let n := min chunk.length (icmppktReqSize - d.buffer.length)
    let buffer := d.buffer ++ chunk.take n
    let chunk := chunk.drop n
    if icmppktReqSize < buffer.length then none
    else if buffer.length < icmppktReqSize then
      if chunk = [] then some ({ d with buffer := buffer }, none) else none
    else some ({ d with buffer := [] }, some (buffer, chunk))
  else some (d, some (chunk.take icmppktReqSize, chunk.drop icmppktReqSize))

def decodeRecord (random : Random) (d : Decoder) (raw : Bytes) : Option (Decoder × IcmpDatagram) := do
  let (identifier, raw) ← getU16 raw
  let (destination, raw) ← getFixedSizeIp raw
  let (sequenceNumber, raw) ← getU16 raw
  let (ttl, raw) ← getU8 raw
  let (dataSize, _) ← getU16 raw
  let data := random.fill d.filled dataSize.toNat
  some ({ d with filled := d.filled + 1 }, decoded identifier destination sequenceNumber ttl data)

def decodeChunk (random : Random) (d : Decoder) (data : Bytes) :
    Option (Decoder × DecodeResult IcmpDatagram) := do
  match ← d.onMessageChunk data with
  | (d, none) => some (d, .wantMore)
  | (d, some (raw, tail)) =>
    let (d, datagram) ← d.decodeRecord random raw
    some (d, .complete datagram tail)

variable {d : Decoder} {chunk : Bytes}

lemma onMessageChunk_of_short (h : (d.buffer ++ chunk).length < icmppktReqSize) :
    d.onMessageChunk chunk = some ({ d with buffer := d.buffer ++ chunk }, none) := by
  rw [length_append] at h
  have hm : min chunk.length (icmppktReqSize - d.buffer.length) = chunk.length := by omega
  have hl : (d.buffer ++ chunk).length < icmppktReqSize := by rwa [length_append]
  simp only [onMessageChunk, if_pos (Or.inr h), hm, take_length, drop_length, if_pos hl,
    if_neg (Nat.lt_asymm hl), if_true]

lemma onMessageChunk_of_full (hd : d.buffer.length < icmppktReqSize)
    (h : icmppktReqSize ≤ (d.buffer ++ chunk).length) :
    d.onMessageChunk chunk = some ({ d with buffer := [] },
      some ((d.buffer ++ chunk).take icmppktReqSize, (d.buffer ++ chunk).drop icmppktReqSize)) := by
  rw [length_append] at h
  unfold onMessageChunk
  split
  · have hm : min chunk.length (icmppktReqSize - d.buffer.length) =
      icmppktReqSize - d.buffer.length := by
      omega
    have hl : (d.buffer ++ chunk.take (icmppktReqSize - d.buffer.length)).length =
      icmppktReqSize := by
      rw [length_append, length_take]
      omega
    simp only [hm, hl, if_neg (Nat.lt_irrefl _)]
    rw [take_append, drop_append, take_of_length_le hd.le, drop_of_length_le hd.le]
    rfl
  · rename_i hdi
    obtain ⟨hb, -⟩ := not_or.mp hdi
    obtain ⟨buffer, filled⟩ := d
    obtain rfl : buffer = [] := not_not.mp hb
    rfl

end Decoder

/-! ## Records -/

def recordsOf (stream : Bytes) : List Bytes × Bytes :=
  if _h : icmppktReqSize ≤ stream.length then
    let (records, rest) := recordsOf (stream.drop icmppktReqSize)
    (stream.take icmppktReqSize :: records, rest)
  else ([], stream)
termination_by stream.length
decreasing_by
  rw [length_drop]
  simp only [icmppktReqSize] at *
  omega

lemma recordsOf_short (h : stream.length < icmppktReqSize) : recordsOf stream = ([], stream) := by
  rw [recordsOf, dif_neg (Nat.not_le.mpr h)]

lemma recordsOf_full (h : icmppktReqSize ≤ stream.length) :
    recordsOf stream = (stream.take icmppktReqSize :: (recordsOf (stream.drop icmppktReqSize)).1,
      (recordsOf (stream.drop icmppktReqSize)).2) := by
  rw [recordsOf, dif_pos h]

/-- Its identifier, sequence number and TTL, data of the size it asks for, and the version of
its destination. -/
def RequestOf (raw : Bytes) (request : IcmpDatagram) : Prop :=
  ∃ data, getFixedSizeIp (raw.drop 2) = some (request.peer, raw.drop 18) ∧
    data.length = (beU16 (raw.getD 21 0) (raw.getD 22 0)).toNat ∧ request.ttl = raw.getD 20 0 ∧
    request.message.toEcho =
      some ⟨0, beU16 (raw.getD 0 0) (raw.getD 1 0), beU16 (raw.getD 18 0) (raw.getD 19 0), data⟩ ∧
    ((∃ echo, request.message = .v4 (.echo echo)) ↔ request.peer.isIpv6 = false) ∧
    ((∃ echo, request.message = .v6 (.echoRequest echo)) ↔ request.peer.isIpv6 = true)

lemma exists_fields {raw : Bytes} (h : raw.length = icmppktReqSize) : ∃ r0 r1 ip s0 s1 ttl n0 n1,
    raw = r0 :: r1 :: (ip ++ [s0, s1, ttl, n0, n1]) ∧ ip.length = 16 := by
  match raw, h with
  | r0 :: r1 :: tail, h =>
    have hl : tail.length = 21 := by
      simp only [icmppktReqSize, length_cons] at h
      omega
    have hf : (tail.drop 16).length = 5 := by rw [length_drop, hl]
    match hd : tail.drop 16, hf with
    | [s0, s1, ttl, n0, n1], _ =>
      refine ⟨r0, r1, tail.take 16, s0, s1, ttl, n0, n1, ?_, by rw [length_take, hl]; rfl⟩
      rw [← hd, take_append_drop]

lemma decodeRecord_eq (random : Random) (d : Decoder) (h : raw.length = icmppktReqSize) :
    ∃ request, d.decodeRecord random raw = some ({ d with filled := d.filled + 1 }, request) ∧
      RequestOf raw request := by
  obtain ⟨r0, r1, ip, s0, s1, ttl, n0, n1, rfl, hip⟩ := exists_fields h
  obtain ⟨destination, hd⟩ := getFixedSizeIp_append hip
  have hg (k : Nat) : (r0 :: r1 :: (ip ++ [s0, s1, ttl, n0, n1])).getD (18 + k) 0 =
      [s0, s1, ttl, n0, n1].getD k 0 := by
    rw [show 18 + k = (16 + k) + 1 + 1 by omega, getD_cons_succ, getD_cons_succ,
      getD_eq_getElem?_getD, getElem?_append_right (by omega), hip, Nat.add_sub_cancel_left,
      getD_eq_getElem?_getD]
  refine ⟨decoded (beU16 r0 r1) destination (beU16 s0 s1) ttl
    (random.fill d.filled (beU16 n0 n1).toNat), ?_,
    random.fill d.filled (beU16 n0 n1).toNat, ?_, ?_, ?_, ?_, ?_⟩
  · simp [Decoder.decodeRecord, getU16, hd, getU8]
  · have hdr : (r0 :: r1 :: (ip ++ [s0, s1, ttl, n0, n1])).drop 18 = [s0, s1, ttl, n0, n1] :=
      drop_left' hip
    rw [hdr]
    exact hd _
  · rw [random.length_fill]
    exact congrArg₂ (fun a b => (beU16 a b).toNat) (hg 3).symm (hg 4).symm
  · exact (hg 2).symm
  · have he : beU16 s0 s1 = beU16 ((r0 :: r1 :: (ip ++ [s0, s1, ttl, n0, n1])).getD 18 0)
        ((r0 :: r1 :: (ip ++ [s0, s1, ttl, n0, n1])).getD 19 0) :=
      congrArg₂ beU16 (hg 0).symm (hg 1).symm
    rw [← he]
    cases destination <;> rfl
  · cases destination with
    | v4 => exact ⟨iff_of_true ⟨_, rfl⟩ rfl,
      iff_of_false (by rintro ⟨_, ⟨⟩⟩) Bool.false_ne_true⟩
    | v6 => exact ⟨iff_of_false (by rintro ⟨_, ⟨⟩⟩) (Bool.false_ne_true ·.symm),
      iff_of_true ⟨_, rfl⟩ rfl⟩

/-! ## Streams -/

section

variable {σ δ : Type} {decodeChunk : σ → Bytes → Option (σ × DecodeResult δ)} {s s' t : σ} {ds : List δ}
  {chunk : Bytes} {rest : List Bytes}

/-- Calling `read` to the end gives these datagrams and leaves this decoder. -/
inductive Drains (decodeChunk : σ → Bytes → Option (σ × DecodeResult δ)) : σ → List Bytes → List δ → σ → Prop
  | eof {s s' : σ} {chunks : List Bytes} :
      read decodeChunk s chunks = some (s', [], .error (.ofKind .unexpectedEof)) →
      Drains decodeChunk s chunks [] s'
  | datagram {s s' t : σ} {chunks chunks' : List Bytes} {d : δ} {ds : List δ} :
      read decodeChunk s chunks = some (s', chunks', .ok d) → Drains decodeChunk s' chunks' ds t →
      Drains decodeChunk s chunks (d :: ds) t

lemma drains_of_wantMore (h : decodeChunk s chunk = some (s', .wantMore))
    (hr : Drains decodeChunk s' rest ds t) : Drains decodeChunk s (chunk :: rest) ds t := by
  have hre : read decodeChunk s (chunk :: rest) = read decodeChunk s' rest := by
    simp [HttpUdpCodec.read, h]
  cases hr with
  | eof hr => exact .eof (hre.trans hr)
  | datagram hf hr => exact .datagram (hre.trans hf) hr

end

lemma decodeChunk_of_short (random : Random) {d : Decoder} {chunk : Bytes}
    (h : (d.buffer ++ chunk).length < icmppktReqSize) :
    d.decodeChunk random chunk = some ({ d with buffer := d.buffer ++ chunk }, .wantMore) := by
  rw [Decoder.decodeChunk, Decoder.onMessageChunk_of_short h]
  rfl

lemma decodeChunk_of_full (random : Random) {d : Decoder} {chunk : Bytes}
    (hd : d.buffer.length < icmppktReqSize) (h : icmppktReqSize ≤ (d.buffer ++ chunk).length) :
    ∃ request, d.decodeChunk random chunk = some (⟨[], d.filled + 1⟩,
        .complete request ((d.buffer ++ chunk).drop icmppktReqSize)) ∧
      RequestOf ((d.buffer ++ chunk).take icmppktReqSize) request := by
  obtain ⟨request, hr, hof⟩ := decodeRecord_eq random { d with buffer := [] } (length_take_of_le h)
  refine ⟨request, ?_, hof⟩
  rw [Decoder.decodeChunk, Decoder.onMessageChunk_of_full hd h]
  exact congrArg (· >>= fun x => some (x.1, DecodeResult.complete x.2 _)) hr

/-- **The framing of requests**: one for each complete record, in order, however the stream is
cut. -/
theorem requests_of_records (random : Random) (d : Decoder) (hd : d.buffer.length < icmppktReqSize)
    (chunks : List Bytes) (hne : ∀ chunk ∈ chunks, chunk ≠ []) :
    ∃ requests t, Drains (Decoder.decodeChunk random) d chunks requests t ∧
      List.Forall₂ RequestOf (recordsOf (d.buffer ++ chunks.flatten)).1 requests ∧
      t.buffer = (recordsOf (d.buffer ++ chunks.flatten)).2 ∧ t.buffer.length < icmppktReqSize := by
  -- a chunk that is read leaves less of the stream, also when its tail is given back
  induction hn : chunks.flatten.length using Nat.strong_induction_on generalizing d chunks with
  | _ n ih =>
    subst hn
    cases chunks with
    | nil =>
      refine ⟨[], d, .eof rfl, ?_⟩
      rw [flatten_nil, append_nil, recordsOf_short hd]
      exact ⟨.nil, rfl, hd⟩
    | cons chunk rest =>
      obtain ⟨hc, hres⟩ := forall_mem_cons.mp hne
      have hpos := length_pos_iff.mpr hc
      rw [flatten_cons, ← append_assoc]
      by_cases hs : (d.buffer ++ chunk).length < icmppktReqSize
      · obtain ⟨requests, t, hdr, hr⟩ := ih rest.flatten.length
          (by rw [flatten_cons, length_append]; omega) { d with buffer := d.buffer ++ chunk } hs
          rest hres rfl
        exact ⟨requests, t, drains_of_wantMore (decodeChunk_of_short random hs) hdr, hr⟩
      · have hf := Nat.not_lt.mp hs
        obtain ⟨request, hde, hof⟩ := decodeChunk_of_full random hd hf
        generalize hta : (d.buffer ++ chunk).drop icmppktReqSize = tail at hde
        have hlen : tail.length < chunk.length := by
          rw [← hta, length_drop, length_append] at *
          omega
        have hfl : (if tail = [] then rest else tail :: rest).flatten = tail ++ rest.flatten := by
          split
          · rename_i hni
            rw [hni, nil_append]
          · rfl
        have hm : ∀ c ∈ (if tail = [] then rest else tail :: rest), c ≠ [] := by
          split
          · exact hres
          · exact forall_mem_cons.mpr ⟨‹_›, hres⟩
        obtain ⟨requests, t, hdr, hr, ht⟩ := ih (tail ++ rest.flatten).length
          (by rw [flatten_cons, length_append, length_append]; omega)
          ⟨[], d.filled + 1⟩ (Nat.zero_lt_succ _) _ hm (congrArg length hfl)
        have hre : recordsOf (d.buffer ++ chunk ++ rest.flatten) =
            ((d.buffer ++ chunk).take icmppktReqSize :: (recordsOf (tail ++ rest.flatten)).1,
              (recordsOf (tail ++ rest.flatten)).2) := by
          rw [recordsOf_full (by rw [length_append]; omega), take_append_of_le_length hf,
            drop_append_of_le_length hf, hta]
        rw [hfl] at hr ht
        rw [hre]
        refine ⟨request :: requests, t, .datagram ?_ hdr, .cons hof hr, ht⟩
        simp only [HttpUdpCodec.read, hde]

def zeros : Random := ⟨fun _ n => replicate n 0, fun _ _ => length_replicate⟩

def sampleRecord : Bytes :=
  [0, 7] ++ (replicate 12 0 ++ [8, 8, 8, 8]) ++ [0, 1, 64, 0, 2]

/-- A record cut in the middle, and the beginning of another. -/
theorem requests_of_sampleRecord : ∃ requests t,
    Drains (Decoder.decodeChunk zeros) .new [sampleRecord.take 10,
      sampleRecord.drop 10 ++ [0, 8]] requests t ∧
      t.buffer = [0, 8] := by
  obtain ⟨requests, t, hd, -, ht, -⟩ := requests_of_records zeros .new (by decide)
    [sampleRecord.take 10, sampleRecord.drop 10 ++ [0, 8]] (by decide)
  refine ⟨requests, t, hd, ht.trans ?_⟩
  rw [recordsOf_full (by decide), recordsOf_short (by decide)]
  decide

end TrustTunnel.HttpIcmpCodec
