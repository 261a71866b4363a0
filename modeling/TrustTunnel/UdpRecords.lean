import TrustTunnel.HttpUdpCodec
import TrustTunnel.Lib.Http1
import TrustTunnel.Lib.Segments

/-!
# Records of a UDP stream

`encode` is the bytes of a `Record`, `datagram` what is made of it, and `Awaits` what a decoder in
the middle still needs.
-/

namespace TrustTunnel.HttpUdpCodec

open Io NetUtils Decoder List Option
open Lib.Http1 (utf8)
open Lib.Segments (eq_nil_of_flatten)

/-! ## Well-formed records -/

def putU32 (n : Nat) : Bytes :=
  [.ofNat (n / 2 ^ 24), .ofNat (n / 2 ^ 16), .ofNat (n / 2 ^ 8), .ofNat n]

def putU16 (n : UInt16) : Bytes := [(n >>> 8).toUInt8, n.toUInt8]

lemma getU32_putU32 (h : n < 2 ^ 32) : getU32 (putU32 n) = some (n, []) := by
  simp only [getU32, putU32, beU32, UInt8.toNat_ofNat', some.injEq, Prod.mk.injEq, and_true]
  omega

lemma beU16_putU16 (n : UInt16) : beU16 (n >>> 8).toUInt8 n.toUInt8 = n := by
  have hn := n.toNat_lt
  apply UInt16.toNat_inj.mp
  simp only [beU16, UInt16.toNat_or, UInt16.toNat_shiftLeft, UInt8.toNat_toUInt16,
    UInt16.toNat_toUInt8, UInt16.toNat_shiftRight]
  have h8 : (8 : UInt16).toNat % 16 = 8 := rfl
  rw [h8, Nat.shiftRight_eq_div_pow, Nat.shiftLeft_eq]
  have hhi : n.toNat / 2 ^ 8 % 2 ^ 8 * 2 ^ 8 % 2 ^ 16 = (n.toNat / 2 ^ 8) <<< 8 := by
    rw [Nat.shiftLeft_eq]
    omega
  rw [hhi, ← Nat.shiftLeft_add_eq_or_of_lt (by omega), Nat.shiftLeft_eq]
  omega

lemma getU16_putU16 (n : UInt16) (rest : Bytes) : getU16 (putU16 n ++ rest) = some (n, rest) := by
  simp [getU16, putU16, beU16_putU16]

lemma fromUtf8_utf8 (s : String) : fromUtf8 (utf8 s) = some s := Lib.Http1.fromUTF8_utf8 s

/-- A record as a client writes it. -/
structure Record where
  sourceIp : Bytes
  sourcePort : UInt16
  destinationIp : Bytes
  destinationPort : UInt16
  appName : String
  payload : Bytes
  sourceIp_length : sourceIp.length = 16
  destinationIp_length : destinationIp.length = 16
  appName_length : (utf8 appName).length ≤ 255
  length_le : 37 + (utf8 appName).length + payload.length ≤
    maxUdpInPayloadSize - (utf8 appName).length

lemma getFixedSizeIp_isSome (h : ip.length = 16) : (getFixedSizeIp ip).isSome := by
  obtain ⟨a, ha⟩ := getFixedSizeIp_append h
  have hn := ha []
  rw [append_nil] at hn
  simp [hn]

namespace Record

variable (r : Record)

def nameLength : Nat := (utf8 r.appName).length

/-- The `Length` field. -/
def length : Nat := 37 + r.nameLength + r.payload.length

/-- The fixed header, without the `Length` field. -/
def header : Bytes :=
  r.sourceIp ++ (putU16 r.sourcePort ++ (r.destinationIp ++ (putU16 r.destinationPort ++
    [.ofNat r.nameLength])))

def encode : Bytes := putU32 r.length ++ (r.header ++ (utf8 r.appName ++ r.payload))

def source : SocketAddr :=
  .new ((getFixedSizeIp r.sourceIp).get (getFixedSizeIp_isSome r.sourceIp_length)).1 r.sourcePort

def destination : SocketAddr :=
  .new ((getFixedSizeIp r.destinationIp).get (getFixedSizeIp_isSome r.destinationIp_length)).1
    r.destinationPort

def datagram : Downstream.UdpDatagram :=
  { flow := { source := r.source, destination := r.destination, appName := some r.appName },
    payload := r.payload }

lemma header_length : r.header.length = 37 := by
  simp [header, putU16, r.sourceIp_length, r.destinationIp_length]

lemma getFixedSizeIp_append_eq (h : ip.length = 16) (rest : Bytes) : getFixedSizeIp (ip ++ rest) =
      some (((getFixedSizeIp ip).get (getFixedSizeIp_isSome h)).1, rest) := by
  obtain ⟨a, ha⟩ := getFixedSizeIp_append h
  have hn := ha []
  rw [append_nil] at hn
  simp [ha rest, hn]

lemma length_lt : r.length < 2 ^ 32 := by
  have h := r.length_le
  simp only [maxUdpInPayloadSize_eq] at h
  simp only [length, nameLength]
  omega

end Record

/-! ## Turns -/

/-- The bytes of the field at hand. -/
def RecvState.size : RecvState → Nat
  | .length => 4
  | .fixedHeader => 37
  | .appName n | .payload n => n
  | .dropping _ => 0

/-- Shorter than the field, or empty if the field is. -/
def Decoder.Pending (d : Decoder) (cap : Nat) : Prop :=
  d.buffer.length < cap ∨ cap = 0 ∧ d.buffer = []

def headerState (totalLength : Nat) (n : UInt8) : RecvState :=
  if totalLength > maxUdpInPayloadSize - n.toNat then .dropping (totalLength - 37)
  else if totalLength ≥ 37 + n.toNat then .appName n.toNat
  else .dropping (totalLength - 37)

lemma exists_putU32 (h : field.length = 4) : ∃ n, n < 2 ^ 32 ∧ field = putU32 n := by
  obtain ⟨a, b, c, e, rfl⟩ := length_eq_four.mp h
  have ha := a.toNat_lt
  have hb := b.toNat_lt
  have hc := c.toNat_lt
  have he := e.toNat_lt
  refine ⟨beU32 a b c e, by simp only [beU32]; omega, ?_⟩
  simp only [putU32, beU32, cons.injEq, and_true, ← UInt8.toNat_inj, UInt8.toNat_ofNat']
  omega

lemma getU16_append (h : p.length = 2) : ∃ n, ∀ rest, getU16 (p ++ rest) = some (n, rest) := by
  match p, h with
  | [hi, lo], _ => exact ⟨beU16 hi lo, fun rest => rfl⟩

section

variable {d : Decoder} {data field header x : Bytes} {n : Nat}

lemma turn_short (h : (d.buffer ++ data).length < d.state.size) :
    d.decodeChunkOnce data = some ({ d with buffer := d.buffer ++ data }, none, []) := by
  cases hs : d.state <;> simp only [hs, RecvState.size] at h
  case length =>
    simp only [decodeChunkOnce, hs, processClientLength, udppktLengthSize_eq, bufferedRead_short h]
    rfl
  case fixedHeader =>
    simp only [decodeChunkOnce, hs, processClientFixedHeader, udppktInFixedHeaderNoLengthSize_eq,
      bufferedRead_short h]
    rfl
  case appName =>
    simp only [decodeChunkOnce, hs, processClientAppName, bufferedRead_short h]
    rfl
  case payload n =>
    have hl := h
    rw [length_append] at hl
    have hf : ¬ (d.buffer = [] ∧ data.length ≥ n) := by omega
    have hle : ¬ n < d.buffer.length := by omega
    have hm : min data.length (n - d.buffer.length) = data.length := by omega
    simp only [decodeChunkOnce, hs, processClientPayload, hf, hle, hm,
      take_length, drop_length, h, if_false, if_true]
  case dropping => exact absurd h (Nat.not_lt_zero _)

lemma length_turn (hs : d.state = .length) (hb : d.buffer.length < 4) (hn : n < 2 ^ 32)
    (h : d.buffer ++ data = putU32 n ++ x) : d.decodeChunkOnce data = some ({ d with
      buffer := [], totalLength := n, state := if n ≥ 37 then .fixedHeader else .dropping n }, none,
        x) := by
  simp only [decodeChunkOnce, hs, processClientLength, udppktLengthSize_eq,
    bufferedRead_full (.inl hb) rfl h, bind_eq_bind, bind_some, getU32_putU32 hn,
    udppktInFixedHeaderNoLengthSize_eq]
  rfl

lemma header_turn {n : UInt8} (hs : d.state = .fixedHeader)
    (hb : d.buffer.length < 37) (hheader : header.length = 36)
      (h : d.buffer ++ data = header ++ n :: x) : ∃ source destination, d.decodeChunkOnce data =
      some ({ d with buffer := [], source := some source, destination := some destination,
                     state := headerState d.totalLength n }, none, x) := by
  -- the 36 bytes are an address, a port, an address and a port
  obtain ⟨ip, p, ip', p', rfl, hip, hp, hip', hp'⟩ : ∃ ip p ip' p' : Bytes,
      header = ip ++ (p ++ (ip' ++ p')) ∧ ip.length = 16 ∧ p.length = 2 ∧ ip'.length = 16 ∧
        p'.length = 2 := by
    refine ⟨header.take 16, (header.drop 16).take 2, ((header.drop 16).drop 2).take 16,
      ((header.drop 16).drop 2).drop 16, ?_, ?_, ?_, ?_, ?_⟩
    · simp only [take_append_drop]
    all_goals simp [hheader]
  obtain ⟨a, ha⟩ := getFixedSizeIp_append hip
  obtain ⟨m, hm⟩ := getU16_append hp
  obtain ⟨a', ha'⟩ := getFixedSizeIp_append hip'
  obtain ⟨m', hm'⟩ := getU16_append hp'
  have hf : (ip ++ (p ++ (ip' ++ (p' ++ [n])))).length = 37 := by
    simp [hip, hp, hip', hp']
  have hsp : d.buffer ++ data = (ip ++ (p ++ (ip' ++ (p' ++ [n])))) ++ x := by
    simp [h]
  have hr := bufferedRead_full (.inl hb) hf hsp
  refine ⟨.new a m, .new a' m', ?_⟩
  simp only [decodeChunkOnce, hs, processClientFixedHeader,
    udppktInFixedHeaderNoLengthSize_eq, hr, bind_eq_bind, bind_some, ha, hm, ha',
    hm', getU8]
  rfl

lemma name_turn (hs : d.state = .appName n) (hb : d.Pending n) (hf : field.length = n)
    (h : d.buffer ++ data = field ++ x) : d.decodeChunkOnce data = some (
      (fromUtf8 field).elim
        { d with buffer := [], state := .dropping (d.totalLength - 37 - n) }
        (fun name => { d with
          buffer := [], appName := some name, state := .payload (d.totalLength - 37 - n) }),
      none, x) := by
  simp only [decodeChunkOnce, hs, processClientAppName, bufferedRead_full hb hf h, bind_eq_bind,
    bind_some, udppktInFixedHeaderNoLengthSize_eq]
  cases fromUtf8 field <;> rfl

/-- What a turn can do. -/
inductive Turned (d : Decoder) (data : Bytes) :
    Decoder × Option Downstream.UdpDatagram × Bytes → Prop
  | waits (h : (d.buffer ++ data).length < d.state.size) :
    Turned d data ({ d with buffer := d.buffer ++ data }, none, [])
  | length (hs : d.state = .length) (n : Nat) (x : Bytes) (hn : n < 2 ^ 32)
    (h : d.buffer ++ data = putU32 n ++ x) : Turned d data ({ d with
      buffer := [], totalLength := n, state := if n ≥ 37 then .fixedHeader else .dropping n }, none,
        x)
  | header (hs : d.state = .fixedHeader) (header : Bytes) (n : UInt8) (x : Bytes)
    (source destination : SocketAddr) (hh : header.length = 36)
    (h : d.buffer ++ data = header ++ n :: x) : Turned d data ({ d with
      buffer := [], source := some source, destination := some destination,
      state := headerState d.totalLength n }, none, x)
  | name (n : Nat) (hs : d.state = .appName n) (name : String) (field x : Bytes)
    (hf : field.length = n) (h : d.buffer ++ data = field ++ x) (hn : fromUtf8 field = some name) :
    Turned d data ({ d with
      buffer := [], appName := some name, state := .payload (d.totalLength - 37 - n) }, none, x)
  | notUtf8 (n : Nat) (hs : d.state = .appName n) (field x : Bytes) (hf : field.length = n)
    (h : d.buffer ++ data = field ++ x) (hn : fromUtf8 field = none) :
    Turned d data ({ d with buffer := [], state := .dropping (d.totalLength - 37 - n) }, none, x)
  | emits (n : Nat) (hs : d.state = .payload n) (d' : Decoder) (datagram : Downstream.UdpDatagram)
    (x : Bytes) (hb : d'.buffer = []) (hs' : d'.state = .length) :
    Turned d data (d', some datagram, x)
  | drops (r : Nat) (hs : d.state = .dropping r) (hr : data.length < r) :
    Turned d data ({ d with state := .dropping (r - data.length) }, none, data)
  | dropped (r : Nat) (hs : d.state = .dropping r) (hr : r ≤ data.length) :
    Turned d data ({ d with state := .length }, none, data.take r)

lemma turned_payload (hs : d.state = .payload n) (hl : n ≤ (d.buffer ++ data).length)
    (hb : d.Pending n) (hso : d.source.isSome) (hd : d.destination.isSome) :
    ∃ r, d.decodeChunkOnce data = some r ∧ Turned d data r := by
  obtain ⟨source, hso⟩ := isSome_iff_exists.mp hso
  obtain ⟨destination, hd⟩ := isSome_iff_exists.mp hd
  have hle : ¬ n < d.buffer.length := by
    rcases hb with hlt | ⟨-, hn⟩
    · omega
    · simp [hn]
  rw [length_append] at hl
  simp only [decodeChunkOnce, hs, processClientPayload, hle, if_false, emit, hso, hd, bind_eq_bind,
    bind_some, pure]
  split
  · rename_i hw
    exact ⟨_, rfl, .emits n hs _ _ _ hw.1 rfl⟩
  · rw [if_neg (by rw [length_append, length_take]; omega)]
    exact ⟨_, rfl, .emits n hs _ _ _ rfl rfl⟩

lemma turned (hb : d.Pending d.state.size)
    (hp : ∀ n, d.state = .payload n → d.source.isSome ∧ d.destination.isSome) (data : Bytes) :
    ∃ r, d.decodeChunkOnce data = some r ∧ Turned d data r := by
  by_cases hl : (d.buffer ++ data).length < d.state.size
  · exact ⟨_, turn_short hl, .waits hl⟩
  obtain ⟨field, x, h, hf⟩ : ∃ field x, d.buffer ++ data = field ++ x ∧
      field.length = d.state.size := by
    refine ⟨_, _, (take_append_drop d.state.size _).symm, ?_⟩
    rw [length_take]
    omega
  cases hs : d.state <;> simp only [hs, RecvState.size] at hb hf hl
  case length =>
    obtain ⟨n, hn, rfl⟩ := exists_putU32 hf
    exact ⟨_, length_turn hs (hb.resolve_right (by simp)) hn h, .length hs n x hn h⟩
  case fixedHeader =>
    obtain ⟨header, n, rfl⟩ := (eq_nil_or_concat field).resolve_left (by rintro rfl; cases hf)
    rw [concat_append] at h
    have hh : header.length = 36 := by simpa using hf
    obtain ⟨source, destination, ht⟩ := header_turn hs (hb.resolve_right (by simp)) hh h
    exact ⟨_, ht, .header hs header n x source destination hh h⟩
  case appName n =>
    have ht := name_turn hs hb hf h
    cases hn : fromUtf8 field with
    | none =>
      rw [hn] at ht
      exact ⟨_, ht, .notUtf8 n hs field x hf h hn⟩
    | some name =>
      rw [hn] at ht
      exact ⟨_, ht, .name n hs name field x hf h hn⟩
  case payload n =>
    obtain ⟨hso, hd⟩ := hp n hs
    exact turned_payload hs (Nat.not_lt.mp hl) hb hso hd
  case dropping r =>
    by_cases hr : data.length < r
    · exact ⟨_, dropping_turn_short hs hr, .drops r hs hr⟩
    · exact ⟨_, dropping_turn_full hs (by omega), .dropped r hs (by omega)⟩

end

/-! ## A decoder inside a record -/

/-- `d` has read a part of `r` and awaits the bytes `bs` to complete it. -/
inductive Awaits (r : Record) (d : Decoder) (bs : Bytes) : Prop
  | length (hs : d.state = .length) (hb : d.buffer.length < 4)
    (h : d.buffer ++ bs = r.encode)
  | fixedHeader (hs : d.state = .fixedHeader) (ht : d.totalLength = r.length)
    (hb : d.buffer.length < 37)
    (h : d.buffer ++ bs = r.header ++ (utf8 r.appName ++ r.payload))
  | appName (hs : d.state = .appName r.nameLength) (ht : d.totalLength = r.length)
    (hsource : d.source = some r.source) (hdestination : d.destination = some r.destination)
    (hb : d.buffer.length < r.nameLength ∨ r.nameLength = 0 ∧ d.buffer = [])
    (h : d.buffer ++ bs = utf8 r.appName ++ r.payload)
  | payload (hs : d.state = .payload r.payload.length)
    (hsource : d.source = some r.source) (hdestination : d.destination = some r.destination)
    (hname : d.appName = some r.appName) (h : d.buffer ++ bs = r.payload)

/-- Between two records: the next byte is the first of a `Length` field. -/
structure Ready (d : Decoder) : Prop where
  state : d.state = .length
  buffer : d.buffer = []

lemma Ready.awaits (h : Ready d) (r : Record) : Awaits r d r.encode :=
  .length h.state (by simp [h.buffer]) (by simp [h.buffer])

/-- What a chunk does to a decoder that awaits `bs`. -/
structure Progress (r : Record) (d : Decoder) (bs : Bytes) : Prop where
  more : ∀ x bs', x ≠ [] → bs = x ++ bs' → (bs' ≠ [] ∨ r.payload = []) →
    ∃ d', d.decodeChunk x = some (d', .wantMore) ∧ Awaits r d' bs'
  done : ∀ x y, x ≠ [] → x = bs ++ y → (y ≠ [] ∨ r.payload ≠ []) →
    ∃ d', d.decodeChunk x = some (d', .complete r.datagram y) ∧ Ready d'

lemma progress_of_field (h : d.buffer ++ bs = w ++ rest) (hr : r.payload ≠ [] → rest ≠ [])
    (hs : ∀ x, (d.buffer ++ x).length < w.length →
      d.decodeChunkOnce x = some ({ d with buffer := d.buffer ++ x }, none, []) ∧
        ∀ bs', d.buffer ++ x ++ bs' = w ++ rest → Awaits r { d with buffer := d.buffer ++ x } bs')
    (hf : ∀ x tail, d.buffer ++ x = w ++ tail →
      ∃ d', d.decodeChunkOnce x = some (d', none, tail) ∧ Awaits r d' rest ∧
        Progress r d' rest) : Progress r d bs := by
  constructor
  · rintro x bs' hx rfl hm
    rw [← append_assoc] at h
    by_cases hl : (d.buffer ++ x).length < w.length
    · obtain ⟨ht, haw⟩ := hs x hl
      refine ⟨_, ?_, haw bs' h⟩
      rw [decodeChunk_of_turn hx ht, decodeChunk_nil]
    · obtain ⟨tail, hta, hbs'⟩ : ∃ tail, d.buffer ++ x = w ++ tail ∧ tail ++ bs' = rest := by
        rcases append_eq_append_iff.mp h with ⟨a, rfl, hr'⟩ | ⟨a, ha, hbs'⟩
        · have ha : a = [] := by
            simp only [length_append] at hl
            exact length_eq_zero_iff.mp (by omega)
          subst ha
          exact ⟨[], by simp, by simpa using hr'⟩
        · exact ⟨a, ha, hbs'.symm⟩
      obtain ⟨d', ht, haw, hpr⟩ := hf x tail hta
      rw [decodeChunk_of_turn hx ht]
      by_cases hta' : tail = []
      · subst hta'
        refine ⟨d', decodeChunk_nil d', ?_⟩
        rwa [show bs' = rest from hbs']
      · exact hpr.more tail bs' hta' hbs'.symm hm
  · rintro x y hx rfl hd
    have hta : d.buffer ++ (bs ++ y) = w ++ (rest ++ y) := by
      rw [← append_assoc, h, append_assoc]
    obtain ⟨d', ht, -, hpr⟩ := hf _ _ hta
    rw [decodeChunk_of_turn hx ht]
    have hne : rest ++ y ≠ [] := by
      rcases hd with hy | hp
      · simp [hy]
      · simp [hr hp]
    exact hpr.done _ y hne rfl hd

section

variable {r : Record} {d : Decoder} {bs : Bytes} (hs : d.state = .payload r.payload.length)
  (hsource : d.source = some r.source) (hdestination : d.destination = some r.destination)
  (hname : d.appName = some r.appName) (h : d.buffer ++ bs = r.payload)

include hs hsource hdestination hname h

lemma payload_turn_done (y : Bytes) : d.decodeChunkOnce (bs ++ y) =
      some ({ d with state := .length, appName := none, buffer := [] }, some r.datagram, y) := by
  have hl : (bs ++ y).length = bs.length + y.length := length_append
  by_cases hn : d.buffer = []
  · rw [hn, nil_append] at h
    have hf : d.buffer = [] ∧ (bs ++ y).length ≥ r.payload.length :=
      ⟨hn, by rw [hl, h]; omega⟩
    rw [decodeChunkOnce, hs]
    simp only [processClientPayload, hf, h, take_left, drop_left,
      emit, hsource, hdestination, hname]
    simp [Record.datagram]
  · have hlen : d.buffer.length + bs.length = r.payload.length := by
      rw [← length_append, h]
    have hf : ¬ (d.buffer = [] ∧ (bs ++ y).length ≥ r.payload.length) :=
      fun h => hn h.1
    have hle : ¬ r.payload.length < d.buffer.length := by omega
    have hm : min (bs ++ y).length (r.payload.length - d.buffer.length) = bs.length := by
      omega
    simp only [decodeChunkOnce, hs, processClientPayload, hf, hle, hm,
      if_false, take_left', drop_left', h, Nat.lt_irrefl, emit, hsource,
      hdestination, hname]
    simp [Record.datagram]

lemma payload_progress : Progress r d bs := by
  constructor
  · rintro x bs' hx rfl hm
    have hl := congrArg length h
    simp only [length_append] at hl
    have hpos : 0 < x.length := length_pos_iff.mpr hx
    have hbs' : 0 < bs'.length := by
      rcases hm with hne | hp
      · exact length_pos_iff.mpr hne
      · rw [hp] at hl
        simp only [length_nil] at hl
        omega
    have hlt : (d.buffer ++ x).length < r.payload.length := by
      rw [length_append]
      omega
    refine ⟨{ d with buffer := d.buffer ++ x }, ?_, ?_⟩
    · rw [decodeChunk_of_turn hx (turn_short (by rwa [hs])), decodeChunk_nil]
    · exact .payload hs hsource hdestination hname (by simpa using h)
  · rintro x y hx rfl _
    have ht := payload_turn_done hs hsource hdestination hname h y
    exact ⟨_, decodeChunk_of_emit hx ht, rfl, rfl⟩

end

section

variable {r : Record} {d : Decoder} {bs : Bytes}

lemma appName_progress (hs : d.state = .appName r.nameLength) (ht : d.totalLength = r.length)
    (hsource : d.source = some r.source) (hdestination : d.destination = some r.destination)
    (hb : d.buffer.length < r.nameLength ∨ r.nameLength = 0 ∧ d.buffer = [])
    (h : d.buffer ++ bs = utf8 r.appName ++ r.payload) : Progress r d bs := by
  refine progress_of_field h id (fun x hl => ⟨?_, fun bs' hbs' => ?_⟩) (fun x tail hta => ?_)
  · exact turn_short (by rwa [hs])
  · exact .appName hs ht hsource hdestination (.inl hl) hbs'
  · have hp : r.length - 37 - r.nameLength = r.payload.length := by
      simp only [Record.length]
      omega
    refine ⟨{ d with buffer := [], appName := some r.appName,
                     state := .payload r.payload.length }, ?_, ?_, ?_⟩
    · rw [name_turn hs hb rfl hta, fromUtf8_utf8, ht, hp]
      rfl
    · exact .payload rfl hsource hdestination rfl rfl
    · exact payload_progress rfl hsource hdestination rfl rfl

lemma fixedHeader_progress (hs : d.state = .fixedHeader) (ht : d.totalLength = r.length)
    (hb : d.buffer.length < 37) (h : d.buffer ++ bs = r.header ++ (utf8 r.appName ++ r.payload)) :
    Progress r d bs := by
  have hh := r.header_length
  have hr : r.payload ≠ [] → utf8 r.appName ++ r.payload ≠ [] := by
    intro hp
    simp [hp]
  refine progress_of_field h hr (fun x hle => ⟨?_, fun bs' hbs' => ?_⟩)
    (fun x tail hta => ?_)
  · rw [hh] at hle
    exact turn_short (by rwa [hs])
  · rw [hh] at hle
    exact .fixedHeader hs ht hle hbs'
  · have hname : (UInt8.ofNat r.nameLength).toNat = r.nameLength := by
      have := r.appName_length
      simp only [UInt8.toNat_ofNat', Record.nameLength]
      omega
    have hbound := r.length_le
    have hl : ¬ r.length > maxUdpInPayloadSize - r.nameLength := by
      simp only [Record.length, Record.nameLength]
      omega
    have hsm : r.length ≥ 37 + r.nameLength := by
      simp only [Record.length]
      omega
    refine ⟨{ d with buffer := [], source := some r.source, destination := some r.destination,
                     state := .appName r.nameLength }, ?_, ?_, ?_⟩
    · simp only [decodeChunkOnce, hs, processClientFixedHeader, udppktInFixedHeaderNoLengthSize_eq,
        bufferedRead_full (.inl hb) hh hta, bind_eq_bind, bind_some,
        Record.header, Record.getFixedSizeIp_append_eq r.sourceIp_length, getU16_putU16,
        Record.getFixedSizeIp_append_eq r.destinationIp_length, getU8, hname, ht, hl, hsm,
        if_false, if_true]
      rfl
    · exact .appName rfl ht rfl rfl (by simp; omega) rfl
    · exact appName_progress rfl ht rfl rfl (by simp; omega) rfl

lemma length_progress (hs : d.state = .length) (hb : d.buffer.length < 4)
    (h : d.buffer ++ bs = r.encode) : Progress r d bs := by
  have hr : r.payload ≠ [] → r.header ++ (utf8 r.appName ++ r.payload) ≠ [] := by
    intro hp
    simp [hp]
  refine progress_of_field h hr (fun x hle => ⟨?_, fun bs' hbs' => ?_⟩)
    (fun x tail ht => ?_)
  · exact turn_short (by rwa [hs])
  · exact .length hs hle hbs'
  · have hl : r.length ≥ 37 := by
      simp only [Record.length]
      omega
    refine ⟨{ d with buffer := [], totalLength := r.length, state := .fixedHeader }, ?_, ?_, ?_⟩
    · rw [length_turn hs hb r.length_lt ht, if_pos hl]
    · exact .fixedHeader rfl rfl (by simp) rfl
    · exact fixedHeader_progress rfl rfl (by simp) rfl

lemma progress_of_awaits (h : Awaits r d bs) : Progress r d bs := by
  cases h with
  | length hs hb h => exact length_progress hs hb h
  | fixedHeader hs ht hb h => exact fixedHeader_progress hs ht hb h
  | appName hs ht hsource hdestination hb h =>
    exact appName_progress hs ht hsource hdestination hb h
  | payload hs hsource hdestination hname h =>
    exact payload_progress hs hsource hdestination hname h

end

/-! ## Streams of records -/

section

variable {rs : List Record} {r : Record} {d : Decoder} {chunks : List Bytes}

def encodeAll (rs : List Record) : Bytes := (rs.map Record.encode).flatten

@[simp] lemma encodeAll_nil : encodeAll [] = [] := rfl

@[simp] lemma encodeAll_cons (r : Record) (rs : List Record) :
    encodeAll (r :: rs) = r.encode ++ encodeAll rs := rfl

lemma Record.encode_ne_nil (r : Record) : r.encode ≠ [] := by
  simp [encode, putU32]

lemma eq_nil_of_encodeAll (h : encodeAll rs = []) : rs = [] := by
  cases rs with
  | nil => rfl
  | cons r =>
    rw [encodeAll_cons, append_eq_nil_iff] at h
    exact absurd h.1 r.encode_ne_nil

/-- In order; a last one without payload may be missing. -/
def Delivered (rs : List Record) (ds : List Downstream.UdpDatagram) : Prop :=
  ds = rs.map Record.datagram ∨
    ∃ first last, rs = first ++ [last] ∧ last.payload = [] ∧ ds = first.map Record.datagram

lemma Delivered.cons (h : Delivered rs ds) : Delivered (r :: rs) (r.datagram :: ds) := by
  rcases h with rfl | ⟨first, last, rfl, hl, rfl⟩
  · exact .inl rfl
  · exact .inr ⟨r :: first, last, rfl, hl, rfl⟩

/-- Bytes that give no datagram between two records, however they are cut. -/
def Silent (z : Bytes) : Prop :=
  ∀ (d : Decoder) (queue : List Bytes), Ready d → (∀ c ∈ queue, c ≠ []) → queue.flatten = z →
    Delivers decodeChunk d queue []

lemma silent_nil : Silent [] := by
  intro d queue _ hq hf
  obtain rfl := eq_nil_of_flatten hq hf
  exact .eof rfl

lemma delivers_finished (hp : Progress r d bs) (hx : x ≠ [])
    (hxy : x = bs ++ y) (hy : y ≠ [] ∨ r.payload ≠ []) (hne : ∀ c ∈ chunks, c ≠ [])
    (hre : encodeAll rs ++ z = y ++ chunks.flatten)
    (hr : ∀ (d' : Decoder) (queue : List Bytes), Ready d' → queue.length ≤ chunks.length + 1 →
      (∀ c ∈ queue, c ≠ []) → queue.flatten = encodeAll rs ++ z →
      ∃ ds, Delivers decodeChunk d' queue ds ∧ Delivered rs ds) :
    ∃ ds, Delivers decodeChunk d (x :: chunks) ds ∧ Delivered (r :: rs) ds := by
  obtain ⟨d', hc, hd'⟩ := hp.done x y hx hxy hy
  have hq : ∃ ds, Delivers decodeChunk d'
      (if y = [] then chunks else y :: chunks) ds ∧ Delivered rs ds := by
    split
    · rename_i hn
      exact hr d' chunks hd' (by simp) hne (by simp [hre, hn])
    · rename_i hn
      refine hr d' (y :: chunks) hd' (by simp) ?_ (by simp [hre])
      simp only [mem_cons, forall_eq_or_imp]
      exact ⟨hn, hne⟩
  obtain ⟨ds, hds, hde⟩ := hq
  exact ⟨r.datagram :: ds, .of_complete hc hds, hde.cons⟩

/-- By induction on the records and chunks left: a chunk is used up, or finishes a record. -/
lemma delivers_awaits (hz : Silent z) (n : Nat) : ∀ (r : Record) (rs : List Record) (d : Decoder) (bs : Bytes)
    (chunks : List Bytes), rs.length + chunks.length = n → Awaits r d bs →
    (bs ≠ [] ∨ r.payload = []) → (∀ c ∈ chunks, c ≠ []) → chunks.flatten = bs ++ (encodeAll rs ++ z) →
    ∃ ds, Delivers decodeChunk d chunks ds ∧ Delivered (r :: rs) ds := by
  induction n using Nat.strongRecOn with
  | ind n ih =>
  intro r rs d bs chunks hn ha hpe hne hf
  have hp := progress_of_awaits ha
  cases chunks with
  | nil =>
    obtain ⟨rfl, hrs⟩ := append_eq_nil_iff.mp hf.symm
    obtain rfl := eq_nil_of_encodeAll (append_eq_nil_iff.mp hrs).1
    refine ⟨[], .eof rfl, .inr ⟨[], r, rfl, ?_, rfl⟩⟩
    simpa using hpe
  | cons x chunks =>
    simp only [length_cons] at hn
    rw [flatten_cons] at hf
    have hx : x ≠ [] := hne x (by simp)
    have hne' : ∀ c ∈ chunks, c ≠ [] := fun c hc => hne c (by simp [hc])
    -- the record is finished and `queue` is left of the stream
    have hr : ∀ (d' : Decoder) (queue : List Bytes), Ready d' →
        queue.length ≤ chunks.length + 1 → (∀ c ∈ queue, c ≠ []) →
        queue.flatten = encodeAll rs ++ z →
        ∃ ds, Delivers decodeChunk d' queue ds ∧ Delivered rs ds := by
      intro d' queue hd' hlen hq hf'
      cases rs with
      | nil => exact ⟨[], hz d' queue hd' hq hf', .inl rfl⟩
      | cons r' rs' =>
        simp only [length_cons] at hn
        rw [encodeAll_cons, append_assoc] at hf'
        exact ih (rs'.length + queue.length) (by omega) r' rs' d' r'.encode queue rfl
          (hd'.awaits r') (.inl r'.encode_ne_nil) hq hf'
    -- the chunk is used up and `bs'` is left of the record
    have hm : ∀ bs', bs = x ++ bs' → (bs' ≠ [] ∨ r.payload = []) →
        chunks.flatten = bs' ++ (encodeAll rs ++ z) →
        ∃ ds, Delivers decodeChunk d (x :: chunks) ds ∧ Delivered (r :: rs) ds := by
      intro bs' hbs he hre
      obtain ⟨d', hch, ha'⟩ := hp.more x bs' hx hbs he
      obtain ⟨ds, hds, hde⟩ := ih (rs.length + chunks.length) (by omega) r rs d' bs'
        chunks rfl ha' he hne' hre
      exact ⟨ds, (Delivers.of_wantMore hch).mpr hds, hde⟩
    rcases append_eq_append_iff.mp hf with ⟨bs', hbs, hre⟩ | ⟨y, hxy, hre⟩
    · by_cases he : bs' ≠ [] ∨ r.payload = []
      · exact hm bs' hbs he hre
      · simp only [ne_eq, not_or, not_not] at he
        exact delivers_finished hp hx (y := []) (by simp [hbs, he.1]) (.inr he.2) hne'
          (by simp [hre, he.1]) hr
    · by_cases he : y ≠ [] ∨ r.payload ≠ []
      · exact delivers_finished hp hx hxy he hne' hre hr
      · simp only [ne_eq, not_or, not_not] at he
        exact hm [] (by simp [hxy, he.1]) (.inr he.2) (by simp [hre, he.1])

lemma delivers_of_silent (hz : Silent z) (hd : Ready d) (hne : ∀ c ∈ chunks, c ≠ [])
    (h : chunks.flatten = encodeAll rs ++ z) :
    ∃ ds, Delivers decodeChunk d chunks ds ∧ Delivered rs ds := by
  cases rs with
  | nil => exact ⟨[], hz d chunks hd hne h, .inl rfl⟩
  | cons r rs =>
    rw [encodeAll_cons, append_assoc] at h
    exact delivers_awaits hz _ r rs d r.encode chunks rfl (hd.awaits r) (.inl r.encode_ne_nil) hne h

lemma delivers_of_ready (hd : Ready d) (hne : ∀ c ∈ chunks, c ≠ [])
    (h : chunks.flatten = encodeAll rs) :
    ∃ ds, Delivers decodeChunk d chunks ds ∧ Delivered rs ds :=
  delivers_of_silent silent_nil hd hne (by rw [h, append_nil])

lemma ready_new : Ready new := ⟨rfl, rfl⟩

/-- **Decoding**: the datagrams of the records, in order, however they are cut; a last one
without payload may be pending. -/
theorem delivers_records (rs : List Record) (chunks : List Bytes) (hne : ∀ c ∈ chunks, c ≠ [])
    (h : chunks.flatten = (rs.map Record.encode).flatten) :
    ∃ ds, Delivers decodeChunk new chunks ds ∧ (ds = rs.map Record.datagram ∨
        ∃ first last, rs = first ++ [last] ∧ last.payload = [] ∧ ds = first.map Record.datagram) :=
  delivers_of_ready ready_new hne h

def sampleRecord (payload : Bytes) (h : payload.length ≤ 1000) : Record where
  sourceIp := [0, 0, 0, 0, 0, 0, 0, 0, 0, 0, 0, 0, 127, 0, 0, 1]
  sourcePort := 1234
  destinationIp := [0, 0, 0, 0, 0, 0, 0, 0, 0, 0, 0, 0, 8, 8, 8, 8]
  destinationPort := 53
  appName := ""
  payload := payload
  sourceIp_length := rfl
  destinationIp_length := rfl
  appName_length := by decide
  length_le := by
    have hname : (utf8 "").length = 0 := by decide
    rw [hname, maxUdpInPayloadSize_eq]
    omega

/-- With an app name. -/
def namedRecord (payload : Bytes) (h : payload.length ≤ 1000) : Record :=
  { sampleRecord payload h with
    appName := "curl"
    appName_length := by decide +kernel
    length_le := by
      have hname : (utf8 "curl").length = 4 := by decide +kernel
      rw [hname, maxUdpInPayloadSize_eq]
      simp only [sampleRecord]
      omega }

/-- Two records; the first chunk ends in the second record's name. -/
def twoRecords : List Record := [namedRecord [7] (by decide), namedRecord [8, 9] (by decide)]

theorem delivers_twoRecords : ∃ ds, Delivers decodeChunk new
      [(encodeAll twoRecords).take 90, (encodeAll twoRecords).drop 90] ds ∧
      (ds = twoRecords.map Record.datagram ∨
        ∃ first last, twoRecords = first ++ [last] ∧ last.payload = [] ∧
          ds = first.map Record.datagram) :=
  delivers_records twoRecords _ (by decide +kernel) (by decide +kernel)

end

end TrustTunnel.HttpUdpCodec
