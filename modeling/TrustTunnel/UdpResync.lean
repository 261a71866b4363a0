import TrustTunnel.UdpRecords

/-!
# Malformed records in a UDP stream

The dropping state returns what it should drop and loses the rest of the chunk. Fewer than 41
bytes never make a record (`silent_of_lt`), so small malformed ones do no harm at the end, but
lose a record that follows (`resynchronises_small`).
-/

namespace TrustTunnel.HttpUdpCodec

open Io NetUtils Decoder List Delivers

/-! ## Malformed records -/

/-- Why a record is rejected; `n` is the app name length. -/
inductive Malformed (length : Nat) (body : Bytes) : Prop
  | tooShort (h : length < 37)
  | tooLong (header : Bytes) (n : UInt8) (rest : Bytes) (hbody : body = header ++ n :: rest)
    (hheader : header.length = 36) (h : length > maxUdpInPayloadSize - n.toNat)
  | nameTooLong (header : Bytes) (n : UInt8) (rest : Bytes) (hbody : body = header ++ n :: rest)
    (hheader : header.length = 36) (h : length < 37 + n.toNat)
  | notUtf8 (header : Bytes) (n : UInt8) (name rest : Bytes)
    (hbody : body = header ++ n :: (name ++ rest)) (hheader : header.length = 36)
    (hname : name.length = n.toNat) (h : fromUtf8 name = none)

/-- A malformed record, which occupies exactly `4 + length` bytes. -/
structure MalformedRecord where
  length : Nat
  body : Bytes
  length_lt : length < 2 ^ 32
  body_length : body.length = length
  malformed : Malformed length body

def MalformedRecord.encode (m : MalformedRecord) : Bytes := putU32 m.length ++ m.body

inductive Item where
  | good (r : Record)
  | bad (m : MalformedRecord)

namespace Item

def encode : Item → Bytes
  | good r => r.encode
  | bad m => m.encode

def goods : List Item → List Record
  | [] => []
  | good r :: items => r :: goods items
  | bad _ :: items => goods items

def bads : List Item → List MalformedRecord
  | [] => []
  | good _ :: items => bads items
  | bad m :: items => m :: bads items

end Item

/-- No well-formed record follows a malformed one. -/
def Trailing (items : List Item) : Prop :=
  items = (Item.goods items).map .good ++ (Item.bads items).map .bad

/-- But for a pending last one without payload. -/
def AgreeUpToPending (out out' : List Downstream.UdpDatagram) : Prop :=
  out = out' ∨ (∃ g, g.payload = [] ∧ out = out' ++ [g]) ∨
    ∃ g, g.payload = [] ∧ out' = out ++ [g]

/-- It gives the datagrams of its well-formed records alone. -/
def Resynchronises (items : List Item) : Prop :=
  ∀ chunks chunks' : List Bytes,
    (∀ c ∈ chunks, c ≠ []) → chunks.flatten = (items.map Item.encode).flatten →
    (∀ c ∈ chunks', c ≠ []) → chunks'.flatten = encodeAll (Item.goods items) →
    ∃ out out', Delivers decodeChunk new chunks out ∧
      Delivers decodeChunk new chunks' out' ∧ AgreeUpToPending out out'

/-! ## The dropping state -/

lemma decodeChunk_tooShort {d : Decoder} (hd : Ready d) (hn : n < 37) :
    d.decodeChunk (putU32 n) =
      some ({ d with buffer := [], totalLength := n, state := .dropping n }, .wantMore) := by
  have ht := length_turn hd.state (by simp [hd.buffer]) (show n < 2 ^ 32 by omega)
    (show d.buffer ++ putU32 n = putU32 n ++ [] by simp [hd.buffer])
  rw [if_neg (by omega)] at ht
  rw [decodeChunk_of_turn (by simp [putU32]) ht, decodeChunk_nil]

lemma decodeChunk_dropping {d : Decoder} {n : Nat} (hs : d.state = .dropping n) {x : Bytes}
    (hx : x ≠ []) (hn : n ≤ x.length) :
    d.decodeChunk x = { d with state := .length }.decodeChunk (x.take n) :=
  decodeChunk_of_turn hx (dropping_turn_full hs hn)

lemma congr_chunk {σ δ : Type} {decodeChunk : σ → Bytes → Option (σ × DecodeResult δ)}
    {s s' : σ} {x x' : Bytes} (h : decodeChunk s x = decodeChunk s' x') {rest : List Bytes}
    {ds : List δ} (hds : Delivers decodeChunk s (x :: rest) ds) :
    Delivers decodeChunk s' (x' :: rest) ds := by
  have hr : read decodeChunk s (x :: rest) = read decodeChunk s' (x' :: rest) := by
    simp [read, h]
  cases hds with
  | eof h => exact .eof (hr ▸ h)
  | datagram h hre => exact .datagram (hr ▸ h) hre

/-! ## Few bytes -/

section

variable {d : Decoder} {data : Bytes} {n : Nat}

/-- No datagram comes of `n` more bytes: a record needs 41 from its first on. -/
inductive Ahead (n : Nat) (d : Decoder) : Prop
  | length (hs : d.state = .length) (hb : d.buffer.length < 4) (h : n + d.buffer.length < 41)
  | fixedHeader (hs : d.state = .fixedHeader) (h : n + d.buffer.length < 37)
  | dropping (r : Nat) (hs : d.state = .dropping r) (hb : d.buffer = []) (h : n < 41)

lemma ahead_of_ready (hd : Ready d) (h : n < 41) : Ahead n d :=
  .length hd.state (by simp [hd.buffer]) (by simpa [hd.buffer] using h)

lemma Ahead.pending (h : Ahead n d) : d.Pending d.state.size := by
  cases h with
  | length hs => exact .inl (by rwa [hs])
  | fixedHeader hs => exact .inl (by rw [hs, RecvState.size]; omega)
  | dropping r hs hb => exact .inr ⟨by rw [hs, RecvState.size], hb⟩

lemma ahead_turn (h : Ahead n d) (hd : data.length ≤ n) :
    ∃ d' tail, d.decodeChunkOnce data = some (d', none, tail) ∧ tail.length ≤ data.length ∧
      Ahead (n - (data.length - tail.length)) d' := by
  obtain ⟨r, hr, ht⟩ := turned h.pending (by cases h <;> simp [*]) data
  cases h with
  | length hs =>
    cases ht with
    | waits hl =>
      rw [hs, RecvState.size] at hl
      refine ⟨_, _, hr, Nat.zero_le _, .length hs hl ?_⟩
      simp only [length_append, length_nil]
      omega
    | length _ m x hm hx =>
      have hlen := congrArg List.length hx
      simp only [length_append, putU32, length_cons, length_nil] at hlen
      refine ⟨_, _, hr, by omega, ?_⟩
      by_cases ht : m ≥ 37
      · exact .fixedHeader (if_pos ht) (by simp only [length_nil]; omega)
      · exact .dropping _ (if_neg ht) rfl (by omega)
    | _ => simp_all
  | fixedHeader hs =>
    have hl : (d.buffer ++ data).length < d.state.size := by
      rw [length_append, hs, RecvState.size]
      omega
    refine ⟨_, _, turn_short hl, Nat.zero_le _, .fixedHeader hs ?_⟩
    simp only [length_append, length_nil]
    omega
  | dropping r hs hb =>
    by_cases hr : r ≤ data.length
    · refine ⟨_, _, dropping_turn_full hs hr, ?_, .length rfl ?_ ?_⟩
      · rw [length_take]
        omega
      · simp [hb]
      · simp only [hb, length_nil]
        omega
    · exact ⟨_, _, dropping_turn_short hs (by omega), le_rfl, .dropping _ rfl hb (by omega)⟩

lemma ahead_chunk (h : Ahead n d) (data : Bytes) (hd : data.length ≤ n) :
    ∃ d', d.decodeChunk data = some (d', .wantMore) ∧ Ahead (n - data.length) d' := by
  induction d, data using decodeChunk.induct generalizing n with
  | case1 d => exact ⟨d, decodeChunk_nil d, h⟩
  | case2 d data _ ht | case3 d data _ d' datagram tail ht =>
    obtain ⟨d1, tail1, ht1, -⟩ := ahead_turn h hd
    rw [ht] at ht1
    cases ht1
  | case4 d data hne d' tail ht ih =>
    obtain ⟨d1, tail1, ht1, hle, ha⟩ := ahead_turn h hd
    rw [ht] at ht1
    cases ht1
    obtain ⟨d2, hc, ha⟩ := ih ha (by omega)
    rw [decodeChunk_of_turn hne ht]
    exact ⟨d2, hc, by rwa [show n - data.length = n - (data.length - tail.length) - tail.length
      by omega]⟩

lemma delivers_of_ahead (h : Ahead n d) (hn : queue.flatten.length ≤ n) :
    Delivers decodeChunk d queue [] := by
  induction queue generalizing d n with
  | nil => exact .eof rfl
  | cons c queue ih =>
    rw [flatten_cons, length_append] at hn
    obtain ⟨d', hc, ha⟩ := ahead_chunk h c (by omega)
    exact (of_wantMore hc).mpr (ih ha (by omega))

/-- Fewer than 41 bytes make no record, whatever they are. -/
lemma silent_of_lt (h : z.length < 41) : Silent z := by
  intro d queue hd _ hf
  exact delivers_of_ahead (ahead_of_ready hd h) (by rw [hf])

end

/-! ## Insertion -/

section

variable {out out' ds : List Downstream.UdpDatagram} {r : Record} {rs : List Record} {d : Decoder}
  {m : MalformedRecord} {items : List Item} {y : Bytes} {queue : List Bytes}

lemma Delivered.agree (h : Delivered rs out) (h' : Delivered rs out') :
    AgreeUpToPending out out' := by
  rcases h with rfl | ⟨first, last, rfl, hl, rfl⟩
  · rcases h' with rfl | ⟨first, last, rfl, hl, rfl⟩
    · exact .inl rfl
    · exact .inr (.inl ⟨last.datagram, hl, by simp⟩)
  · rcases h' with rfl | ⟨first', last', heq, -, rfl⟩
    · exact .inr (.inr ⟨last.datagram, hl, by simp⟩)
    · obtain ⟨rfl, -⟩ := append_inj' heq rfl
      exact .inl rfl

/-! ## Small malformed records -/

lemma Item.map_encode_good (rs : List Record) :
    ((rs.map Item.good).map Item.encode).flatten = encodeAll rs := by
  simp [encodeAll, Item.encode, Function.comp_def]

lemma resynchronises_of_trailing (ht : Trailing items)
    (hs : ((Item.bads items).map MalformedRecord.encode).flatten.length < 41) :
    Resynchronises items := by
  intro chunks chunks' hne hf hne' hf'
  have he : (items.map Item.encode).flatten = encodeAll (Item.goods items) ++
      ((Item.bads items).map MalformedRecord.encode).flatten := by
    conv_lhs => rw [show items = _ from ht]
    rw [map_append, flatten_append, Item.map_encode_good]
    simp [Item.encode, Function.comp_def]
  obtain ⟨out, ho, hd⟩ := delivers_of_silent (silent_of_lt hs) ready_new hne (hf.trans he)
  obtain ⟨out', ho', hd'⟩ := delivers_of_ready ready_new hne' hf'
  exact ⟨out, out', ho, ho', hd.agree hd'⟩

/-- A record that is too short, and what follows in the chunk of its rest. -/
lemma delivers_tooShort (hm : m.length < 37) (hy : y ≠ []) (hd : Ready d) :
    Delivers decodeChunk d [putU32 m.length, m.body ++ y] [] := by
  refine (of_wantMore (decodeChunk_tooShort hd hm)).mpr ?_
  have hl : m.length ≤ (m.body ++ y).length := by
    rw [length_append, m.body_length]
    omega
  refine congr_chunk (s := { d with buffer := [], totalLength := m.length, state := .length })
    (x := m.body) ?_ ?_
  · rw [decodeChunk_dropping rfl (by simp [hy]) hl, take_left' m.body_length]
  · exact delivers_of_ahead (ahead_of_ready ⟨rfl, rfl⟩ (by omega : 40 < 41))
      (by simp [m.body_length]; omega)

/-- A record that follows one that is too short is lost in some split. -/
lemma not_resynchronises_tooShort (hm : m.length < 37) (hr : r.payload ≠ []) :
    ¬ Resynchronises [.bad m, .good r] := by
  intro h
  obtain ⟨out, out', ho, ho', ha⟩ := h [putU32 m.length, m.body ++ r.encode] [r.encode]
    (by simp [r.encode_ne_nil, putU32]) (by simp [Item.encode, MalformedRecord.encode])
    (by simp [r.encode_ne_nil]) (by simp [Item.goods])
  obtain rfl := ho.unique (delivers_tooShort hm r.encode_ne_nil ready_new)
  obtain ⟨d', hc, -⟩ := (progress_of_awaits (ready_new.awaits r)).done r.encode [] r.encode_ne_nil
    (append_nil _).symm (.inr hr)
  obtain rfl := ho'.unique (of_complete hc (.eof rfl))
  rcases ha with ha | ⟨g, -, ha⟩ | ⟨g, hg, ha⟩
  · cases ha
  · cases ha
  · cases ha
    exact hr hg

/-- A record whose `Length` field is zero. -/
def emptyRecord : MalformedRecord where
  length := 0
  body := []
  length_lt := by decide
  body_length := rfl
  malformed := .tooShort (by decide)

end

end TrustTunnel.HttpUdpCodec
