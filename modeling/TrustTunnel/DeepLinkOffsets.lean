import TrustTunnel.DeepLinkWire
import TrustTunnel.Http3Sink

/-!
# Decoding at an offset (`decode.rs`, `varint.rs`)

The source keeps an offset into the data, adds lengths of 62 bits to it and indexes with it.
`none` is a panic: out of bounds, or an overflow of `usize`.
-/

namespace TrustTunnel.DeepLink

open Io Lib List Option

/-! ## Checked operations -/

def addUsize (a b : Nat) : Option Nat := if a + b < 2 ^ 64 then some (a + b) else none

def subUsize (a b : Nat) : Option Nat := if b ≤ a then some (a - b) else none

/-- `data[start..stop]`. -/
def slice (data : Bytes) (start stop : Nat) : Option Bytes :=
  if start ≤ stop ∧ stop ≤ data.length then some ((data.drop start).take (stop - start)) else none

/-- `x?`, and then `f`. -/
def andThen {ε α β : Type} (x : Option (Except ε α)) (f : α → Option (Except ε β)) :
    Option (Except ε β) :=
  x.bind fun r =>
    match r with
    | .ok a => f a
    | .error e => some (.error e)

/-! ## The readers -/

def decodeVarintOfAt (size mask : Nat) (truncated : String) (data : Bytes) (offset : Nat) :
    Option (Except IoError (Nat × Nat)) :=
  (addUsize offset size).bind fun stop =>
    if data.length < stop then some (.error ⟨.unexpectedEof, truncated⟩)
    else (slice data offset stop).map fun bytes => .ok (ofBigEndian bytes &&& mask, stop)

/-- `decode_varint`. -/
def decodeVarintAt (data : Bytes) (offset : Nat) : Option (Except IoError (Nat × Nat)) :=
  if data.length ≤ offset then
    some (.error ⟨.unexpectedEof, "unexpected end of data while reading varint"⟩)
  else
    data[offset]?.bind fun first =>
      match (first >>> 6).toNat with
      | 0 => (addUsize offset 1).map fun stop => .ok ((first &&& 0x3f).toNat, stop)
      | 1 => decodeVarintOfAt 2 0x3fff "truncated 2-byte varint" data offset
      | 2 => decodeVarintOfAt 4 0x3fffffff "truncated 4-byte varint" data offset
      | 3 => decodeVarintOfAt 8 0x3fffffffffffffff "truncated 8-byte varint" data offset
      | _ => none

/-- `decode_varint(data, offset)?`. -/
def varintAt (data : Bytes) (offset : Nat) : Option (Except DeepLinkError (Nat × Nat)) :=
  (decodeVarintAt data offset).map (·.mapError .io)

/-- What both loops do with a length. -/
def valueAt (truncated : Nat → DeepLinkError) (data : Bytes) (length offset : Nat) :
    Option (Except DeepLinkError (Bytes × Nat)) :=
  (addUsize offset length).bind fun stop =>
    if data.length < stop then
      (subUsize data.length offset).map fun got => .error (truncated got)
    else (slice data offset stop).map fun value => .ok (value, stop)

/-- The body of the loop in `decode_string_array`, up to the slice. -/
def nextListEntryAt (data : Bytes) (offset : Nat) : Option (Except DeepLinkError (Bytes × Nat)) :=
  andThen (varintAt data offset) fun (len, offset) =>
    valueAt (.truncatedListEntry len) data len offset

/-- `TlvParser::next_field`, where there is something left. -/
def nextFieldAt (data : Bytes) (offset : Nat) :
    Option (Except DeepLinkError ((Option TlvTag × Bytes) × Nat)) :=
  andThen (varintAt data offset) fun (tagU64, offset) =>
    andThen (varintAt data offset) fun (length, offset) =>
      andThen (valueAt (.truncatedTlv (UInt8.ofNat tagU64) length) data length offset)
        fun (value, offset) => some (.ok ((TlvTag.fromU8 (UInt8.ofNat tagU64), value), offset))

/-- A loop to the end of the data; `none` also without fuel. -/
def loopAt {ε β σ : Type} (data : Bytes) (next : Nat → Option (Except ε (β × Nat)))
    (step : σ → β → Option (Except ε σ)) : Nat → σ → Nat → Option (Except ε σ)
  | fuel, s, offset =>
    if data.length ≤ offset then some (.ok s)
    else
      match fuel with
      | 0 => none
      | fuel + 1 =>
        andThen (next offset) fun (b, offset) =>
          andThen (step s b) fun s => loopAt data next step fuel s offset

def decodeStringArrayAt (data : Bytes) : Option (Except DeepLinkError (List String)) :=
  loopAt data (nextListEntryAt data)
    (fun result entry => some ((decodeString entry).map (result ++ [·]))) data.length [] 0

/-- The body of the loop in `decode_tlv_payload`; two of the arms read integers. -/
def onFieldAt (x : Crates) (config : DeepLinkConfig) (field : Option TlvTag × Bytes) :
    Option (Except DeepLinkError DeepLinkConfig) :=
  match field.1 with
  | some .version =>
    andThen (varintAt field.2 0) fun (v, _) =>
      some (if currentVersion < v then .error (.unsupportedVersion v currentVersion) else .ok config)
  | some .dnsUpstreams =>
    andThen (decodeStringArrayAt field.2) fun upstreams =>
      some (.ok { config with dnsUpstreams := upstreams })
  | _ => some (onField x config field)

def decodeTlvPayloadAt (x : Crates) (payload : Bytes) :
    Option (Except DeepLinkError DeepLinkConfig) :=
  andThen (loopAt payload (nextFieldAt payload) (onFieldAt x) payload.length initial 0)
    fun config => some (do config.validate; return config)

/-! ## They read what is left -/

/-- The same error as reading the rest gives, or the same value and where the rest begins, from
`least` on. -/
def ReadsFrom {ε β : Type} (data : Bytes) (least : Nat) (x : Option (Except ε (β × Nat)))
    (r : Except ε (β × Bytes)) : Prop :=
  (∃ e, r = .error e ∧ x = some (.error e)) ∨
    ∃ b offset, r = .ok (b, data.drop offset) ∧ x = some (.ok (b, offset)) ∧ least ≤ offset ∧
      offset ≤ data.length

section

variable {ε β γ σ : Type} {data : Bytes} {least offset length : Nat}

lemma slice_eq (h : offset + length ≤ data.length) :
    slice data offset (offset + length) = some ((data.drop offset).take length) := by
  rw [slice, if_pos ⟨Nat.le_add_right _ _, h⟩, Nat.add_sub_cancel_left]

lemma ReadsFrom.andThen {x : Option (Except ε (β × Nat))} {r : Except ε (β × Bytes)}
    {f : β × Nat → Option (Except ε (γ × Nat))} {g : β × Bytes → Except ε (γ × Bytes)}
    (h : ReadsFrom data least x r)
    (hf : ∀ b offset, r = .ok (b, data.drop offset) → offset ≤ data.length →
      ReadsFrom data offset (f (b, offset)) (g (b, data.drop offset))) :
    ReadsFrom data least (andThen x f) (r >>= g) := by
  rcases h with ⟨e, rfl, rfl⟩ | ⟨b, o, rfl, rfl, hle, hl⟩
  · exact .inl ⟨e, rfl, rfl⟩
  · rcases hf b o rfl hl with ⟨e, hg, hx⟩ | ⟨c, o', hg, hx, hle', hl'⟩
    · exact .inl ⟨e, hg, hx⟩
    · exact .inr ⟨c, o', hg, hx, Nat.le_trans hle hle', hl'⟩

lemma ReadsFrom.mono
    (h : ReadsFrom data least x r) (hle : least' ≤ least) : ReadsFrom data least' x r := by
  rcases h with he | ⟨b, o, hr, hx, hl, hlen⟩
  · exact .inl he
  · exact .inr ⟨b, o, hr, hx, Nat.le_trans hle hl, hlen⟩

lemma decodeVarint_shorter (h : decodeVarint l = .ok (v, rest)) :
    v < 2 ^ 62 ∧ rest.length < l.length := by
  have hr : Tlv.readVarint l = some (v, rest) := by
    rw [← toOption_decodeVarint, h]
    rfl
  refine ⟨?_, Tlv.sequential_readVarint.shorter hr⟩
  cases l with
  | nil => cases hr
  | cons first =>
    obtain ⟨x, -, hx⟩ := map_eq_some_iff.mp hr
    cases hx
    have hwidth : Tlv.width first ≤ 8 := by
      unfold Tlv.width
      split <;> decide
    calc _ < 2 ^ (8 * Tlv.width first - 2) := Nat.mod_lt _ (Nat.two_pow_pos _)
      _ ≤ 2 ^ 62 := Nat.pow_le_pow_right (by omega) (by omega)

variable (hdata : data.length < 2 ^ 63)

include hdata

lemma decodeVarintOfAt_reads (size mask : Nat) (truncated : String)
    (hoffset : offset < data.length) (hsi : 0 < size) (hsi' : size ≤ 8) :
    ReadsFrom data (offset + 1) (decodeVarintOfAt size mask truncated data offset)
      (decodeVarintOf size mask truncated (data.drop offset)) := by
  have ha : addUsize offset size = some (offset + size) := if_pos (by omega)
  rw [decodeVarintOfAt, decodeVarintOf, ha, bind_some, length_drop]
  by_cases hl : data.length < offset + size
  · rw [if_pos hl, if_pos (by omega)]
    exact .inl ⟨_, rfl, rfl⟩
  · rw [if_neg hl, if_neg (by omega), slice_eq (Nat.not_lt.mp hl), drop_drop]
    exact .inr ⟨_, _, rfl, rfl, by omega, by omega⟩

lemma decodeVarintAt_reads (offset : Nat) :
    ReadsFrom data (offset + 1) (decodeVarintAt data offset) (decodeVarint (data.drop offset)) := by
  unfold decodeVarintAt
  by_cases ho : data.length ≤ offset
  · rw [if_pos ho, drop_eq_nil_of_le ho]
    exact .inl ⟨_, rfl, rfl⟩
  · rw [Nat.not_le] at ho
    have ha : addUsize offset 1 = some (offset + 1) := if_pos (by omega)
    have hc := drop_eq_getElem_cons ho
    have hof := fun size mask truncated => decodeVarintOfAt_reads hdata size mask truncated ho
    rw [hc] at hof
    rw [if_neg (Nat.not_le.mpr ho), getElem?_eq_getElem ho, bind_some, hc, decodeVarint]
    have hlt : (data[offset] >>> 6).toNat < 4 := by
      have := data[offset].toNat_lt
      rw [toNat_shiftRight_six]
      omega
    generalize (data[offset] >>> 6).toNat = kind at hlt
    interval_cases kind
    · rw [ha]
      exact .inr ⟨_, _, rfl, rfl, Nat.le_refl _, ho⟩
    · exact hof 2 _ _ (by omega) (by omega)
    · exact hof 4 _ _ (by omega) (by omega)
    · exact hof 8 _ _ (by omega) (by omega)

lemma varintAt_reads (offset : Nat) : ReadsFrom data (offset + 1) (varintAt data offset)
      ((decodeVarint (data.drop offset)).mapError .io) := by
  rw [varintAt]
  rcases decodeVarintAt_reads hdata offset with ⟨e, hr, hx⟩ | ⟨v, o, hr, hx, hle⟩
  · rw [hr, hx]
    exact .inl ⟨_, rfl, rfl⟩
  · rw [hr, hx]
    exact .inr ⟨v, o, rfl, rfl, hle⟩

lemma valueAt_reads (truncated : Nat → DeepLinkError) (hlength : length < 2 ^ 62)
    (ho : offset ≤ data.length) : ReadsFrom data offset (valueAt truncated data length offset)
      (if (data.drop offset).length < length then .error (truncated (data.drop offset).length)
        else .ok ((data.drop offset).take length, (data.drop offset).drop length)) := by
  have ha : addUsize offset length = some (offset + length) := if_pos (by omega)
  rw [valueAt, ha, bind_some, length_drop]
  by_cases hl : data.length < offset + length
  · rw [if_pos hl, if_pos (by omega), subUsize, if_pos ho]
    exact .inl ⟨_, rfl, rfl⟩
  · rw [if_neg hl, if_neg (by omega), slice_eq (Nat.not_lt.mp hl), drop_drop]
    exact .inr ⟨_, _, rfl, rfl, by omega, by omega⟩

lemma nextListEntryAt_reads (offset : Nat) :
    ReadsFrom data (offset + 1) (nextListEntryAt data offset)
      (nextListEntry (data.drop offset)) := by
  refine (varintAt_reads hdata offset).andThen fun len o hl ho => ?_
  exact valueAt_reads hdata _ (decodeVarint_shorter (mapError_eq_ok.mp hl)).1 ho

lemma nextFieldAt_reads (offset : Nat) :
    ReadsFrom data (offset + 1) (nextFieldAt data offset) (nextField (data.drop offset)) := by
  refine (varintAt_reads hdata offset).andThen fun tag o htag ho => ?_
  refine ((varintAt_reads hdata o).mono (Nat.le_succ o)).andThen fun len o' hl ho' => ?_
  have hv := valueAt_reads hdata (.truncatedTlv (UInt8.ofNat tag) len)
    (decodeVarint_shorter (mapError_eq_ok.mp hl)).1 ho'
  dsimp only
  by_cases hs : (data.drop o').length < len
  · rw [if_pos hs] at hv ⊢
    rcases hv with ⟨e, he, hx⟩ | ⟨_, _, h, -⟩
    · cases he
      exact .inl ⟨_, rfl, by rw [hx]; rfl⟩
    · cases h
  · rw [if_neg hs] at hv ⊢
    rcases hv with ⟨_, h, -⟩ | ⟨value, o'', h, hx, hle⟩
    · cases h
    · obtain ⟨rfl, hd⟩ := Prod.mk.inj (Except.ok.inj h)
      exact .inr ⟨_, o'', by rw [← hd]; rfl, by rw [hx]; rfl, hle⟩

omit hdata in
lemma length_of_nextField
    (h : nextField l = .ok ((tag, value), rest)) : value.length ≤ l.length := by
  simp only [nextField, bind_eq_ok, mapError_eq_ok, Prod.exists] at h
  obtain ⟨tagU64, l1, h1, len, l2, h2, h⟩ := h
  split at h
  · cases h
  · cases h
    have hlt1 := (decodeVarint_shorter h1).2
    have hlt2 := (decodeVarint_shorter h2).2
    rw [length_take]
    omega

/-! ## The loops -/

omit hdata in
/-- Each turn goes forward, so as many as there are bytes are enough. -/
lemma loopAt_eq {next : Nat → Option (Except ε (β × Nat))}
    {nextRest : Bytes → Except ε (β × Bytes)}
    {step : σ → β → Option (Except ε σ)} {stepRest : σ → β → Except ε σ}
    (hn : ∀ offset, ReadsFrom data (offset + 1) (next offset) (nextRest (data.drop offset)))
    (hst : ∀ offset b rest s, nextRest (data.drop offset) = .ok (b, rest) →
      step s b = some (stepRest s b))
    (fuel : Nat) (s : σ) (offset : Nat) (hfuel : data.length - offset ≤ fuel) :
    loopAt data next step fuel s offset = some
      (Items.loop nextRest stepRest fuel s (data.drop offset)) := by
  induction fuel generalizing s offset with
  | zero =>
    rw [loopAt, if_pos (by omega), drop_eq_nil_of_le (by omega)]
    rfl
  | succ fuel ih =>
    rw [loopAt]
    by_cases he : data.length ≤ offset
    · rw [if_pos he, drop_eq_nil_of_le he]
      rfl
    · have hl : Items.loop nextRest stepRest (fuel + 1) s (data.drop offset) =
          (nextRest (data.drop offset) >>= fun x => stepRest s x.1 >>= fun s =>
            Items.loop nextRest stepRest fuel s x.2) := by
        rw [drop_eq_getElem_cons (Nat.not_le.mp he)]
        rfl
      rw [if_neg he, hl]
      rcases hn offset with ⟨e, hr, hx⟩ | ⟨b, o, hr, hx, hle, hlen⟩
      · rw [hr, hx]
        rfl
      · have hs := hst offset b _ s hr
        rw [hr, hx]
        show DeepLink.andThen (step s b) _ = some (stepRest s b >>= _)
        rw [hs]
        cases stepRest s b with
        | error => rfl
        | ok s' => exact ih s' o (by omega)

lemma decodeStringArrayAt_eq : decodeStringArrayAt data = some (decodeStringArray data) := by
  refine loopAt_eq (nextListEntryAt_reads hdata) (fun _ entry _ result _ => ?_) data.length [] 0
    (Nat.sub_le _ _)
  cases decodeString entry <;> rfl

lemma onFieldAt_eq (x : Crates) (config : DeepLinkConfig) (tag : Option TlvTag) :
    onFieldAt x config (tag, data) = some (onField x config (tag, data)) := by
  unfold onFieldAt
  split
  · rename_i ht
    simp only at ht
    rw [onField, ht]
    have hre := varintAt_reads hdata 0
    rw [drop_zero] at hre
    simp only [decodeVersionField]
    rcases hre with ⟨e, hr, hx⟩ | ⟨v, o, hr, hx, -⟩
    · rw [hr, hx]
      rfl
    · rw [hr, hx]
      show some (if currentVersion < v then Except.error _ else Except.ok config) =
        some ((if currentVersion < v then Except.error _ else Except.ok ()) >>= fun _ => .ok config)
      split <;> rfl
  · rename_i ht
    simp only at ht
    rw [onField, ht, decodeStringArrayAt_eq hdata]
    cases decodeStringArray data <;> rfl
  · rfl

end

/-- **Decoding ends safely**, with each field and list entry that is read ending behind its
beginning and within the data. A slice has no more than `isize::MAX` bytes. -/
theorem decodeTlvPayload_safe (x : Crates) (data : Bytes) (h : data.length < 2 ^ 63) :
    decodeTlvPayloadAt x data = some (decodeTlvPayload x data) ∧
      (∀ offset, ∃ r, nextFieldAt data offset = some r ∧
        ∀ field stop, r = .ok (field, stop) → offset < stop ∧ stop ≤ data.length) ∧
      ∀ offset, ∃ r, nextListEntryAt data offset = some r ∧
        ∀ entry stop, r = .ok (entry, stop) → offset < stop ∧ stop ≤ data.length := by
  have hp {ε β : Type} {offset : Nat} {y : Option (Except ε (β × Nat))}
      {r : Except ε (β × Bytes)} (hy : ReadsFrom data (offset + 1) y r) :
      ∃ r, y = some r ∧ ∀ b stop, r = .ok (b, stop) → offset < stop ∧ stop ≤ data.length := by
    rcases hy with ⟨e, -, rfl⟩ | ⟨b, o, -, rfl, hle, hlen⟩
    · exact ⟨_, rfl, nofun⟩
    · refine ⟨_, rfl, ?_⟩
      rintro _ _ ⟨⟩
      exact ⟨hle, hlen⟩
  refine ⟨?_, fun offset => hp (nextFieldAt_reads h offset),
    fun offset => hp (nextListEntryAt_reads h offset)⟩
  have hl := loopAt_eq (nextFieldAt_reads h)
    (fun offset field rest config hf =>
      onFieldAt_eq (Nat.lt_of_le_of_lt ((length_of_nextField hf).trans (by simp)) h) x config
        field.1) data.length initial 0 (Nat.sub_le _ _)
  rw [decodeTlvPayloadAt, hl, drop_zero, decodeTlvPayload]
  cases Items.loop nextField (onField x) data.length initial data <;> rfl

/-- A list of one entry and a link. -/
def listPayload : Bytes :=
  [0x0d, 8, 7] ++ Http1.utf8 "1.1.1.1" ++ ([0x0e, 8] ++ Http1.utf8 "https://")

theorem decodeTlvPayload_safe_list :
    let x : Crates := ⟨.error, fun _ => "", .error⟩
    decodeTlvPayloadAt x listPayload = some (.ok { initial with
        dnsUpstreams := ["1.1.1.1"], subscriptionUrl := some "https://" }) ∧
      decodeTlvPayloadAt x [0x01, 0xff] = some (decodeTlvPayload x [0x01, 0xff]) := by
  intro x
  have hl := (decodeTlvPayload_safe x listPayload (by decide +kernel)).1
  have hd : decodeTlvPayload x listPayload = .ok { initial with
      dnsUpstreams := ["1.1.1.1"], subscriptionUrl := some "https://" } := by
    decide +kernel
  exact ⟨hl.trans (congrArg some hd), (decodeTlvPayload_safe x _ (by decide)).1⟩

/-! ## Integers -/

lemma length_writeVarint (v : Nat) : (Tlv.writeVarint v).length = Http3Codec.varintLen v := by
  unfold Tlv.writeVarint Http3Codec.varintLen
  split
  · exact length_bigEndian 1 v
  split
  · exact length_bigEndian 2 _
  split
  · exact length_bigEndian 4 _
  · exact length_bigEndian 8 _

lemma varintLen_le_of_read (h : Tlv.readVarint e = some (v, [])) :
    Http3Codec.varintLen v ≤ e.length := by
  cases e with
  | nil => cases h
  | cons first e =>
    obtain ⟨⟨bytes, rest⟩, ht, hv⟩ := map_eq_some_iff.mp h
    cases hv
    have hl : Tlv.width first ≤ (first :: e).length := by
      unfold Items.take at ht
      split at ht
      · cases ht
      · omega
    have hlt : ofBigEndian bytes % 2 ^ (8 * Tlv.width first - 2) < 2 ^ (8 * Tlv.width first - 2) :=
      Nat.mod_lt _ (Nat.two_pow_pos _)
    refine Nat.le_trans ?_ hl
    generalize ofBigEndian bytes % 2 ^ (8 * Tlv.width first - 2) = v at hlt ⊢
    unfold Http3Codec.varintLen
    unfold Tlv.width at hlt ⊢
    split at hlt <;> simp at hlt ⊢ <;> grind

/-- **Varints** are read back at any offset and as short as can be, which is `varint_len`;
larger numbers are refused. -/
theorem varint_read_back (v : Nat) (hv : v < 2 ^ 62) (x y : Bytes) : (∃ e, encodeVarint v = .ok e ∧
        ((x ++ e ++ y).length < 2 ^ 63 →
          decodeVarintAt (x ++ e ++ y) x.length = some (.ok (v, x.length + e.length))) ∧
        (∀ e', Tlv.readVarint e' = some (v, []) → e.length ≤ e'.length) ∧
        Http3Codec.varintLen v = e.length) ∧
      ∀ w, 2 ^ 62 ≤ w → encodeVarint w = .error (.varintOverflow w) := by
  refine ⟨⟨Tlv.writeVarint v, encodeVarint_eq hv, fun hl => ?_, fun e' he' => ?_,
    (length_writeVarint v).symm⟩, fun w hw => encodeVarint_error hw⟩
  · have hr : decodeVarint (Tlv.writeVarint v ++ y) = .ok (v, y) := by
      rw [← toOption_eq_some_iff, toOption_decodeVarint, Tlv.readVarint_writeVarint hv]
    have hat := decodeVarintAt_reads hl x.length
    rw [append_assoc, drop_left, hr] at hat
    rcases hat with ⟨_, h, -⟩ | ⟨v', o, h, hx, hle, hl'⟩
    · cases h
    · obtain ⟨rfl, hd⟩ := Prod.mk.inj (Except.ok.inj h)
      have hy := congrArg length hd
      simp only [length_drop, length_append] at hy hl'
      rw [append_assoc, hx, show o = x.length + (Tlv.writeVarint v).length by omega]
  · rw [length_writeVarint]
    exact varintLen_le_of_read he'

theorem varint_read_back_300 : (∃ e, encodeVarint 300 = .ok e ∧ (([7] ++ e ++ [8]).length < 2 ^ 63 →
          decodeVarintAt ([7] ++ e ++ [8]) [7].length = some (.ok (300, [7].length + e.length))) ∧
        (∀ e', Tlv.readVarint e' = some (300, []) → e.length ≤ e'.length) ∧
        Http3Codec.varintLen 300 = e.length) ∧
      ∀ w, 2 ^ 62 ≤ w → encodeVarint w = .error (.varintOverflow w) :=
  varint_read_back 300 (by decide) [7] [8]

end TrustTunnel.DeepLink
