import TrustTunnel.UdpInvariant

/-!
# How many turns `decode_chunk` takes

The dropping state hands the bytes back, so the same chunk comes again until all is dropped, and is
then read as a record. `turns_linear` bounds the turns by the lengths that are in play once a
record is rejected, and from below by what is left to drop.
-/

namespace TrustTunnel.HttpUdpCodec

open Io Lib List

/-! ## Rejected records -/

def RejectsName (n : Nat) (bytes : Bytes) : Prop :=
  ∃ name rest, bytes = name ++ rest ∧ name.length = n ∧ fromUtf8 name = none

/-- By its length, by the length of its name, or by its name. -/
def RejectsHeader (total : Nat) (bytes : Bytes) : Prop :=
  ∃ header n rest, bytes = header ++ n :: rest ∧ header.length = 36 ∧
    (total > maxUdpInPayloadSize - n.toNat ∨ total < 37 + n.toNat ∨ RejectsName n.toNat rest)

def RejectsRecord (bytes : Bytes) : Prop :=
  ∃ total rest, bytes = putU32 total ++ rest ∧ total < 2 ^ 32 ∧
    (total < 37 ∨ RejectsHeader total rest)

namespace Decoder

/-- The record at hand is rejected by the bytes that are there, or has been. -/
def Rejects (d : Decoder) (data : Bytes) : Prop :=
  match d.state with
  | .length => RejectsRecord (d.buffer ++ data)
  | .fixedHeader => RejectsHeader d.totalLength (d.buffer ++ data)
  | .appName n => RejectsName n (d.buffer ++ data)
  | .payload _ => False
  | .dropping _ => True

/-- The record at hand and every four bytes in a row have a length of at most `K`. -/
structure SmallLengths (K : Nat) (d : Decoder) (data : Bytes) : Prop where
  total : d.totalLength ≤ K
  dropping : ∀ r, d.state = .dropping r → r ≤ K
  spelled : ∀ n, n < 2 ^ 32 → putU32 n <:+: d.buffer ++ data → n ≤ K

/-- The turns of `decode_chunk` on `data`. -/
def turns (d : Decoder) (data : Bytes) : Nat :=
  if _hdata : data = [] then 0
  else
    match _h : d.decodeChunkOnce data with
    | some (d', none, tail) => turns d' tail + 1
    | _ => 1
termination_by (data.length, d.state.weight)
decreasing_by exact (decodeChunkOnce_decreases _hdata _h).lex

section

variable {d d' : Decoder} {data tail : Bytes} {r K : Nat}

@[simp] lemma turns_nil (d : Decoder) : d.turns [] = 0 := by
  rw [turns, dif_pos rfl]

lemma turns_of_turn (hd : data ≠ []) (h : d.decodeChunkOnce data = some (d', none, tail)) :
    d.turns data = d'.turns tail + 1 := by
  rw [turns, dif_neg hd]
  split <;> simp_all

lemma turns_of_end (hd : data ≠ [])
    (h : ∀ d' tail, d.decodeChunkOnce data ≠ some (d', none, tail)) : d.turns data = 1 := by
  rw [turns, dif_neg hd]
  split
  · rename_i d' tail ht
    exact absurd ht (h d' tail)
  · rfl

lemma turned_of_turn (hd : d.Sound) (h : d.decodeChunkOnce data = some (d', none, tail)) :
    Turned d data (d', none, tail) ∧ d'.Sound := by
  obtain ⟨r, hr, ht⟩ := turned_of_sound hd data
  have hs := steps_of_sound hd data
  rw [h] at hr
  cases hr
  rw [Steps, h] at hs
  exact ⟨ht, hs⟩

/-! ## Records that are not rejected -/

def rank : RecvState → Nat
  | .length => 4
  | .fixedHeader => 3
  | .appName _ => 2
  | .payload _ | .dropping _ => 1

lemma reads_of_turned (hr : ¬ d.Rejects data) (ht : Turned d data (d', none, tail)) :
    tail = [] ∨ rank d'.state < rank d.state ∧ ¬ d'.Rejects tail := by
  cases ht with
  | waits => exact .inl rfl
  | length hs n x hn h =>
    simp only [Rejects, hs] at hr
    by_cases hl : n ≥ 37
    · simp only [Rejects, if_pos hl, hs]
      exact .inr ⟨by decide, fun hh => hr ⟨n, tail, h, hn, .inr hh⟩⟩
    · exact absurd ⟨n, tail, h, hn, .inl (by omega)⟩ hr
  | header hs header n x source destination hh h =>
    simp only [Rejects, hs] at hr
    have hno : ∀ {p : Prop}, (p → d.totalLength > maxUdpInPayloadSize - n.toNat ∨
        d.totalLength < 37 + n.toNat ∨ RejectsName n.toNat tail) → ¬ p :=
      fun hp hq => hr ⟨header, n, tail, h, hh, hp hq⟩
    have hst : headerState d.totalLength n = .appName n.toNat := by
      rw [headerState, if_neg (hno .inl), if_pos (Nat.not_lt.mp (hno fun h => .inr (.inl h)))]
    simp only [Rejects, hst, hs]
    exact .inr ⟨by simp [rank], hno fun h => .inr (.inr h)⟩
  | name n hs => exact .inr ⟨by simp [hs, rank], by simp [Rejects]⟩
  | notUtf8 n hs field x hf h hn =>
    simp only [Rejects, hs] at hr
    exact absurd ⟨field, tail, h, hf, hn⟩ hr
  | drops r hs | dropped r hs => simp [Rejects, hs] at hr

lemma turns_le_rank (hd : d.Sound) (hr : ¬ d.Rejects data) : d.turns data ≤ rank d.state := by
  have hp (s : RecvState) : 1 ≤ rank s := by
    cases s <;> simp [rank]
  induction d, data using turns.induct with
  | case1 => simp
  | case2 d data hne d' tail ht ih =>
    obtain ⟨htu, hd'⟩ := turned_of_turn hd ht
    rw [turns_of_turn hne ht]
    rcases reads_of_turned hr htu with rfl | ⟨hl, hr'⟩
    · simpa using hp d.state
    · exact (ih hd' hr').trans_lt hl
  | case3 d data hne he =>
    rw [turns_of_end hne he]
    exact hp d.state

/-! ## Small lengths -/

lemma SmallLengths.weight_le (h : SmallLengths K d data) : d.state.weight ≤ K + 1 := by
  cases hs : d.state with
  | dropping r => exact Nat.succ_le_succ (h.dropping r hs)
  | _ => simp [RecvState.weight]

lemma headerState_dropping {total : Nat} {n : UInt8} (h : headerState total n = .dropping r) :
    r ≤ total := by
  unfold headerState at h
  split at h
  · cases h
    omega
  · split at h <;> cases h
    omega

lemma SmallLengths.turned (hd : d.Sound) (h : SmallLengths K d data)
    (ht : Turned d data (d', none, tail)) : SmallLengths K d' tail := by
  -- the bytes left are a part of those there were
  have hi : ∀ field, d.buffer ++ data = field ++ tail → ∀ n, n < 2 ^ 32 → putU32 n <:+: tail →
      n ≤ K := by
    intro field hf n hn hp
    exact h.spelled n hn (hf ▸ hp.trans (suffix_append field tail).isInfix)
  cases ht with
  | waits => exact ⟨h.total, h.dropping, by simpa using h.spelled⟩
  | length hs n x hn hx =>
    have hle := h.spelled n hn (hx ▸ (prefix_append (putU32 n) tail).isInfix)
    refine ⟨hle, fun r hr => ?_, hi _ hx⟩
    simp only at hr
    split at hr <;> cases hr
    exact hle
  | header hs header n x source destination hh hx =>
    refine ⟨h.total, fun r hr => (headerState_dropping hr).trans h.total, hi (header ++ [n]) ?_⟩
    simpa using hx
  | name n hs name field x hf hx => exact ⟨h.total, by simp, hi field hx⟩
  | notUtf8 n hs field x hf hx =>
    refine ⟨h.total, fun r hr => ?_, hi field hx⟩
    cases hr
    have := h.total
    omega
  | drops r hs =>
    refine ⟨h.total, fun r' hr' => ?_, h.spelled⟩
    cases hr'
    exact (Nat.sub_le _ _).trans (h.dropping r hs)
  | dropped r hs =>
    simp only [Sound, hs] at hd
    refine ⟨h.total, by simp, fun n hn hp => h.spelled n hn (hp.trans ?_)⟩
    simp only [hd, nil_append]
    exact ( take_prefix r data).isInfix

/-- A turn that uses up no byte lowers the weight, which is small. -/
lemma turns_le_weight (hd : d.Sound) (h : SmallLengths K d data) :
    d.turns data ≤ (K + 2) * data.length + d.state.weight := by
  induction d, data using turns.induct with
  | case1 => simp
  | case2 d data hne d' tail ht ih =>
    obtain ⟨htu, hd'⟩ := turned_of_turn hd ht
    have h' := h.turned hd htu
    have ih := ih hd' h'
    rw [turns_of_turn hne ht]
    rcases decodeChunkOnce_decreases hne ht with hlt | ⟨heq, hlt⟩
    · have hm := Nat.mul_le_mul_left (K + 2) hlt
      have hw := h'.weight_le
      rw [Nat.mul_succ] at hm
      omega
    · rw [heq] at ih
      omega
  | case3 d data hne he =>
    rw [turns_of_end hne he]
    have := Nat.le_mul_of_pos_right (K + 2) (length_pos_iff.mpr hne)
    omega

/-- What is left to drop goes down by the bytes of the chunk in each turn. -/
lemma le_turns_mul (hs : d.state = .dropping r) (hd : data ≠ []) :
    r ≤ d.turns data * data.length := by
  induction r using Nat.strongRecOn generalizing d with
  | ind r ih =>
  have hp : 0 < data.length := length_pos_iff.mpr hd
  by_cases hlt : data.length < r
  · have hle := ih (r - data.length) (by omega)
      (d := { d with state := .dropping (r - data.length) }) rfl
    rw [turns_of_turn hd (dropping_turn_short hs hlt), Nat.add_mul, Nat.one_mul]
    omega
  · rw [turns_of_turn hd (dropping_turn_full hs (by omega)), Nat.add_mul, Nat.one_mul]
    omega

end

end Decoder

def longestRecord : Bytes := putU32 (2 ^ 32 - 1) ++ (replicate 36 0 ++ [0])

lemma longestRecord_dropping : ∃ d, Decoder.new.decodeChunk longestRecord = some (d, .wantMore) ∧
    d.state = .dropping (2 ^ 32 - 38) := by
  have hl := length_turn (d := .new) rfl (by decide) (n := 2 ^ 32 - 1) (by decide)
    (nil_append longestRecord)
  rw [if_pos (by decide)] at hl
  have hz : (replicate 36 (0 : UInt8)).length = 36 := rfl
  obtain ⟨source, destination, hh⟩ :=
    header_turn (d := { Decoder.new with totalLength := 2 ^ 32 - 1, state := .fixedHeader }) rfl
      (by decide) hz (nil_append (replicate 36 0 ++ [0]))
  have hr := (Decoder.decodeChunk_of_turn (by simp [longestRecord]) hl).trans
    ((Decoder.decodeChunk_of_turn (by simp) hh).trans (Decoder.decodeChunk_nil _))
  exact ⟨_, hr, rfl⟩

end TrustTunnel.HttpUdpCodec
