import TrustTunnel.Lib.Runs
import TrustTunnel.UdpResync

/-!
# The assertions of the datagram decoder (`http_udp_codec.rs`)

`none` is a failed assertion or `unwrap`; the subtractions from `total_length` are safe by the
invariant.
-/

namespace TrustTunnel.HttpUdpCodec.Decoder

open Io List
open Lib.Http1 (utf8)

section

variable {d : Decoder} {data : Bytes} {cap length : Nat}

/-- What holds between two turns. -/
def Sound (d : Decoder) : Prop :=
  match d.state with
  | .length => d.Pending udppktLengthSize
  | .fixedHeader => d.Pending udppktInFixedHeaderNoLengthSize ∧
      udppktInFixedHeaderNoLengthSize ≤ d.totalLength
  | .appName length => d.Pending length ∧ d.source.isSome ∧ d.destination.isSome ∧
      udppktInFixedHeaderNoLengthSize + length ≤ d.totalLength
  | .payload length => d.Pending length ∧ d.source.isSome ∧ d.destination.isSome ∧
      ∃ name, d.appName = some name ∧
        d.totalLength = udppktInFixedHeaderNoLengthSize + (utf8 name).length + length
  | .dropping _ => d.buffer = []

lemma pending_of_nil (h : d.buffer = []) (cap : Nat) : d.Pending cap := by
  rcases Nat.eq_zero_or_pos cap with hc | hc
  · exact .inr ⟨hc, h⟩
  · exact .inl (by rwa [h])

/-! ## One turn -/

/-- The turn does not fail and leaves what holds between two turns. -/
def Steps (d : Decoder) (data : Bytes) : Prop :=
  match d.decodeChunkOnce data with
  | some (d', _) => d'.Sound
  | none => False

lemma turned_of_sound (h : d.Sound) (data : Bytes) :
    ∃ r, d.decodeChunkOnce data = some r ∧ Turned d data r := by
  cases hs : d.state <;> simp only [Sound, hs] at h <;>
    refine turned ?_ ?_ data <;> simp only [hs, RecvState.size, reduceCtorEq, false_implies,
      implies_true]
  case length => exact h
  case fixedHeader => exact h.1
  case appName => exact h.1
  case payload => exact h.1
  case payload => exact fun _ _ => ⟨h.2.1, h.2.2.1⟩
  case dropping => exact .inr ⟨rfl, h⟩

lemma sound_waits (h : d.Sound) (hl : (d.buffer ++ data).length < d.state.size) :
    Sound { d with buffer := d.buffer ++ data } := by
  cases hs : d.state <;> simp only [Sound, hs, RecvState.size] at h hl ⊢
  case length => exact .inl hl
  case dropping => exact absurd hl (Nat.not_lt_zero _)
  all_goals exact ⟨.inl hl, h.2⟩

lemma steps_of_sound (h : d.Sound) (data : Bytes) : d.Steps data := by
  obtain ⟨r, hr, ht⟩ := turned_of_sound h data
  rw [Steps, hr]
  cases ht with
  | waits hl => exact sound_waits h hl
  | length hs n =>
    by_cases ht : n ≥ 37
    · simp only [Sound, if_pos ht]
      exact ⟨pending_of_nil rfl _, ht⟩
    · simp only [Sound, if_neg ht]
  | header =>
    simp only [headerState]
    split
    · rfl
    · split
      · rename_i hl
        exact ⟨pending_of_nil rfl _, rfl, rfl, hl⟩
      · rfl
  | name n hs name field x hf hx hn =>
    simp only [Sound, hs, udppktInFixedHeaderNoLengthSize_eq] at h
    refine ⟨pending_of_nil rfl _, h.2.1, h.2.2.1, name, rfl, ?_⟩
    simp only [Lib.Http1.utf8_of_fromUTF8 hn, hf, udppktInFixedHeaderNoLengthSize_eq]
    omega
  | notUtf8 => rfl
  | emits n hs d' datagram x hb hs' =>
    simp only [Sound, hs']
    exact pending_of_nil hb _
  | drops r hs => simpa only [Sound, hs] using h
  | dropped r hs =>
    simp only [Sound, hs] at h
    exact pending_of_nil h _

end

/-! ## Chunk after chunk -/

/-- The decoder after a turn. -/
def turn (d : Decoder) (data : Bytes) : Option Decoder := (d.decodeChunkOnce data).map Prod.fst

lemma sound_of_reachable (h : Lib.Reachable turn new d) : d.Sound := by
  have hn : new.Sound := pending_of_nil (d := new) rfl udppktLengthSize
  refine Lib.reachable_invariant hn ?_ h
  intro d data d' hd ht
  obtain ⟨⟨_, r⟩, ho, rfl⟩ := Option.map_eq_some_iff.mp ht
  have hs := steps_of_sound hd data
  rwa [Steps, ho] at hs

lemma Reachable.turn (h : Lib.Reachable turn new d) (ho : d.decodeChunkOnce data = some (d', r)) :
    Lib.Reachable Decoder.turn new d' :=
  h.run (show Lib.run Decoder.turn d [data] = some d' by simp [Lib.run, Decoder.turn, ho])

/-- **The decoder's assertions hold**, in every state any chunks lead to, and no chunk makes it
fail. -/
theorem decodeChunk_never_fails (d : Decoder) (h : Lib.Reachable turn new d) :
    d.Sound ∧ ∀ data, ∃ d' r, d.decodeChunk data = some (d', r) ∧ Lib.Reachable turn new d' := by
  refine ⟨sound_of_reachable h, fun data => ?_⟩
  induction d, data using decodeChunk.induct with
  | case1 d => exact ⟨d, _, decodeChunk_nil d, h⟩
  | case2 d data hd ht =>
    have hs := steps_of_sound (sound_of_reachable h) data
    rw [Steps, ht] at hs
    exact hs.elim
  | case3 d data hd d' datagram tail ht =>
    exact ⟨d', _, decodeChunk_of_emit hd ht, Reachable.turn h ht⟩
  | case4 d data hd d' tail ht ih =>
    rw [decodeChunk_of_turn hd ht]
    exact ih (Reachable.turn h ht)

/-- After a chunk that ends inside the fixed header. -/
theorem decodeChunk_never_fails_halfRead :
    ∃ d, new.decodeChunk [0, 0, 0, 38, 1, 2] = some (d, .wantMore) ∧ d.state = .fixedHeader ∧
      d.buffer = [1, 2] ∧ d.Sound ∧
      ∀ data, ∃ d' r, d.decodeChunk data = some (d', r) ∧ Lib.Reachable turn new d' := by
  have hl := length_turn (d := new) rfl (by decide) (n := 38) (by decide)
    (nil_append (putU32 38 ++ [1, 2]))
  have hh : decodeChunkOnce { new with totalLength := 38, state := .fixedHeader } [1, 2] =
      some ({ new with totalLength := 38, state := .fixedHeader, buffer := [1, 2] }, none, []) := by
    decide +kernel
  have hc := (decodeChunk_of_turn (by simp) hl).trans
    ((decodeChunk_of_turn (by simp) hh).trans (decodeChunk_nil _))
  have hr := Reachable.turn (Reachable.turn ⟨[], rfl⟩ hl) hh
  exact ⟨_, hc, rfl, rfl, decodeChunk_never_fails _ hr⟩

end TrustTunnel.HttpUdpCodec.Decoder
