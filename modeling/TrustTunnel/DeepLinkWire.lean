import Mathlib.Tactic.IntervalCases
import TrustTunnel.DeepLink
import TrustTunnel.Lib.Tlv

/-!
# The wire format of deep links

The readers and writers are those of `Lib.Tlv`, but for error values, tags cut to a byte, and
refused numbers.
-/

namespace TrustTunnel.DeepLink

open Io Lib List
open Lib.Http1 (utf8)
open Lib.Tlv (readVarint writeVarint readBlock writeBlock readEntry writeEntry)

/-! ## Integers -/

lemma toNat_shiftRight_six (b : UInt8) : (b >>> 6).toNat = b.toNat / 64 := by
  rw [UInt8.toNat_shiftRight]
  simp [Nat.shiftRight_eq_div_pow]

lemma toOption_decodeVarintOf (size : Nat) (truncated : String) (data : Bytes) :
    (decodeVarintOf size (2 ^ (8 * size - 2) - 1) truncated data).toOption =
      (Items.take size data).map (fun x => (ofBigEndian x.1 % 2 ^ (8 * size - 2), x.2)) := by
  unfold decodeVarintOf Items.take
  split
  · rfl
  · rw [Nat.and_two_pow_sub_one_eq_mod]
    rfl

lemma toOption_decodeVarint (data : Bytes) : (decodeVarint data).toOption = readVarint data := by
  cases data with
  | nil => rfl
  | cons first rest =>
    have hlt : first.toNat / 64 < 4 := by
      have := first.toNat_lt
      omega
    simp only [decodeVarint, readVarint, Tlv.width, toNat_shiftRight_six]
    generalize first.toNat / 64 = kind at hlt ⊢
    interval_cases kind
    · have hand : (first &&& 0x3f).toNat = first.toNat % 64 := by
        rw [UInt8.toNat_and]
        exact Nat.and_two_pow_sub_one_eq_mod first.toNat 6
      have ht : Items.take 1 (first :: rest) = some ([first], rest) :=
        Items.take_append (e := [first]) rfl rest
      simp [ht, hand, ofBigEndian, Except.toOption]
    · exact toOption_decodeVarintOf 2 _ _
    · exact toOption_decodeVarintOf 4 _ _
    · exact toOption_decodeVarintOf 8 _ _

lemma encodeVarint_eq (h : n < 2 ^ 62) : encodeVarint n = .ok (writeVarint n) := by
  unfold encodeVarint writeVarint
  split
  · simp [bigEndian]
  split
  · have hor := or_eq_add (n := n) (k := 14) (by omega) 1
    simp only [Nat.reducePow, Nat.mul_one] at hor
    rw [hor]
  split
  · have hor := or_eq_add (n := n) (k := 30) (by omega) 2
    simp only [Nat.reducePow, Nat.reduceMul] at hor
    rw [hor]
  · have hor := or_eq_add (n := n) (k := 62) h 3
    simp only [Nat.reducePow, Nat.reduceMul] at hor
    rw [hor, if_pos (by omega)]

lemma encodeVarint_error (h : 2 ^ 62 ≤ n) : encodeVarint n = .error (.varintOverflow n) := by
  unfold encodeVarint
  rw [if_neg (by omega), if_neg (by omega), if_neg (by omega), if_neg (by omega)]

/-! ## Entries -/

/-- The tag of a field, as `next_field` cuts it. -/
def knownTag (tag : Nat) : Option TlvTag := TlvTag.fromU8 (UInt8.ofNat tag)

lemma toOption_nextListEntry (data : Bytes) : (nextListEntry data).toOption = readBlock data := by
  rw [nextListEntry, toOption_bind, toOption_mapError, toOption_decodeVarint, readBlock]
  congr 1
  refine funext ?_
  rintro ⟨len, rest⟩
  simp only [Items.take]
  split <;> rfl

lemma toOption_nextField (data : Bytes) :
    (nextField data).toOption = (readEntry data).map (fun x => ((knownTag x.1.1, x.1.2), x.2)) := by
  rw [nextField, toOption_bind, toOption_mapError, toOption_decodeVarint, readEntry,
    Option.map_bind]
  congr 1
  refine funext ?_
  rintro ⟨tag, rest⟩
  simp only [toOption_bind, toOption_mapError, toOption_decodeVarint, readBlock,
    Function.comp_apply,
    Option.map_bind]
  congr 1
  refine funext ?_
  rintro ⟨len, rest⟩
  simp only [Items.take]
  split <;> rfl

lemma knownTag_asU8 (tag : TlvTag) : knownTag tag.asU8.toNat = some tag := by
  cases tag <;> rfl

lemma knownTag_eq_none_iff : knownTag tag = none ↔ 16 ≤ tag % 256 := by
  have hm : (UInt8.ofNat tag).toNat = tag % 256 := UInt8.toNat_ofNat'
  unfold knownTag TlvTag.fromU8
  rw [hm]
  generalize tag % 256 = n
  constructor
  · intro h
    by_contra hlt
    have hlt : n < 16 := Nat.lt_of_not_le hlt
    interval_cases n <;> cases h
  · intro h
    obtain ⟨m, rfl⟩ := Nat.exists_eq_add_of_le' h
    rfl

lemma eq_asU8_of_knownTag (hn : n < 256) (h : knownTag n = some tag) : n = tag.asU8.toNat := by
  have hlow : ¬16 ≤ n % 256 := by
    intro hh
    rw [knownTag_eq_none_iff.mpr hh] at h
    cases h
  have hlt : n < 16 := by omega
  interval_cases n <;> cases h <;> rfl

lemma asU8_lt (tag : TlvTag) : tag.asU8.toNat < 16 := by
  cases tag <;> decide

lemma encodeTlv_eq (h : value.length < 2 ^ 62) (tag : TlvTag) :
    encodeTlv tag value = .ok (writeEntry tag.asU8.toNat value) := by
  have ht : tag.asU8.toNat < 2 ^ 62 := Nat.lt_of_lt_of_le (asU8_lt tag) (by decide)
  simp only [encodeTlv, encodeVarint_eq ht, encodeVarint_eq h]
  rw [writeEntry, writeBlock, ← append_assoc]
  rfl

lemma encodeTlv_eq_ok_iff : encodeTlv tag value = .ok bytes ↔
      value.length < 2 ^ 62 ∧ bytes = writeEntry tag.asU8.toNat value := by
  by_cases h : value.length < 2 ^ 62
  · rw [encodeTlv_eq h, Except.ok.injEq, and_iff_right h, eq_comm]
  · have ht : tag.asU8.toNat < 2 ^ 62 := Nat.lt_of_lt_of_le (asU8_lt tag) (by decide)
    simp only [encodeTlv, encodeVarint_eq ht, encodeVarint_error (Nat.le_of_not_lt h)]
    refine iff_of_false (fun heq => ?_) (fun hand => h hand.1)
    cases heq

/-! ## Strings and lists of strings -/

section

variable {data value : Bytes} {strings : List String}

lemma decodeString_eq_ok_iff : decodeString data = .ok s ↔ data = utf8 s := by
  unfold decodeString
  constructor
  · intro h
    split at h
    · rename_i hs
      cases h
      exact (Lib.Http1.utf8_of_fromUTF8 hs).symm
    · cases h
  · rintro rfl
    rw [Lib.Http1.fromUTF8_utf8]

lemma decodeString_utf8 (s : String) : decodeString (utf8 s) = .ok s :=
  decodeString_eq_ok_iff.mpr rfl

lemma foldlM_decodeString :
    blocks.foldlM (fun result entry => do return result ++ [← decodeString entry]) acc =
        Except.ok strings ↔ ∃ rest, strings = acc ++ rest ∧ blocks = rest.map utf8 := by
  induction blocks generalizing acc with
  | nil =>
    refine ⟨fun h => ⟨[], ?_, rfl⟩, ?_⟩
    · cases h
      exact (append_nil _).symm
    · rintro ⟨rest, rfl, hr⟩
      rw [map_eq_nil_iff.mp hr.symm, append_nil]
      rfl
  | cons block blocks ih =>
    rw [foldlM_cons]
    simp only [bind_eq_ok, decodeString_eq_ok_iff, ih]
    constructor
    · rintro ⟨_, ⟨s, rfl, heq⟩, rest, rfl, rfl⟩
      cases heq
      exact ⟨s :: rest, by rw [append_assoc, singleton_append], rfl⟩
    · rintro ⟨rest, rfl, hr⟩
      cases rest with
      | nil => cases hr
      | cons s rest =>
        cases hr
        exact ⟨_, ⟨s, rfl, rfl⟩, rest, by rw [append_assoc, singleton_append], rfl⟩

lemma decodeStringArray_eq_ok_iff :
    decodeStringArray data = .ok strings ↔ Items.Reads readBlock data (strings.map utf8) := by
  have hr : (fun l => (nextListEntry l).toOption) = readBlock := funext toOption_nextListEntry
  rw [decodeStringArray, Items.loop_eq_ok_iff (by rw [hr]; exact Tlv.sequential_readBlock)
    le_rfl, hr]
  simp only [foldlM_decodeString, nil_append]
  constructor
  · rintro ⟨blocks, hre, strings, rfl, rfl⟩
    exact hre
  · intro h
    exact ⟨_, h, strings, rfl, rfl⟩

lemma foldlM_encodeVarint :
    strings.foldlM (fun buf s => do return buf ++ (← encodeVarint (utf8 s).length) ++ utf8 s) acc =
        .ok value ↔ (∀ s ∈ strings, (utf8 s).length < 2 ^ 62) ∧
        value = acc ++ strings.flatMap (fun s => writeBlock (utf8 s)) := by
  induction strings generalizing acc with
  | nil =>
    simp only [foldlM_nil, not_mem_nil, false_imp_iff, implies_true, true_and,
      flatMap_nil, append_nil]
    exact ⟨fun h => (Except.ok.inj h).symm, fun h => congrArg Except.ok h.symm⟩
  | cons s strings ih =>
    rw [foldlM_cons, forall_mem_cons]
    by_cases hs : (utf8 s).length < 2 ^ 62
    · simp only [encodeVarint_eq hs, hs, true_and, flatMap_cons, writeBlock, ← append_assoc]
      exact ih
    · rw [encodeVarint_error (Nat.le_of_not_lt hs)]
      refine iff_of_false (fun h => ?_) (fun h => hs h.1.1)
      cases h

lemma encodeStringArray_eq_ok_iff : encodeStringArray strings = .ok value ↔
      (∀ s ∈ strings, (utf8 s).length < 2 ^ 62) ∧
        value = strings.flatMap (fun s => writeBlock (utf8 s)) :=
  foldlM_encodeVarint

lemma decodeStringArray_encoded (h : ∀ s ∈ strings, (utf8 s).length < 2 ^ 62) :
    decodeStringArray (strings.flatMap (fun s => writeBlock (utf8 s))) = .ok strings := by
  rw [decodeStringArray_eq_ok_iff]
  exact Items.reads_flatMap (fun s hs => Tlv.encodes_writeBlock (h s hs))

end

end TrustTunnel.DeepLink
