import TrustTunnel.ReverseProxyResponse

/-!
# Names of headers

`decode_response` keeps names in lower case; `convert_response` passes them on as they came.
-/

namespace TrustTunnel.HttpForwardedStream

open Http List TrustTunnel.Text
open Lib.Http1 (utf8 isTokenByte)
open ReverseProxy (charOf toList_of_utf8)

lemma toNat_le_toLower (c : Char) : c.toNat ≤ c.toLower.toNat := by
  unfold Char.toLower
  split
  · rename_i h
    have hle : c.val.toNat ≤ 90 := UInt32.le_iff_toNat_le.mp h.2
    have hsum : (c.val + ('a'.val - 'A'.val)).toNat = c.val.toNat + 32 := by
      rw [UInt32.toNat_add]
      have hd : ('a'.val - 'A'.val).toNat = 32 := by decide
      rw [hd, Nat.mod_eq_of_lt (by omega)]
    have ht : c.val.toNat ≤ (c.val + ('a'.val - 'A'.val)).toNat := by omega
    exact ht
  · exact Nat.le_refl _

lemma of_toLower_token (hb : isTokenByte b)
    (h : c.toLower = charOf b) : c.toNat < 128 ∧ isTokenByte (UInt8.ofNat c.toNat) ∧
      Text.isWhitespace c = false := by
  have hby : ∀ n : Fin 256, isTokenByte (UInt8.ofNat n) →
      n.val < 128 ∧ (charOf (UInt8.ofNat n)).toNat = n.val := by
    decide +kernel
  have hc : ∀ n : Fin 128, isTokenByte (UInt8.ofNat (Char.ofNat n).toLower.toNat) →
      isTokenByte (UInt8.ofNat n) ∧ Text.isWhitespace (Char.ofNat n) = false := by
    decide +kernel
  obtain ⟨hlt, hv⟩ := hby ⟨b.toNat, b.toNat_lt⟩ (by rwa [UInt8.ofNat_toNat])
  rw [UInt8.ofNat_toNat, ← h] at hv
  have ha : c.toNat < 128 := by
    have := toNat_le_toLower c
    omega
  have hlower : isTokenByte (UInt8.ofNat c.toLower.toNat) := by
    rwa [hv, UInt8.ofNat_toNat]
  obtain ⟨ht, hbl⟩ := hc ⟨c.toNat, ha⟩ (by rwa [Char.ofNat_toNat])
  rw [Char.ofNat_toNat] at hbl
  exact ⟨ha, ht, hbl⟩

lemma eq_nil_of_flatMap_utf8 (h : l.flatMap String.utf8EncodeChar = []) : l = [] := by
  cases l with
  | nil => rfl
  | cons c =>
    rw [flatMap_cons] at h
    have hl := String.length_utf8EncodeChar c
    rw [(append_eq_nil_iff.mp h).1, length_nil] at hl
    have := Char.utf8Size_pos c
    omega

lemma lt_of_isTokenByte (hb : isTokenByte b) : b.toNat < 128 := by
  have ha : ∀ n : Fin 256, isTokenByte (UInt8.ofNat n) → n.val < 128 := by decide +kernel
  exact ha ⟨b.toNat, b.toNat_lt⟩ (by rwa [UInt8.ofNat_toNat])

lemma exists_charOf (h : isToken s) : ∀ c ∈ s.toList, ∃ b, isTokenByte b ∧ c = charOf b := by
  rw [isToken, Bool.and_eq_true, all_eq_true] at h
  obtain ⟨t, hte, ht⟩ := toList_of_utf8 (fun b hb => lt_of_isTokenByte (h.2 b hb))
    (append_nil (utf8 s)).symm
  rw [eq_nil_of_flatMap_utf8 ht, append_nil] at hte
  intro c hc
  rw [hte] at hc
  obtain ⟨b, hb, hbc⟩ := mem_map.mp hc
  exact ⟨b, h.2 b hb, hbc.symm⟩

lemma trimEnd_eq_self (h : ∀ c ∈ s.toList, Text.isWhitespace c = false) : Text.trimEnd s = s := by
  have hk : s.toList.rdropWhile Text.isWhitespace = s.toList := by
    rw [rdropWhile_eq_self_iff]
    intro hl
    rw [h _ (getLast_mem hl)]
    exact Bool.false_ne_true
  rw [Text.trimEnd, hk, String.ofList_toList]

lemma trimEnd_of_isToken (h : isToken s) : Text.trimEnd s = s := by
  have hbl : ∀ n : Fin 256, isTokenByte (UInt8.ofNat n) →
      Text.isWhitespace (charOf (UInt8.ofNat n)) = false := by
    decide +kernel
  refine trimEnd_eq_self fun c hc => ?_
  obtain ⟨b, hb, rfl⟩ := exists_charOf h c hc
  have hby := hbl ⟨b.toNat, b.toNat_lt⟩
  rw [UInt8.ofNat_toNat] at hby
  exact hby hb

lemma isToken_of_lowercase (h : isToken (Text.toAsciiLowercase s)) :
    isToken s ∧ Text.trimEnd s = s := by
  have hch : ∀ c ∈ s.toList, c.toNat < 128 ∧ isTokenByte (UInt8.ofNat c.toNat) ∧
      Text.isWhitespace c = false := by
    intro c hc
    have hm : c.toLower ∈ (Text.toAsciiLowercase s).toList := by
      rw [Text.toAsciiLowercase, String.toList_ofList]
      exact mem_map_of_mem hc
    obtain ⟨b, hb, hbc⟩ := exists_charOf h _ hm
    exact of_toLower_token hb hbc
  refine ⟨?_, trimEnd_eq_self fun c hc => (hch c hc).2.2⟩
  rw [isToken, Bool.and_eq_true, all_eq_true] at h ⊢
  constructor
  · have hne := h.1
    rw [Bool.not_eq_true', isEmpty_eq_false_iff] at hne ⊢
    intro hn
    rw [utf8_eq_flatMap] at hn
    rw [Text.toAsciiLowercase, eq_nil_of_flatMap_utf8 hn] at hne
    exact hne rfl
  · intro b hb
    rw [utf8_eq_flatMap] at hb
    obtain ⟨c, hc, hbc⟩ := mem_flatMap.mp hb
    rw [utf8EncodeChar_ascii (hch c hc).1, mem_singleton] at hbc
    rw [hbc]
    exact (hch c hc).2.1

end TrustTunnel.HttpForwardedStream
