import TrustTunnel.ReverseProxy

/-!
# Chunk sizes

`handle_stream` cuts the line before a chunk at the first semicolon, trims it and parses it.
-/

namespace TrustTunnel.ReverseProxy

open Io List Option
open Lib.Http1 (utf8)
open HttpForwardedStream (Text.fromUtf8 Text.trim Text.isWhitespace)

/-! ## Bytes and characters -/

def charOf (b : UInt8) : Char := Char.ofNat b.toNat

lemma utf8EncodeChar_head (hb : b.toNat < 128)
    (h : String.utf8EncodeChar c ++ rest = b :: bytes) : c = charOf b ∧ rest = bytes := by
  by_cases hc : c.toNat < 128
  · rw [Text.utf8EncodeChar_ascii hc] at h
    obtain ⟨hby, hr⟩ := cons.inj h
    refine ⟨?_, hr⟩
    rw [charOf, ← hby, UInt8.toNat_ofNat', Nat.mod_eq_of_lt (by omega), Char.ofNat_toNat]
  · exfalso
    have hv : ¬ c.val.toNat ≤ 127 := fun h => hc (Nat.lt_succ_of_le h)
    simp only [String.utf8EncodeChar, if_neg hv] at h
    split_ifs at h <;> (
      have hby := congrArg (fun l => (l.headD 0).toNat) h
      simp only [cons_append, headD_cons, UInt8.toNat_ofNat'] at hby
      omega)

lemma toList_of_utf8 (ha : ∀ b ∈ ascii, b.toNat < 128) (h : utf8 s = ascii ++ rest) :
    ∃ t, s.toList = ascii.map charOf ++ t ∧ t.flatMap String.utf8EncodeChar = rest := by
  rw [Text.utf8_eq_flatMap] at h
  generalize s.toList = l at h
  induction ascii generalizing l with
  | nil => exact ⟨l, rfl, h⟩
  | cons b ascii ih =>
    cases l with
    | nil => simp at h
    | cons c l =>
      rw [flatMap_cons, cons_append] at h
      obtain ⟨rfl, hr⟩ := utf8EncodeChar_head (ha b mem_cons_self) h
      obtain ⟨t, rfl, ht⟩ := ih (fun x hx => ha x (mem_cons_of_mem b hx)) l hr
      exact ⟨t, rfl, ht⟩

/-! ## The size -/

lemma digit_spec (b : UInt8) :
    (∀ d, Lib.Http1.hexDigit b = some d → b.toNat < 128 ∧ toDigit16 (charOf b) = some d ∧
      Text.isWhitespace (charOf b) = false ∧ charOf b ≠ ';' ∧ charOf b ≠ '+') ∧
    (Lib.Http1.isOws b → b.toNat < 128 ∧ Text.isWhitespace (charOf b) ∧ charOf b ≠ ';') := by
  have ha : ∀ n : Fin 256,
      ((Lib.Http1.hexDigit (UInt8.ofNat n)).all (fun d => decide (n.val < 128) &&
        decide (toDigit16 (charOf (UInt8.ofNat n)) = some d) &&
        !Text.isWhitespace (charOf (UInt8.ofNat n)) && charOf (UInt8.ofNat n) != ';' &&
        charOf (UInt8.ofNat n) != '+')) ∧
      (Lib.Http1.isOws (UInt8.ofNat n) → n.val < 128 ∧
        Text.isWhitespace (charOf (UInt8.ofNat n)) ∧ charOf (UInt8.ofNat n) ≠ ';') := by
    decide +kernel
  obtain ⟨hh, ho⟩ := ha ⟨b.toNat, b.toNat_lt⟩
  simp only [UInt8.ofNat_toNat] at hh ho
  refine ⟨fun d hd => ?_, ho⟩
  simpa [hd, and_assoc] using hh

def value (n : Nat) (digits : Bytes) : Nat :=
  digits.foldl (fun n b => n * 16 + (Lib.Http1.hexDigit b).getD 0) n

lemma le_value (n : Nat) (digits : Bytes) : n ≤ value n digits := by
  induction digits generalizing n with
  | nil => exact Nat.le_refl n
  | cons b digits ih =>
    have hb := ih (n * 16 + (Lib.Http1.hexDigit b).getD 0)
    simp only [value, foldl_cons] at hb ⊢
    omega

lemma foldlM_readDigit16 (hdig : ∀ b ∈ digits, (Lib.Http1.hexDigit b).isSome) (hn : n < 2 ^ 64) :
    (digits.map charOf).foldlM readDigit16 n =
      if value n digits < 2 ^ 64 then some (value n digits) else none := by
  induction digits generalizing n with
  | nil => exact (if_pos hn).symm
  | cons b digits ih =>
    obtain ⟨d, hd⟩ := isSome_iff_exists.mp (hdig b mem_cons_self)
    have hv : value n (b :: digits) = value (n * 16 + d) digits := by
      simp [value, hd]
    have hdi := ((digit_spec b).1 d hd).2.1
    simp only [map_cons, foldlM_cons, readDigit16, hdi, bind_some, hv]
    by_cases hlt : n * 16 + d < 2 ^ 64
    · rw [if_pos hlt]
      exact ih (fun x hx => hdig x (mem_cons_of_mem b hx)) hlt
    · have hle := le_value (n * 16 + d) digits
      rw [if_neg hlt, if_neg (by omega)]
      rfl

lemma trim_append (hne : word ≠ []) (hw : ∀ c ∈ word, Text.isWhitespace c = false)
    (hblanks : ∀ c ∈ blanks, Text.isWhitespace c) :
    Text.trim (String.ofList (word ++ blanks)) = String.ofList word := by
  have hh : (word ++ blanks).dropWhile Text.isWhitespace = word ++ blanks := by
    cases word with
    | nil => exact absurd rfl hne
    | cons c =>
      exact dropWhile_cons_of_neg (by simp [hw c mem_cons_self])
  have hl : (word ++ blanks).rdropWhile Text.isWhitespace = word := by
    rw [rdropWhile, reverse_append,
      dropWhile_append_of_pos (fun c hc => hblanks c (mem_reverse.mp hc))]
    have hs : word.reverse.dropWhile Text.isWhitespace = word.reverse := by
      cases hr : word.reverse with
      | nil => rfl
      | cons c =>
        have hc : c ∈ word := mem_reverse.mp (hr ▸ mem_cons_self)
        exact dropWhile_cons_of_neg (by simp [hw c hc])
    rw [hs, reverse_reverse]
  rw [Text.trim, String.toList_ofList, hh, hl]

lemma firstPart_sizeLine (hdig : ∀ b ∈ digits, (Lib.Http1.hexDigit b).isSome)
    (hr : rest = [] ∨ (rest.dropWhile Lib.Http1.isOws).head? = some 59)
    (hs : utf8 s = digits ++ rest) :
    ∃ blanks, Text.firstPart ';' s = String.ofList (digits.map charOf ++ blanks) ∧
      ∀ c ∈ blanks, Text.isWhitespace c := by
  have hdi : ∀ b ∈ digits, b.toNat < 128 ∧ charOf b ≠ ';' := by
    intro b hb
    obtain ⟨d, hd⟩ := isSome_iff_exists.mp (hdig b hb)
    exact ⟨((digit_spec b).1 d hd).1, ((digit_spec b).1 d hd).2.2.2.1⟩
  rcases hr with rfl | hr
  · obtain ⟨t, hte, ht⟩ := toList_of_utf8 (fun b hb => (hdi b hb).1) hs
    have hn : t = [] := by
      cases t with
      | nil => rfl
      | cons =>
        have he := (append_eq_nil_iff.mp ht).1
        simp only [String.utf8EncodeChar] at he
        split_ifs at he
    subst hn
    refine ⟨[], ?_, by simp⟩
    have hno : Text.splitOnce ';' s = none := by
      rw [Text.splitOnce_eq_none, hte, append_nil]
      intro hm
      obtain ⟨b, hb, hch⟩ := List.mem_map.mp hm
      exact (hdi b hb).2 hch
    rw [Text.firstPart, hno, ← hte, String.ofList_toList]
  · -- the blanks and the semicolon are ASCII as well
    have hsp : rest =
        rest.takeWhile Lib.Http1.isOws ++ 59 :: (rest.dropWhile Lib.Http1.isOws).tail := by
      cases hdr : rest.dropWhile Lib.Http1.isOws with
      | nil => rw [hdr] at hr; cases hr
      | cons =>
        rw [hdr] at hr
        cases hr
        rw [tail_cons, ← hdr, takeWhile_append_dropWhile]
    have ho : ∀ b ∈ rest.takeWhile Lib.Http1.isOws, b.toNat < 128 ∧
        Text.isWhitespace (charOf b) ∧ charOf b ≠ ';' :=
      fun b hb => (digit_spec b).2 (mem_takeWhile_imp hb)
    generalize rest.takeWhile Lib.Http1.isOws = blanks at hsp ho
    have hs' : utf8 s = (digits ++ blanks ++ [59]) ++ (rest.dropWhile Lib.Http1.isOws).tail := by
      rw [hs, append_assoc, append_assoc, singleton_append, ← hsp]
    obtain ⟨t, hte, -⟩ := toList_of_utf8 (by
      intro b hb
      simp only [mem_append, mem_singleton] at hb
      rcases hb with (hb | hb) | rfl
      · exact (hdi b hb).1
      · exact (ho b hb).1
      · decide) hs'
    have hw : ';' ∉ (String.ofList (digits.map charOf ++ blanks.map charOf)).toList := by
      rw [String.toList_ofList, ← map_append]
      intro hm
      obtain ⟨b, hb, hch⟩ := List.mem_map.mp hm
      rcases mem_append.mp hb with hb | hb
      · exact (hdi b hb).2 hch
      · exact (ho b hb).2.2 hch
    have hcu := Text.splitOnce_append hw (String.ofList t)
    have hst : s = String.ofList (digits.map charOf ++ blanks.map charOf) ++
        String.singleton ';' ++ String.ofList t := by
      apply String.toList_injective
      rw [hte]
      simp [charOf]
    refine ⟨blanks.map charOf, ?_, ?_⟩
    · rw [Text.firstPart, hst, hcu]
    · intro c hc
      obtain ⟨b, hb, rfl⟩ := List.mem_map.mp hc
      exact (ho b hb).2.1

structure SizeLine where
  line : Bytes
  size : Nat
  no_cr : 13 ∉ line
  chunkSize_eq : Lib.Http1.chunkSize line = some size

def SizeLine.Decodable (l : SizeLine) : Prop :=
  (Text.fromUtf8 l.line).isSome = true ∧ l.size < 2 ^ 64

instance (l : SizeLine) : Decidable l.Decodable := inferInstanceAs (Decidable (_ ∧ _))

lemma chunkSize_sizeLine (l : SizeLine) :
    chunkSize l.line = if l.Decodable then .ok l.size else .error (.ofKind .invalidData) := by
  cases hs : Text.fromUtf8 l.line with
  | none =>
    have hn : ¬ l.Decodable := fun h => by simp [SizeLine.Decodable, hs] at h
    rw [if_neg hn, chunkSize, hs]
    rfl
  | some s =>
    have hsi := l.chunkSize_eq
    simp only [Lib.Http1.chunkSize] at hsi
    split at hsi
    case isFalse => cases hsi
    rename_i hl
    obtain ⟨hne, hre⟩ := hl
    let digits := l.line.takeWhile (fun b => (Lib.Http1.hexDigit b).isSome)
    have hdi : ∀ b ∈ digits, (Lib.Http1.hexDigit b).isSome :=
      fun b hb => mem_takeWhile_imp (p := fun b => (Lib.Http1.hexDigit b).isSome) hb
    have hby : utf8 s = digits ++ l.line.drop digits.length := by
      rw [Lib.Http1.utf8_of_fromUTF8 hs]
      exact (prefix_iff_eq_append.mp ( takeWhile_prefix _)).symm
    obtain ⟨blanks, hf, hblanks⟩ := firstPart_sizeLine hdi hre hby
    have hw : ∀ c ∈ digits.map charOf, Text.isWhitespace c = false ∧ c ≠ '+' := by
      intro c hc
      obtain ⟨b, hb, rfl⟩ := List.mem_map.mp hc
      obtain ⟨d, hd⟩ := isSome_iff_exists.mp (hdi b hb)
      exact ⟨((digit_spec b).1 d hd).2.2.1, ((digit_spec b).1 d hd).2.2.2.2⟩
    have hword_ne : digits.map charOf ≠ [] := fun h => hne (map_eq_nil_iff.mp h)
    have hsig : ¬ (digits.map charOf).head? = some '+' := by
      cases hd : digits.map charOf with
      | nil => exact absurd hd hword_ne
      | cons c =>
        rw [head?_cons, some.injEq]
        exact (hw c (hd ▸ mem_cons_self)).2
    have hv : value 0 digits = l.size := some.inj hsi
    have hr : fromStrRadix16 (String.ofList (digits.map charOf)) =
        if l.size < 2 ^ 64 then some l.size else none := by
      simp only [fromStrRadix16, String.toList_ofList, if_neg hsig, if_neg hword_ne]
      rw [foldlM_readDigit16 hdi (by decide), hv]
    have hp : (Text.fromUtf8 l.line).bind
        (fun line => fromStrRadix16 (Text.trim (Text.firstPart ';' line))) =
        if l.size < 2 ^ 64 then some l.size else none := by
      rw [hs, bind_some, hf, trim_append hword_ne (fun c hc => (hw c hc).1) hblanks, hr]
    rw [chunkSize, hp]
    by_cases hlt : l.size < 2 ^ 64
    · rw [if_pos hlt, if_pos ⟨by rw [hs]; rfl, hlt⟩]
    · rw [if_neg hlt, if_neg (fun h => hlt h.2)]

end TrustTunnel.ReverseProxy
