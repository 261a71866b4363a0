import TrustTunnel.Rules

/-!
# The exported prefix (`endpoint/src/main.rs`)

A client's prefix has to be that of some rule. Exported as `p` or `p/m`, it is what the client
will honour.
-/

namespace TrustTunnel.ExportPrefix

open Io Rules List RulesEngine Rule

variable (x : Crates)

/-- The same prefix, and a mask that is as strong. -/
def isCompatible (inputPrefix : String) (inputMask : Option String) (rule : Rule) : Bool :=
  match rule.clientRandomPrefix with
  | none => false
  | some p =>
    let (rulePrefix, ruleMask) := match Text.splitOnce '/' p with
      | some (a, b) => (a, some b)
      | none => (p, none)
    if rulePrefix ≠ inputPrefix then false
    else
      match inputMask, ruleMask with
      | _, none => true
      | none, some _ => true
      | some mi, some mr =>
        match x.hexDecode mi, x.hexDecode mr with
        | some mi, some mr =>
          decide (mr.length ≤ mi.length) &&
            (range mr.length).all (fun i => (mi.getD i 0 &&& mr.getD i 0) == mr.getD i 0)
        | _, _ => false

/-- The half against `rules.toml`: what `main` exits with, or the rule it found. -/
def validateAgainstRules (rulesEngine : Option RulesEngine) (value inputPrefix : String)
    (inputMask : Option String) : Except String (Option Rule) :=
  match rulesEngine with
  | none => .ok none
  | some engine =>
    match engine.rules.find? (isCompatible x inputPrefix inputMask) with
    | none => .error ("Error: No rule found in rules.toml matching client_random_prefix '" ++ value
        ++ "'. Add the rule first or omit --client-random-prefix.")
    | some rule =>
      if rule.action = .deny then
        .error ("Error: Matched rule in rules.toml for client_random_prefix '" ++ value
          ++ "' has action 'deny'.")
      else .ok (some rule)

/-- The validation of an explicit `--client-random-prefix`. -/
def validate (rulesEngine : Option RulesEngine) (value : String) : Except String (Option Rule) :=
  let hasSlash := Text.contains '/' value
  let (inputPrefix, inputMask) := (Text.splitOnce '/' value).getD (value, "")
  if (x.hexDecode inputPrefix).isNone then
    .error ("Error: client_random_prefix '" ++ value ++ "' is not valid hex")
  else if (hasSlash && inputMask.isEmpty)
      || (!inputMask.isEmpty && (x.hexDecode inputMask).isNone) then
    .error ("Error: client_random_prefix mask '" ++ inputMask ++ "' is not valid hex")
  else
    validateAgainstRules x rulesEngine value inputPrefix
      (if inputMask.isEmpty then none else some inputMask)

/-! ## What a client that was given the value may send -/

/-- A missing byte of the mask asks for nothing. -/
def AgreesUnder (p m c : Bytes) : Prop :=
  ∀ i < p.length, i < c.length ∧ c.getD i 0 &&& m.getD i 0 = p.getD i 0 &&& m.getD i 0

/-- The random is one for `p` or `p/m`. -/
def Carries (value : String) (c : Bytes) : Prop :=
  match Text.splitOnce '/' value with
  | none => ∃ p, x.hexDecode value = some p ∧ p <+: c
  | some (pText, mText) =>
    ∃ p m, x.hexDecode pText = some p ∧ x.hexDecode mText = some m ∧ AgreesUnder p m c

/-- The rule asks for no more than the value: its mask has bytes, or the value's leaves no bit
open. -/
def AsksNoMore (value : String) (rule : Rule) : Prop :=
  ∀ p, x.hexDecode ((Text.splitOnce '/' value).getD (value, "")).1 = some p →
    32 < p.length ∨
      match rule.clientRandomPrefix.bind (Text.splitOnce '/') with
      | some (_, ruleMask) => p ≠ [] ∧ ∃ m, x.hexDecode ruleMask = some m ∧ m ≠ []
      | none =>
        match Text.splitOnce '/' value with
        | none => True
        | some (_, inputMask) =>
          ∀ m, x.hexDecode inputMask = some m → ∀ i < p.length, m.getD i 0 = 0xff

/-! ## Bytes under a mask -/

section

variable {p c m : Bytes}

lemma isPrefixOf_iff_getD : p <+: c ↔ ∀ i < p.length, i < c.length ∧ c.getD i 0 = p.getD i 0 := by
  constructor
  · rintro ⟨rest, rfl⟩ i hi
    refine ⟨by simp; omega, ?_⟩
    simp [getD_eq_getElem?_getD, getElem?_append_left hi]
  · intro h
    rw [prefix_iff_getElem?]
    intro i hi
    obtain ⟨hc, heq⟩ := h i hi
    simp only [getD_eq_getElem?_getD, getElem?_eq_getElem hi,
      getElem?_eq_getElem hc, Option.getD_some] at heq
    rw [getElem?_eq_getElem hc, heq]

lemma maskedMatch_iff : maskedMatch c p m ↔ (0 < m.length ∧ 0 < p.length ∧ 0 < c.length) ∧
      ∀ i, i < m.length → i < p.length → i < c.length →
        c.getD i 0 &&& m.getD i 0 = p.getD i 0 &&& m.getD i 0 := by
  simp only [maskedMatch, Bool.and_eq_true, decide_eq_true_eq, all_eq_true,
    mem_range, beq_iff_eq, Nat.lt_min]
  constructor
  · rintro ⟨⟨⟨hm, hp⟩, hc⟩, h⟩
    exact ⟨⟨hm, hp, hc⟩, fun i him hip hic => h i ⟨⟨him, hip⟩, hic⟩⟩
  · rintro ⟨⟨hm, hp, hc⟩, h⟩
    exact ⟨⟨⟨hm, hp⟩, hc⟩, fun i hi => h i hi.1.1 hi.1.2 hi.2⟩

lemma and_eq_of_covered {c p strong weak : UInt8} (hc : strong &&& weak = weak)
    (h : c &&& strong = p &&& strong) : c &&& weak = p &&& weak := by
  rw [← hc, ← UInt8.and_assoc, h, UInt8.and_assoc]

lemma xor_not_and (b m : UInt8) : (b ^^^ ~~~m) &&& m = b &&& m := by
  apply UInt8.toBitVec_inj.mp
  ext i hi
  simp only [UInt8.toBitVec_and, UInt8.toBitVec_xor, UInt8.toBitVec_not, BitVec.getElem_and,
    BitVec.getElem_xor, BitVec.getElem_not]
  cases m.toBitVec[i] <;> simp

lemma xor_not_ne {b m : UInt8} (hm : m ≠ 0xff) : b ^^^ ~~~m ≠ b := by
  intro h
  have hz : ~~~m = 0 := by
    calc ~~~m = (b ^^^ b) ^^^ ~~~m := by rw [UInt8.xor_self, UInt8.zero_xor]
      _ = b ^^^ b := by rw [UInt8.xor_assoc, h]
      _ = 0 := UInt8.xor_self
  apply hm
  calc m = ~~~(~~~m) := UInt8.not_not.symm
    _ = 0xff := by rw [hz]; decide

lemma agreesUnder_of_isPrefixOf (h : p <+: c) (m : Bytes) : AgreesUnder p m c := by
  intro i hi
  obtain ⟨hc, heq⟩ := isPrefixOf_iff_getD.mp h i hi
  exact ⟨hc, by rw [heq]⟩

/-- A random of full length that starts with `p`. -/
def padded (p : Bytes) : Bytes := p ++ replicate (32 - p.length) 0

lemma padded_length (h : p.length ≤ 32) : (padded p).length = 32 := by
  rw [padded, length_append, length_replicate]
  omega

lemma isPrefixOf_padded (p : Bytes) : p <+: padded p := prefix_append p _

lemma agreesUnder_set (hp : p.length ≤ 32) :
    AgreesUnder p m ((padded p).set i (p.getD i 0 ^^^ ~~~(m.getD i 0))) := by
  intro j hj
  have hlen := padded_length hp
  refine ⟨by rw [length_set]; omega, ?_⟩
  by_cases hij : i = j
  · subst hij
    have hi : i < (padded p).length := by omega
    rw [getD_eq_getElem?_getD, getElem?_set_self hi, Option.getD_some, xor_not_and]
  · rw [getD_eq_getElem?_getD, getElem?_set_ne hij, ← getD_eq_getElem?_getD,
      (isPrefixOf_iff_getD.mp (isPrefixOf_padded p) j hj).2]

lemma forall_isPrefixOf_iff (p m : Bytes) :
    (∀ c : Bytes, c.length = 32 → AgreesUnder p m c → p <+: c) ↔
      32 < p.length ∨ ∀ i < p.length, m.getD i 0 = 0xff := by
  constructor
  · intro h
    by_cases hl : 32 < p.length
    · exact .inl hl
    right
    intro i hi
    by_contra hm
    have hp : p.length ≤ 32 := by omega
    have hle : ((padded p).set i (p.getD i 0 ^^^ ~~~(m.getD i 0))).length = 32 := by
      rw [length_set, padded_length hp]
    obtain ⟨-, heq⟩ := isPrefixOf_iff_getD.mp (h _ hle (agreesUnder_set hp)) i hi
    have hi' : i < (padded p).length := by rw [padded_length hp]; omega
    rw [getD_eq_getElem?_getD, getElem?_set_self hi', Option.getD_some] at heq
    exact xor_not_ne hm heq
  · rintro (hl | hf) c hc ha
    · have := (ha 32 hl).1
      omega
    · refine isPrefixOf_iff_getD.mpr (fun i hi => ?_)
      obtain ⟨hic, heq⟩ := ha i hi
      have hand : ∀ b : UInt8, b &&& 0xff = b := fun b => UInt8.and_neg_one (a := b)
      rw [hf i hi, hand, hand] at heq
      exact ⟨hic, heq⟩

end

/-! ## What the check establishes -/

/-- The value is `p` or `p/m`. -/
inductive Given (value pText : String) (p : Bytes) : Option Bytes → Prop
  | plain (hvalue : Text.splitOnce '/' value = none) (htext : value = pText)
      (hp : x.hexDecode pText = some p) : Given value pText p none
  | masked (mText : String) (m : Bytes) (hvalue : Text.splitOnce '/' value = some (pText, mText))
      (hp : x.hexDecode pText = some p) (hm : x.hexDecode mText = some m) :
      Given value pText p (some m)

/-- The rule is for `p`, its mask within the value's. -/
inductive Found (rule : Rule) (pText : String) (mask : Option Bytes) : Option String → Prop
  | plain (hrule : rule.clientRandomPrefix = some pText)
      (hsplit : Text.splitOnce '/' pText = none) : Found rule pText mask none
  | masked (text mr : String) (hrule : rule.clientRandomPrefix = some text)
      (hsplit : Text.splitOnce '/' text = some (pText, mr))
      (hcovers : ∀ m, mask = some m → ∃ r, x.hexDecode mr = some r ∧ r.length ≤ m.length ∧
        ∀ i < r.length, m.getD i 0 &&& r.getD i 0 = r.getD i 0) : Found rule pText mask (some mr)

variable {x}

section

variable {pText value : String} {inputMask : Option String} {rule : Rule}
  {rulesEngine : Option RulesEngine}

lemma found_of_isCompatible
    (hma : ∀ m, mask = some m → ∃ mText, inputMask = some mText ∧ x.hexDecode mText = some m)
    (h : isCompatible x pText inputMask rule) : ∃ ruleMask, Found x rule pText mask ruleMask := by
  unfold isCompatible at h
  cases hru : rule.clientRandomPrefix with
  | none => simp [hru] at h
  | some text =>
    cases hs : Text.splitOnce '/' text with
    | none =>
      simp only [hru, hs] at h
      by_cases ht : text = pText
      · subst ht
        exact ⟨none, .plain hru hs⟩
      · simp [ht] at h
    | some parts =>
      obtain ⟨rulePrefix, mr⟩ := parts
      simp only [hru, hs] at h
      by_cases ht : rulePrefix = pText
      · subst ht
        refine ⟨some mr, .masked text mr hru hs (fun m hm => ?_)⟩
        obtain ⟨mText, rfl, hm⟩ := hma m hm
        cases hr : x.hexDecode mr with
        | none => simp [hm, hr] at h
        | some r =>
          simp only [ne_eq, not_true_eq_false, ↓reduceIte, hm, hr, Bool.and_eq_true,
            decide_eq_true_eq, all_eq_true, mem_range, beq_iff_eq] at h
          exact ⟨r, rfl, h⟩
      · simp [ht] at h

lemma isCompatible_of_validateAgainstRules
    (h : validateAgainstRules x rulesEngine value pText inputMask = .ok (some rule)) :
    isCompatible x pText inputMask rule := by
  unfold validateAgainstRules at h
  split at h
  · cases h
  · split at h
    · cases h
    · rename_i hf
      split at h
      · cases h
      · cases h
        exact find?_some hf

/-- **The check.** -/
lemma accepted_of_validate (h : validate x rulesEngine value = .ok (some rule)) :
    ∃ pText p mask ruleMask, Given x value pText p mask ∧ Found x rule pText mask ruleMask := by
  unfold validate at h
  cases hsp : Text.splitOnce '/' value with
  | none =>
    have hs : Text.contains '/' value = false := by
      simpa [Text.contains] using Text.splitOnce_eq_none.mp hsp
    simp only [hsp, Option.getD_none, hs] at h
    cases hp : x.hexDecode value with
    | none => simp [hp] at h
    | some p =>
      have hr : validateAgainstRules x rulesEngine value value none = .ok (some rule) := by
        simpa [hp] using h
      have hn : ∀ m : Bytes, none = some m →
          ∃ mText, (none : Option String) = some mText ∧ x.hexDecode mText = some m := by
        intro m hm
        cases hm
      obtain ⟨ruleMask, hf⟩ :=
        found_of_isCompatible hn (isCompatible_of_validateAgainstRules hr)
      exact ⟨value, p, none, ruleMask, .plain hsp rfl hp, hf⟩
  | some parts =>
    obtain ⟨pText, mText⟩ := parts
    have hs : Text.contains '/' value := by
      by_contra hno
      rw [Text.splitOnce_eq_none.mpr (by simpa [Text.contains] using hno)] at hsp
      cases hsp
    simp only [hsp, Option.getD_some, hs, Bool.true_and] at h
    cases hp : x.hexDecode pText with
    | none => simp [hp] at h
    | some p =>
      cases he : mText.isEmpty with
      | true => simp [hp, he] at h
      | false =>
        cases hm : x.hexDecode mText with
        | none => simp [hp, he, hm] at h
        | some m =>
          have hr : validateAgainstRules x rulesEngine value pText (some mText) =
              .ok (some rule) := by
            simpa [hp, he, hm] using h
          obtain ⟨ruleMask, hf⟩ := found_of_isCompatible (fun m' hm' => ⟨mText, rfl, hm.trans hm'⟩)
            (isCompatible_of_validateAgainstRules hr)
          exact ⟨pText, p, some m, ruleMask, .masked mText m hsp hp hm, hf⟩

end

/-! ## The rule and the value -/

section

variable {value pText mr : String} {p c : Bytes} {mask : Option Bytes} {rule : Rule}

lemma Given.pText_eq (h : Given x value pText p mask) :
    ((Text.splitOnce '/' value).getD (value, "")).1 = pText ∧ x.hexDecode pText = some p := by
  cases h with
  | plain hv ht hp => exact ⟨by rw [hv]; exact ht, hp⟩
  | masked mText m hv hp => exact ⟨by rw [hv]; rfl, hp⟩

lemma carries_of_plain (hv : Text.splitOnce '/' value = none)
    (hp : x.hexDecode value = some p) : Carries x value c ↔ p <+: c := by
  simp [Carries, hv, hp]

lemma carries_of_masked
    (hv : Text.splitOnce '/' value = some (pText, mText)) (hp : x.hexDecode pText = some p)
    (hm : x.hexDecode mText = some m) : Carries x value c ↔ AgreesUnder p m c := by
  simp [Carries, hv, hp, hm]

lemma Given.carries_of_isPrefixOf (h : Given x value pText p mask) (hc : p <+: c) :
    Carries x value c := by
  cases h with
  | plain hv ht hp =>
    subst ht
    exact (carries_of_plain hv hp).mpr hc
  | masked mText m hv hp hm =>
    exact (carries_of_masked hv hp hm).mpr (agreesUnder_of_isPrefixOf hc m)

lemma Given.agrees {r : Bytes} (h : Given x value pText p mask) (hc : Carries x value c)
    (hcovers : ∀ m, mask = some m → ∃ r, x.hexDecode mr = some r ∧ r.length ≤ m.length ∧
      ∀ i < r.length, m.getD i 0 &&& r.getD i 0 = r.getD i 0) (hr : x.hexDecode mr = some r)
    {i : Nat} (hir : i < r.length) (hip : i < p.length) :
    c.getD i 0 &&& r.getD i 0 = p.getD i 0 &&& r.getD i 0 := by
  cases h with
  | plain hv ht hp =>
    subst ht
    have hs := (carries_of_plain hv hp).mp hc
    rw [(isPrefixOf_iff_getD.mp hs i hip).2]
  | masked mText m hv hp hm =>
    have ha := (carries_of_masked hv hp hm).mp hc
    obtain ⟨r', hr', -, hco⟩ := hcovers m rfl
    cases hr.symm.trans hr'
    exact and_eq_of_covered (hco i hir) (ha i hip).2

lemma Given.length_le (h : Given x value pText p mask) (hc : Carries x value c) :
    p.length ≤ c.length := by
  cases h with
  | plain hv ht hp =>
    subst ht
    have hs := (carries_of_plain hv hp).mp hc
    exact hs.length_le
  | masked mText m hv hp hm =>
    have ha := (carries_of_masked hv hp hm).mp hc
    by_contra hlong
    have := (ha c.length (by omega)).1
    omega

lemma checkClientRandom_of_plain (hk : rule.clientRandomAuthKey = none)
    (hr : rule.clientRandomPrefix = some pText) (hs : Text.splitOnce '/' pText = none)
    (hp : x.hexDecode pText = some p) (sni : Option String) :
    rule.checkClientRandom x (some c) sni = some true ↔ p <+: c := by
  simp [checkClientRandom, hk, hr, checkPrefix, hs, hp]

lemma checkClientRandom_of_masked (hk : rule.clientRandomAuthKey = none)
    (hr : rule.clientRandomPrefix = some text)
    (hs : Text.splitOnce '/' text = some (pText, mr)) (hp : x.hexDecode pText = some p)
    (sni : Option String) : rule.checkClientRandom x (some c) sni = some true ↔
      ∃ r, x.hexDecode mr = some r ∧ maskedMatch c p r := by
  simp only [checkClientRandom, hk, hr, checkPrefix, hs, hp]
  cases x.hexDecode mr with
  | none | some => simp

lemma admitted_iff_of_plain (h : Given x value pText p mask) :
    (∀ c : Bytes, c.length = 32 → Carries x value c → p <+: c) ↔
      32 < p.length ∨ match Text.splitOnce '/' value with
        | none => True
        | some (_, inputMask) =>
          ∀ m, x.hexDecode inputMask = some m → ∀ i < p.length, m.getD i 0 = 0xff := by
  cases h with
  | plain hv ht hp =>
    subst ht
    simp [carries_of_plain hv hp, hv]
  | masked mText m hv hp hm =>
    simp only [carries_of_masked hv hp hm, hv, hm, Option.some.injEq, forall_eq']
    exact forall_isPrefixOf_iff p m

lemma admitted_iff_of_masked (h : Given x value pText p mask)
    (hcovers : ∀ m, mask = some m → ∃ r, x.hexDecode mr = some r ∧ r.length ≤ m.length ∧
      ∀ i < r.length, m.getD i 0 &&& r.getD i 0 = r.getD i 0) :
    (∀ c : Bytes, c.length = 32 → Carries x value c →
        ∃ r, x.hexDecode mr = some r ∧ maskedMatch c p r) ↔
      32 < p.length ∨ (p ≠ [] ∧ ∃ r, x.hexDecode mr = some r ∧ r ≠ []) := by
  constructor
  · intro ha
    by_cases hl : 32 < p.length
    · exact .inl hl
    · have hp : p.length ≤ 32 := by omega
      obtain ⟨r, hr, hm⟩ := ha (padded p) (padded_length hp)
        (h.carries_of_isPrefixOf (isPrefixOf_padded p))
      obtain ⟨⟨hrp, hpp, -⟩, -⟩ := maskedMatch_iff.mp hm
      exact .inr ⟨ne_nil_of_length_pos hpp, r, hr, ne_nil_of_length_pos hrp⟩
  · rintro (hl | ⟨hp, r, hr, hrn⟩) c hc hca
    · have := h.length_le hca
      omega
    · refine ⟨r, hr, maskedMatch_iff.mpr ⟨⟨?_, ?_, ?_⟩, ?_⟩⟩
      · exact length_pos_iff.mpr hrn
      · exact length_pos_iff.mpr hp
      · omega
      · intro i hir hip _
        exact h.agrees hca hcovers hr hir hip

/-- **The exported prefix** is admitted exactly when the rule asks for no more than the value. -/
theorem exported_admitted_iff {rulesEngine : Option RulesEngine} {value : String} {rule : Rule}
    (hvalid : validate x rulesEngine value = .ok (some rule))
    (hkey : rule.clientRandomAuthKey = none) :
    (∀ c : Bytes, c.length = 32 → Carries x value c → ∀ sni : Option String,
        rule.checkClientRandom x (some c) sni = some true) ↔
      AsksNoMore x value rule := by
  obtain ⟨pText, p, mask, ruleMask, hg, hf⟩ := accepted_of_validate hvalid
  obtain ⟨hpT, hp⟩ := hg.pText_eq
  simp only [AsksNoMore, hpT, hp, Option.some.injEq, forall_eq']
  cases hf with
  | plain hr hs =>
    simp only [checkClientRandom_of_plain hkey hr hs hp, forall_const, hr,
      Option.bind_some, hs]
    exact admitted_iff_of_plain hg
  | masked text mr hr hs hcovers =>
    simp only [checkClientRandom_of_masked hkey hr hs hp, forall_const, hr,
      Option.bind_some, hs]
    exact admitted_iff_of_masked hg hcovers

def wholeRule : Rule := ⟨none, some "aabb", none, .allow⟩

/-- A random that agrees with `aabb` under `f0f0`. -/
def looseRandom : Bytes := padded [0xa0, 0xb0]

/-- A rule without a mask refuses some of its randoms. -/
theorem wholeRule_refuses :
    (validate keyless (some ⟨[wholeRule]⟩) "aabb/f0f0" = .ok (some wholeRule) ∧
      wholeRule.clientRandomAuthKey = none) ∧
    looseRandom.length = 32 ∧ Carries keyless "aabb/f0f0" looseRandom ∧
      ∀ sni, wholeRule.checkClientRandom keyless (some looseRandom) sni ≠ some true := by
  have hsp : Text.splitOnce '/' "aabb/f0f0" = some ("aabb", "f0f0") := by decide +kernel
  have hp : keyless.hexDecode "aabb" = some [0xaa, 0xbb] := by decide +kernel
  have hm : keyless.hexDecode "f0f0" = some [0xf0, 0xf0] := by decide +kernel
  have ha : ∀ i < 2, i < looseRandom.length ∧ looseRandom.getD i 0 &&& [0xf0, 0xf0].getD i 0 =
      [0xaa, 0xbb].getD i 0 &&& [0xf0, 0xf0].getD i 0 := by
    decide +kernel
  refine ⟨⟨by rfl, rfl⟩, by decide +kernel, (carries_of_masked hsp hp hm).mpr ha, ?_⟩
  intro sni h
  have hpl : Text.splitOnce '/' "aabb" = none := by decide +kernel
  have hk : wholeRule.clientRandomAuthKey = none := rfl
  have hs := (checkClientRandom_of_plain hk rfl hpl hp sni).mp h
  exact absurd hs (by decide +kernel)

def maskedRule : Rule := ⟨none, some "aabb/f0f0", none, .allow⟩

theorem maskedRule_admits : AsksNoMore keyless "aabb/fff0" maskedRule ∧
      ∀ c : Bytes, c.length = 32 → Carries keyless "aabb/fff0" c → ∀ sni,
        maskedRule.checkClientRandom keyless (some c) sni = some true := by
  have hv : validate keyless (some ⟨[maskedRule]⟩) "aabb/fff0" = .ok (some maskedRule) := by
    rfl
  have hs : maskedRule.clientRandomPrefix.bind (Text.splitOnce '/') = some ("aabb", "f0f0") := by
    decide +kernel
  have ha : AsksNoMore keyless "aabb/fff0" maskedRule := by
    intro p hp
    have hb : keyless.hexDecode
        ((Text.splitOnce '/' "aabb/fff0").getD ("aabb/fff0", "")).1 = some [0xaa, 0xbb] := by
      decide +kernel
    cases hp.symm.trans hb
    rw [hs]
    exact .inr ⟨by decide, [0xf0, 0xf0], by decide +kernel, by decide⟩
  exact ⟨ha, (exported_admitted_iff hv rfl).mpr ha⟩

end

end TrustTunnel.ExportPrefix
