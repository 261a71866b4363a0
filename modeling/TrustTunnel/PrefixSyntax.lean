import TrustTunnel.DeepLinkRoundTrip
import TrustTunnel.ExportPrefix

/-!
# The syntax of `client_random_prefix`

`prefix[/mask]` is checked by the subscription, the export, the wizard and the decoder of links,
and read by `Rule::matches`.
-/

namespace TrustTunnel

open Io Lib Rules.RulesEngine ExportPrefix DeepLink List Option
open NetUtils (IpAddr)
open Rules (Rule RuleAction)
open Lib.Http1 (utf8)

/-! ## The settings of the subscription -/

namespace Subscription

inductive ValidationError where
  | subscription (text : String)
  | invalidPath (text : String)
  deriving DecidableEq

/-- The fields of `SubscriptionSettings` that are validated. -/
structure SubscriptionSettings where
  path : String
  address : Option String
  clientRandomPrefix : Option String

/-- The paths of `Settings`. -/
structure Settings where
  pingPath : Option String
  speedtestPath : Option String
  reverseProxyPathMask : Option String

/-- `str::parse::<u16>`; a plus sign may come first. -/
def parseU16 (s : String) : Option Nat :=
  let digits := if s.toList.head? = some '+' then s.toList.tail else s.toList
  if digits.isEmpty || digits.any (fun c => (NetUtils.Parser.toDigit 10 c).isNone) then none
  else (some (NetUtils.Parser.digitsValue 10 digits)).filter (fun n => n < 2 ^ 16)

/-- The check of `client_random_prefix`. -/
def checkPrefix (x : Rules.Crates) (clientRandomPrefix : Option String) :
    Except ValidationError Unit :=
  match clientRandomPrefix.filter (fun s => !s.isEmpty) with
  | none => .ok ()
  | some text =>
    let (prefixPart, maskPart) := (Text.splitOnce '/' text).getD (text, "")
    if (x.hexDecode prefixPart).isNone then
      .error (.subscription ("subscription client_random_prefix is not valid hex: " ++ text))
    else if !maskPart.isEmpty && (x.hexDecode maskPart).isNone then
      .error (.subscription ("subscription client_random_prefix mask is not valid hex: " ++ text))
    else .ok ()

def checkPathOverlap (path : String) (other : Option String) : Except ValidationError Unit :=
  match other with
  | none => .ok ()
  | some other =>
    if path = other || Text.startsWith other path || Text.startsWith path other then
      .error (.invalidPath
        ("subscription path overlaps an existing path: " ++ path ++ " vs " ++ other))
    else .ok ()

def validate (x : Rules.Crates) (sub : SubscriptionSettings) (settings : Settings) :
    Except ValidationError Unit := do
  let path := sub.path
  let address := sub.address.getD ""
  if path.isEmpty || !Text.startsWith "/" path || path = "/" then
    .error (.invalidPath ("subscription path: " ++ path))
  else if ((Text.rsplitOnce ':' address).bind (fun parts => parseU16 parts.2)).all (fun port => port = 0) then
    .error (.subscription ("subscription address is not a valid host:port: " ++ address))
  else do
    checkPrefix x sub.clientRandomPrefix
    checkPathOverlap path settings.pingPath
    checkPathOverlap path settings.speedtestPath
    match settings.reverseProxyPathMask with
    | some pathMask => checkPathOverlap path (some pathMask)
    | none => .ok ()

end Subscription

/-! ## The setup wizard -/

namespace SetupWizard

def checkClientRandomValue (x : Rules.Crates) (value : String) : Except String Unit :=
  match Text.splitOnce '/' value with
  | some (prefixPart, maskPart) =>
    if maskPart.isEmpty then .error "Invalid format: mask is empty after '/'. Skipping rule."
    else if (x.hexDecode prefixPart).isNone then
      .error "Invalid hex format in prefix part. Skipping rule."
    else if (x.hexDecode maskPart).isNone then
      .error "Invalid hex format in mask part. Skipping rule."
    else .ok ()
  | none =>
    if (x.hexDecode value).isNone then .error "Invalid hex format. Skipping rule." else .ok ()

/-- `add_client_random_rule`, with the value and the action. -/
def addClientRandomRule (x : Rules.Crates) (rules : List Rule) (value : String) (action : RuleAction) :
    Except String (List Rule) := do
  checkClientRandomValue x value
  return rules ++ [⟨none, some value, none, action⟩]

end SetupWizard

/-! ## One syntax -/

namespace PrefixSyntax

/-- One crate for all callers; two digits are one byte. -/
structure HexLaws (x : Rules.Crates) (y : DeepLink.Crates) : Prop where
  same : ∀ s, (y.hexDecode s).toOption = x.hexDecode s
  empty : x.hexDecode "" = some []
  digits : ∀ s bytes, x.hexDecode s = some bytes → s.length = 2 * bytes.length

variable (x : Rules.Crates) (y : DeepLink.Crates)

def Subscribes (s : String) : Prop := Subscription.checkPrefix x (some s) = .ok ()

def Exports (s : String) : Prop := ∃ rule, validate x none s = .ok rule

def Adds (s : String) : Prop :=
  ∃ rules, SetupWizard.addClientRandomRule x [] s .allow = .ok rules

def Links (s : String) : Prop := ∃ text, decodePrefixField y (utf8 s) = .ok text

def Matchable (s : String) : Prop :=
  ∃ (clientIp : IpAddr) (clientRandom : Bytes) (sni : Option String), clientRandom.length = 32 ∧
    Rule.matches x ⟨none, some s, none, .allow⟩ clientIp (some clientRandom) sni = true

def OneSyntax (s : String) : Prop :=
  (Subscribes x s ↔ Exports x s) ∧ (Subscribes x s ↔ Adds x s) ∧ (Subscribes x s ↔ Links y s) ∧
    (Subscribes x s → Matchable x s)

variable {x y} {s : String}

def parts (s : String) : String × String := (Text.splitOnce '/' s).getD (s, "")

lemma subscription_iff (hs : s ≠ "") : Subscribes x s ↔
    (x.hexDecode (parts s).1).isSome ∧ ((parts s).2 = "" ∨ (x.hexDecode (parts s).2).isSome) := by
  have hf : (some s).filter (fun s => !s.isEmpty) = some s := by
    rw [filter_some, if_pos (by simpa using hs)]
  simp only [Subscribes, Subscription.checkPrefix, hf]
  change (if (x.hexDecode (parts s).1).isNone then _
    else if !(parts s).2.isEmpty && (x.hexDecode (parts s).2).isNone then _ else _) = _ ↔ _
  cases hp : x.hexDecode (parts s).1 with
  | none => simp
  | some => cases hm : x.hexDecode (parts s).2 <;> simp

lemma parts_mask (h : Text.contains '/' s = false) : parts s = (s, "") := by
  have hs : '/' ∉ s.toList := by simpa [Text.contains] using h
  rw [parts, Text.splitOnce_eq_none.mpr hs, getD_none]

lemma parts_slash (h : Text.splitOnce '/' s = some (p, m)) :
    parts s = (p, m) ∧ Text.contains '/' s := by
  refine ⟨by rw [parts, h, getD_some], ?_⟩
  by_contra hs
  have hn : Text.splitOnce '/' s = none :=
    Text.splitOnce_eq_none.mpr (by simpa [Text.contains] using hs)
  rw [hn] at h
  cases h

lemma endpoint_iff (hx : x.hexDecode "" = some []) : Exports x s ↔
    (x.hexDecode (parts s).1).isSome ∧ (x.hexDecode (parts s).2).isSome ∧
      (Text.contains '/' s → (parts s).2 ≠ "") := by
  simp only [Exports, validate]
  change (∃ rule, (if (x.hexDecode (parts s).1).isNone then _
    else if (Text.contains '/' s && (parts s).2.isEmpty)
      || (!(parts s).2.isEmpty && (x.hexDecode (parts s).2).isNone) then _
    else (.ok none : Except String (Option Rule))) = _) ↔ _
  cases hp : x.hexDecode (parts s).1 with
  | none => simp
  | some =>
    by_cases hm : (parts s).2 = ""
    · cases Text.contains '/' s <;> simp [hm, hx]
    · cases x.hexDecode (parts s).2 <;> simp [hm]

lemma wizard_iff (hx : x.hexDecode "" = some []) : Adds x s ↔
    (x.hexDecode (parts s).1).isSome ∧ (x.hexDecode (parts s).2).isSome ∧
      (Text.contains '/' s → (parts s).2 ≠ "") := by
  have hc : Adds x s ↔ SetupWizard.checkClientRandomValue x s = .ok () := by
    constructor
    · rintro ⟨rules, h⟩
      obtain ⟨_, h, -⟩ := bind_eq_ok.mp h
      exact h
    · intro h
      exact ⟨_, by rw [SetupWizard.addClientRandomRule, h]; rfl⟩
  rw [hc, SetupWizard.checkClientRandomValue]
  cases hsp : Text.splitOnce '/' s with
  | none =>
    have hs : Text.contains '/' s = false := by
      simpa [Text.contains] using Text.splitOnce_eq_none.mp hsp
    rw [parts_mask hs]
    cases x.hexDecode s <;> simp [hx, hs]
  | some pm =>
    obtain ⟨p, m⟩ := pm
    obtain ⟨hpa, hs⟩ := parts_slash hsp
    rw [hpa, hs]
    by_cases hm : m = ""
    · simp [hm]
    · cases hp : x.hexDecode p <;> cases hm' : x.hexDecode m <;> simp [hm, hp, hm']

lemma link_iff (h : HexLaws x y) : Links y s ↔
    (x.hexDecode (parts s).1).isSome ∧ (x.hexDecode (parts s).2).isSome := by
  have hh : ∀ t, DeepLink.IsHex y t ↔ (x.hexDecode t).isSome := by
    intro t
    rw [← h.same, DeepLink.IsHex]
    cases y.hexDecode t <;> simp [Except.toOption]
  rw [Links, decodePrefixField, decodeString_utf8, ← hh, ← hh]
  change (∃ text, (requireHex y _ (parts s).1 >>= fun _ =>
    requireHex y _ (parts s).2 >>= fun _ => .ok s) = .ok text) ↔ _
  simp [bind_eq_ok, requireHex_eq_ok_iff]

/-! ## What can be matched -/

lemma matchable_iff_checkPrefix : Matchable x s ↔
    ∃ c : Bytes, c.length = 32 ∧ Rule.checkPrefix x s c = some true := by
  constructor
  · rintro ⟨ip, c, sni, hc, h⟩
    exact ⟨c, hc, (Rule.matches_iff.mp h).2⟩
  · rintro ⟨c, hc, h⟩
    exact ⟨.v4 ⟨0, 0, 0, 0⟩, c, none, hc, Rule.matches_iff.mpr ⟨rfl, h⟩⟩

lemma matchable_plain (h : Text.splitOnce '/' s = none) : Matchable x s ↔
    ∃ p, x.hexDecode s = some p ∧ p.length ≤ 32 := by
  rw [matchable_iff_checkPrefix]
  simp only [Rule.checkPrefix, h, map_eq_some_iff, isPrefixOf_iff_prefix]
  constructor
  · rintro ⟨c, hc, p, hp, hpr⟩
    exact ⟨p, hp, hc ▸ hpr.length_le⟩
  · rintro ⟨p, hp, hl⟩
    exact ⟨padded p, padded_length hl, p, hp, isPrefixOf_padded p⟩

lemma exists_maskedMatch_iff :
    (∃ c : Bytes, c.length = 32 ∧ Rule.maskedMatch c p m) ↔ p ≠ [] ∧ m ≠ [] := by
  constructor
  · rintro ⟨c, hc, h⟩
    obtain ⟨⟨hm, hp, -⟩, -⟩ := maskedMatch_iff.mp h
    exact ⟨ne_nil_of_length_pos hp, ne_nil_of_length_pos hm⟩
  · rintro ⟨hp, hm⟩
    have hl : ((padded p).take 32).length = 32 := by
      simp only [padded, length_take, length_append, length_replicate]
      omega
    refine ⟨(padded p).take 32, hl, maskedMatch_iff.mpr ⟨⟨?_, ?_, ?_⟩, ?_⟩⟩
    · exact length_pos_of_ne_nil hm
    · exact length_pos_of_ne_nil hp
    · omega
    · intro i _ hip hic
      rw [hl] at hic
      simp [getElem?_take_of_lt hic, padded, getElem?_append_left hip]

lemma matchable_masked (h : Text.splitOnce '/' s = some (pText, mText)) : Matchable x s ↔
      ∃ p m, x.hexDecode pText = some p ∧ x.hexDecode mText = some m ∧ p ≠ [] ∧ m ≠ [] := by
  rw [matchable_iff_checkPrefix]
  simp only [Rule.checkPrefix, h]
  cases hp : x.hexDecode pText with
  | none => simp
  | some =>
    cases hm : x.hexDecode mText with
    | none => simp
    | some =>
      simp only [some.injEq, exists_maskedMatch_iff]
      simp

/-! ## Where they are the same -/

/-- At most 32 bytes without a slash; with one, neither side is empty. -/
def Regular (x : Rules.Crates) (s : String) : Prop :=
  match Text.splitOnce '/' s with
  | none => ∀ p, x.hexDecode s = some p → p.length ≤ 32
  | some (pText, mText) =>
    (x.hexDecode pText).isSome → mText ≠ "" ∧ ((x.hexDecode mText).isSome → pText ≠ "")

lemma ne_nil_iff (h : HexLaws x y) (hb : x.hexDecode s = some bytes) : bytes ≠ [] ↔ s ≠ "" := by
  have hl := h.digits s bytes hb
  rw [not_iff_not]
  constructor
  · rintro rfl
    exact String.length_eq_zero_iff.mp (by simpa using hl)
  · rintro rfl
    exact length_eq_zero_iff.mp (by simpa using hl.symm)

/-- **Where the validators agree and what they accept can be matched.** -/
theorem oneSyntax_iff (h : HexLaws x y) (hs : s ≠ "") : OneSyntax x y s ↔ Regular x s := by
  rw [OneSyntax, subscription_iff hs, endpoint_iff h.empty, wizard_iff h.empty, link_iff h, Regular]
  cases hsp : Text.splitOnce '/' s with
  | none =>
    have hsl : Text.contains '/' s = false := by
      simpa [Text.contains] using Text.splitOnce_eq_none.mp hsp
    rw [parts_mask hsl, matchable_plain hsp]
    cases hp : x.hexDecode s <;> simp [hsl, h.empty]
  | some pm =>
    obtain ⟨pText, mText⟩ := pm
    obtain ⟨hpa, hsl⟩ := parts_slash hsp
    rw [hpa, hsl, matchable_masked hsp]
    cases hp : x.hexDecode pText with
    | none => simp [hp]
    | some =>
      by_cases hma : mText = ""
      · simp [hma, hp, h.empty]
      · cases hm : x.hexDecode mText with
        | none => simp [hma, hm]
        | some =>
          have hpn := ne_nil_iff h hp
          have hmn := (ne_nil_iff h hm).mpr hma
          simp [hma, hmn, hpn, hp, hm]

lemma length_of_go (h : hexDecode.go l = some bytes) : l.length = 2 * bytes.length := by
  induction l using hexDecode.go.induct generalizing bytes with
  | case1 =>
    cases h
    rfl
  | case2 => cases h
  | case3 a b rest ih =>
    simp only [hexDecode.go, bind_eq_bind, bind_eq_some_iff] at h
    obtain ⟨_, -, _, -, tail, hr, heq⟩ := h
    cases heq
    simp only [length_cons, ih hr]
    omega

lemma hexLaws_standard : HexLaws keyless standard where
  same s := by
    simp only [standard, keyless]
    cases hexDecode s <;> rfl
  empty := rfl
  digits s bytes h := length_of_go h

theorem masked_oneSyntax : OneSyntax keyless standard "aabb/fff0" := by
  refine (oneSyntax_iff hexLaws_standard (by decide)).mpr ?_
  have hs : Text.splitOnce '/' "aabb/fff0" = some ("aabb", "fff0") := by decide
  simp only [Regular, hs]
  exact fun _ => ⟨by decide, fun _ => by decide⟩

/-- Two of four accept a slash at the end, all one at the beginning. -/
theorem slashes_apart : Subscribes keyless "aa/" ∧ Links standard "aa/" ∧
      ¬Exports keyless "aa/" ∧ ¬Adds keyless "aa/" ∧
    Subscribes keyless "/ff" ∧ Links standard "/ff" ∧ Exports keyless "/ff" ∧ Adds keyless "/ff" ∧
      ¬Matchable keyless "/ff" := by
  have he : keyless.hexDecode "" = some [] := rfl
  have hs : Text.splitOnce '/' "/ff" = some ("", "ff") := by decide
  rw [subscription_iff (by decide), subscription_iff (by decide), endpoint_iff he,
    endpoint_iff he, wizard_iff he, wizard_iff he, link_iff hexLaws_standard,
    link_iff hexLaws_standard, matchable_masked hs]
  refine ⟨by decide +kernel, by decide +kernel, by decide +kernel, by decide +kernel,
    by decide +kernel, by decide +kernel, by decide +kernel, by decide +kernel, ?_⟩
  rintro ⟨p, m, hp, -, hne, -⟩
  cases hp
  exact hne rfl

end PrefixSyntax

end TrustTunnel
