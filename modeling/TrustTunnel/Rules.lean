import TrustTunnel.AddrText
import TrustTunnel.Text

/-!
# Connection filtering rules (`rules.rs`)

The first rule that matches decides, by address, random and server name. Other crates are
parameters (`Crates`).
-/

namespace TrustTunnel.Rules

open Io NetUtils List Parser
open Lib.Http1 (utf8)

/-- `IpNet`, `hex::decode`, HKDF, the digest, and one block encrypted without padding. -/
structure Crates where
  ipNet : String → Option (IpAddr → Bool)
  hexDecode : String → Option Bytes
  hkdfSha256 (secret salt info : Bytes) : Option Bytes
  sha256 : Bytes → Bytes
  aes128Ecb (key block : Bytes) : Option Bytes

inductive RuleAction where
  | allow
  | deny
  deriving DecidableEq

structure Rule where
  cidr : Option String
  clientRandomPrefix : Option String
  clientRandomAuthKey : Option String
  action : RuleAction

/-- `RulesEngine`, with its `RulesConfig`. -/
structure RulesEngine where
  rules : List Rule

inductive RuleEvaluation where
  | allow
  | deny
  deriving DecidableEq

def constantTimeEq (ciphertext expected : Bytes) : Bool :=
  (zipWith (fun a b => a ^^^ b) ciphertext expected).foldl (fun diff b => diff ||| b) 0 == 0

def validateClientRandomAuthKey (x : Crates) (authKey clientRandom : Bytes) (sni : String) : Bool :=
  if clientRandom.length ≠ 32 ∨ sni.isEmpty ∨ authKey.isEmpty then false
  else
    let (random, ciphertext) := clientRandom.splitAt 16
    match x.hkdfSha256 authKey random (utf8 "tls13 encryption context") with
    | none => false
    | some derivedKey =>
      match x.aes128Ecb derivedKey ((x.sha256 (utf8 sni)).take 16) with
      | none => false
      | some buf => constantTimeEq ciphertext (buf.take 16)

namespace Rule

/-- The address; `none` is the early return on an invalid network. -/
def checkCidr (x : Crates) (rule : Rule) (clientIp : IpAddr) : Option Bool :=
  match rule.cidr with
  | none => some true
  | some cidr => (x.ipNet cidr).map (fun contains => contains clientIp)

def maskedMatch (clientRandom prefixBytes maskBytes : Bytes) : Bool :=
  let maskLen := min (min maskBytes.length prefixBytes.length) clientRandom.length
  decide (0 < maskLen) && (range maskLen).all (fun i =>
    (clientRandom.getD i 0 &&& maskBytes.getD i 0) == (prefixBytes.getD i 0 &&& maskBytes.getD i 0))

/-- A random against `prefix[/mask]`; `none` for a bad text. -/
def checkPrefix (x : Crates) (prefixStr : String) (clientRandom : Bytes) : Option Bool :=
  match Text.splitOnce '/' prefixStr with
  | some (prefixPart, maskPart) =>
    match x.hexDecode prefixPart, x.hexDecode maskPart with
    | some prefixBytes, some maskBytes => some (maskedMatch clientRandom prefixBytes maskBytes)
    | _, _ => none
  | none => (x.hexDecode prefixStr).map (fun prefixBytes => prefixBytes.isPrefixOf clientRandom)

def checkAuthKey (x : Crates) (authHex : String) (clientRandom : Option Bytes)
    (sni : Option String) : Bool :=
  match clientRandom, sni with
  | some clientRandomData, some sniStr =>
    match x.hexDecode authHex with
    | some authBytes => validateClientRandomAuthKey x authBytes clientRandomData sniStr
    | none => false
  | _, _ => false

def checkClientRandom (x : Crates) (rule : Rule) (clientRandom : Option Bytes)
    (sni : Option String) : Option Bool :=
  match rule.clientRandomAuthKey with
  | some authHex => some (checkAuthKey x authHex clientRandom sni)
  | none =>
    match rule.clientRandomPrefix with
    | none => some true
    | some prefixStr =>
      match clientRandom with
      | some clientRandomData => checkPrefix x prefixStr clientRandomData
      | none => some false

/-- `Rule::matches`. -/
def «matches» (x : Crates) (rule : Rule) (clientIp : IpAddr) (clientRandom : Option Bytes)
    (sni : Option String) : Bool :=
  match rule.checkCidr x clientIp with
  | none => false
  | some inNet =>
    match rule.checkClientRandom x clientRandom sni with
    | none => false
    | some ok => inNet && ok

lemma matches_iff {rule : Rule} :
    rule.matches x clientIp clientRandom sni ↔ rule.checkCidr x clientIp = some true ∧
        rule.checkClientRandom x clientRandom sni = some true := by
  unfold «matches»
  cases rule.checkCidr x clientIp with
  | none => simp
  | some =>
    cases rule.checkClientRandom x clientRandom sni with
    | none => simp
    | some => simp [Bool.and_eq_true]

end Rule

namespace RulesEngine

def hasPrefixRule (engine : RulesEngine) : Bool :=
  engine.rules.any (fun r => r.clientRandomPrefix.isSome)

def hasAuthKeyRule (engine : RulesEngine) : Bool :=
  engine.rules.any (fun r => r.clientRandomAuthKey.isSome)

def evaluate (x : Crates) (engine : RulesEngine) (clientIp : IpAddr) (clientRandom : Option Bytes)
    (sni : Option String) : RuleEvaluation :=
  let sniIsMissing := sni.all String.isEmpty
  if (clientRandom.isNone && (engine.hasPrefixRule || engine.hasAuthKeyRule))
      || (sniIsMissing && engine.hasAuthKeyRule) then .deny
  else
    match engine.rules.find? (fun rule => rule.matches x clientIp clientRandom sni) with
    | none => .allow
    | some rule =>
      match rule.action with
      | .allow => .allow
      | .deny => .deny

end RulesEngine

/-! ## What the rules read -/

variable {x : Crates}

lemma Rule.matches_eq_of_anySni {rule : Rule} (hk : rule.clientRandomAuthKey = none)
    (clientIp : IpAddr) (clientRandom : Option Bytes) (sni sni' : Option String) :
    rule.matches x clientIp clientRandom sni = rule.matches x clientIp clientRandom sni' := by
  have hc : rule.checkClientRandom x clientRandom sni =
      rule.checkClientRandom x clientRandom sni' := by
    simp [Rule.checkClientRandom, hk]
  simp [Rule.matches, hc]

lemma Rule.matches_eq_of_anyRandom {rule : Rule} (hk : rule.clientRandomAuthKey = none)
    (hp : rule.clientRandomPrefix = none) (clientIp : IpAddr)
    (clientRandom clientRandom' : Option Bytes) (sni sni' : Option String) :
    rule.matches x clientIp clientRandom sni = rule.matches x clientIp clientRandom' sni' := by
  have hc : rule.checkClientRandom x clientRandom sni =
      rule.checkClientRandom x clientRandom' sni' := by
    simp [Rule.checkClientRandom, hk, hp]
  simp [Rule.matches, hc]

namespace RulesEngine

section

variable {engine : RulesEngine} {clientIp : IpAddr} {clientRandom : Option Bytes}
  {sni : Option String}

lemma hasPrefixRule_eq_false :
    engine.hasPrefixRule = false ↔ ∀ r ∈ engine.rules, r.clientRandomPrefix = none := by
  simp [hasPrefixRule]

lemma hasAuthKeyRule_eq_false :
    engine.hasAuthKeyRule = false ↔ ∀ r ∈ engine.rules, r.clientRandomAuthKey = none := by
  simp [hasAuthKeyRule]

/-- What the connection lacks, no rule asks for. -/
structure Shows (engine : RulesEngine) (clientRandom : Option Bytes) (sni : Option String) :
    Prop where
  random : clientRandom = none → engine.hasPrefixRule = false ∧ engine.hasAuthKeyRule = false
  name : sni.all String.isEmpty = true → engine.hasAuthKeyRule = false

def firstMatch (x : Crates) (engine : RulesEngine) (clientIp : IpAddr)
    (clientRandom : Option Bytes) (sni : Option String) : RuleAction :=
  match engine.rules.find? (fun rule => rule.matches x clientIp clientRandom sni) with
  | none => .allow
  | some rule => rule.action

lemma evaluate_eq_allow : engine.evaluate x clientIp clientRandom sni = .allow ↔
      engine.Shows clientRandom sni ∧ engine.firstMatch x clientIp clientRandom sni = .allow := by
  have hl : (match engine.rules.find? (fun rule => rule.matches x clientIp clientRandom sni) with
      | none => RuleEvaluation.allow
      | some rule => match rule.action with
        | .allow => RuleEvaluation.allow
        | .deny => RuleEvaluation.deny) = .allow ↔
      engine.firstMatch x clientIp clientRandom sni = .allow := by
    unfold firstMatch
    cases engine.rules.find? (fun rule => rule.matches x clientIp clientRandom sni) with
    | none => simp
    | some rule => cases hr : rule.action <;> simp [hr]
  unfold evaluate
  by_cases hm : ((clientRandom.isNone && (engine.hasPrefixRule || engine.hasAuthKeyRule))
      || (sni.all String.isEmpty && engine.hasAuthKeyRule))
  · simp only [hm, ↓reduceIte, reduceCtorEq, false_iff, not_and]
    intro hs
    rcases (Bool.or_eq_true _ _).mp hm with h | h
    · obtain ⟨hn, hr⟩ := (Bool.and_eq_true _ _).mp h
      obtain ⟨hp, hk⟩ := hs.random (Option.isNone_iff_eq_none.mp hn)
      simp [hp, hk] at hr
    · obtain ⟨hn, hr⟩ := (Bool.and_eq_true _ _).mp h
      simp [hs.name hn] at hr
  · simp only [hm, Bool.false_eq_true, ↓reduceIte]
    rw [hl]
    refine ⟨fun h => ⟨⟨?_, ?_⟩, h⟩, fun h => h.2⟩
    · rintro rfl
      simp at hm
      exact hm.1
    · intro hna
      simp only [hna, Bool.true_and, Bool.or_eq_true, not_or, Bool.not_eq_true] at hm
      exact hm.2

lemma firstMatch_congr (h : ∀ rule ∈ engine.rules, rule.matches x clientIp clientRandom sni =
      rule.matches x clientIp clientRandom' sni') : engine.firstMatch x clientIp clientRandom sni =
      engine.firstMatch x clientIp clientRandom' sni' := by
  have hf : ∀ rules : List Rule, (∀ rule ∈ rules, rule.matches x clientIp clientRandom sni =
        rule.matches x clientIp clientRandom' sni') →
      rules.find? (fun rule => rule.matches x clientIp clientRandom sni) =
        rules.find? (fun rule => rule.matches x clientIp clientRandom' sni') := by
    intro rules hru
    induction rules with
    | nil => rfl
    | cons rule rules ih =>
      rw [find?_cons, find?_cons, hru rule mem_cons_self,
        ih (fun r hr => hru r (mem_cons_of_mem rule hr))]
  rw [firstMatch, firstMatch, hf engine.rules h]

/-- **Withholding never helps** to be allowed. -/
theorem evaluate_allow_of_withheld (engine : RulesEngine) (clientIp : IpAddr) (random : Bytes)
    (name : String) {clientRandom : Option Bytes} {sni : Option String}
    (hrandom : clientRandom = none ∨ clientRandom = some random)
    (hsni : sni = none ∨ sni = some "" ∨ sni = some name)
    (h : engine.evaluate x clientIp clientRandom sni = .allow) :
    engine.evaluate x clientIp (some random) (some name) = .allow := by
  obtain ⟨hs, hf⟩ := evaluate_eq_allow.mp h
  have hn : name.isEmpty = true → engine.hasAuthKeyRule = false := by
    intro he
    apply hs.name
    rcases hsni with rfl | rfl | rfl
    · rfl
    · rfl
    · exact he
  refine evaluate_eq_allow.mpr ⟨⟨fun h => (nomatch h), hn⟩, ?_⟩
  rw [← hf]
  apply firstMatch_congr
  intro rule hr
  rcases hrandom with rfl | rfl
  · obtain ⟨hp, hk⟩ := hs.random rfl
    exact rule.matches_eq_of_anyRandom (hasAuthKeyRule_eq_false.mp hk rule hr)
      (hasPrefixRule_eq_false.mp hp rule hr) clientIp _ _ _ _
  · by_cases hm : sni.all String.isEmpty = true
    · have hk := hasAuthKeyRule_eq_false.mp (hs.name hm) rule hr
      exact rule.matches_eq_of_anySni hk clientIp _ _ _
    · -- a name that is there and not empty is the client's own
      rcases hsni with rfl | rfl | rfl
      · exact absurd rfl hm
      · exact absurd rfl hm
      · rfl

/-- `hex::decode`. -/
def hexDecode (s : String) : Option Bytes := go s.toList
where
  go : List Char → Option Bytes
    | [] => some []
    | [_] => none
    | a :: b :: rest => do
      let a ← toDigit 16 a
      let b ← toDigit 16 b
      let rest ← go rest
      some (UInt8.ofNat (16 * a + b) :: rest)

def ipv4Bits (ip : Ipv4Addr) : Nat :=
  ((ip.a.toNat * 256 + ip.b.toNat) * 256 + ip.c.toNat) * 256 + ip.d.toNat

/-- The IPv4 networks of `IpNet`. -/
def ipv4Net (s : String) : Option (IpAddr → Bool) :=
  match Text.splitOnce '/' s with
  | none => none
  | some (addr, len) =>
    match parseIpAddr addr,
      parseWith (readNumber 10 (some 2) true 33) len.toList with
    | some (.v4 net), some len =>
      some (fun
        | .v4 ip => ipv4Bits ip / 2 ^ (32 - len) == ipv4Bits net / 2 ^ (32 - len)
        | .v6 _ => false)
    | _, _ => none

/-! ## Masks -/

section

variable {clientRandom prefixBytes : Bytes}

/-- A mask of all the bits of `n` bytes. -/
def fullMask (n : Nat) : String := String.ofList (replicate (2 * n) 'f')

lemma hexDecode_fullMask (n : Nat) : hexDecode (fullMask n) = some (replicate n 0xff) := by
  rw [hexDecode, fullMask, String.toList_ofList]
  induction n with
  | zero => rfl
  | succ n ih =>
    rw [Nat.mul_succ, replicate_succ, replicate_succ, hexDecode.go, ih]
    rfl

lemma slash_notMem_of_hexDecode (h : hexDecode s = some bytes) : '/' ∉ s.toList := by
  rw [hexDecode] at h
  generalize s.toList = text at h
  have hs : toDigit 16 '/' = none := by decide
  fun_induction hexDecode.go text generalizing bytes with
  | case1 => exact not_mem_nil
  | case2 => cases h
  | case3 a b rest ih =>
    obtain ⟨x, ha, h⟩ := Option.bind_eq_some_iff.mp h
    obtain ⟨y, hb, h⟩ := Option.bind_eq_some_iff.mp h
    obtain ⟨z, hr, -⟩ := Option.bind_eq_some_iff.mp h
    rw [mem_cons, mem_cons, not_or, not_or]
    refine ⟨?_, ?_, ih hr⟩
    · rintro rfl
      cases hs.symm.trans ha
    · rintro rfl
      cases hs.symm.trans hb

lemma maskedMatch_full : Rule.maskedMatch clientRandom prefixBytes
    (replicate prefixBytes.length 0xff) ↔
    prefixBytes ≠ [] ∧ clientRandom ≠ [] ∧ (prefixBytes <+: clientRandom ∨
      clientRandom <+: prefixBytes) := by
  have ha : ((range (min prefixBytes.length clientRandom.length)).all fun i =>
      (clientRandom.getD i 0 &&& (replicate prefixBytes.length 0xff).getD i 0) ==
        (prefixBytes.getD i 0 &&& (replicate prefixBytes.length 0xff).getD i 0)) ↔
      prefixBytes <+: clientRandom ∨ clientRandom <+: prefixBytes := by
    induction prefixBytes generalizing clientRandom with
    | nil => simp
    | cons b bytes ih =>
      cases clientRandom with
      | nil => simp
      | cons =>
        have hb (b : UInt8) : b &&& 0xff = b := by
          rw [← UInt8.toNat_inj, UInt8.toNat_and]
          exact Nat.and_two_pow_sub_one_of_lt_two_pow (n := 8) b.toNat_lt
        simp only [length_cons, Nat.add_min_add_right, range_succ_eq_map, all_cons, all_map,
          Function.comp_def, replicate_succ, getD_cons_zero, getD_cons_succ, Bool.and_eq_true,
          ih, hb, beq_iff_eq, cons_prefix_cons]
        grind
  rw [Rule.maskedMatch, length_replicate, Nat.min_self, Bool.and_eq_true, ha, decide_eq_true_eq,
    Nat.lt_min, length_pos_iff, length_pos_iff, and_assoc]

/-- **A full mask** changes nothing exactly if the prefix is not empty and the random empty or
not shorter. -/
theorem fullMask_iff (x : Crates) (hx : x.hexDecode = hexDecode) (rule : Rule) (p : String) (bytes : Bytes)
    (hp : hexDecode p = some bytes) (clientIp : IpAddr) (clientRandom : Option Bytes) (sni : Option String) :
    { rule with clientRandomPrefix := some p }.matches x clientIp clientRandom sni =
        { rule with clientRandomPrefix := some (p ++ String.singleton '/' ++ fullMask bytes.length) }.matches x
          clientIp clientRandom sni ↔
      (rule.clientRandomAuthKey = none → rule.checkCidr x clientIp = some true →
        ∀ random, clientRandom = some random →
          bytes ≠ [] ∧ (random = [] ∨ bytes <+: random ∨ ¬ random <+: bytes)) := by
  obtain ⟨cidr, old, key, action⟩ := rule
  cases key with
  | some => exact iff_of_true rfl (fun h => by cases h)
  | none =>
    cases clientRandom with
    | none => exact iff_of_true rfl (fun _ _ _ h => by cases h)
    | some random =>
      have hs := slash_notMem_of_hexDecode hp
      have hpl : Rule.checkPrefix x p random = some (bytes.isPrefixOf random) := by
        rw [Rule.checkPrefix, Text.splitOnce_eq_none.mpr hs, hx, hp]
        rfl
      have hm : Rule.checkPrefix x (p ++ String.singleton '/' ++ fullMask bytes.length) random =
          some (Rule.maskedMatch random bytes (replicate bytes.length 0xff)) := by
        rw [Rule.checkPrefix, Text.splitOnce_append hs, hx]
        simp [hp, hexDecode_fullMask]
      rw [Bool.eq_iff_iff, Rule.matches_iff, Rule.matches_iff]
      simp only [Rule.checkClientRandom, hpl, hm, Option.some.injEq, maskedMatch_full,
        isPrefixOf_iff_prefix]
      grind [Rule.checkCidr]

end

def keyless : Crates :=
  { ipNet := ipv4Net, hexDecode, hkdfSha256 := fun _ _ _ => none, sha256 := fun bytes => bytes,
    aes128Ecb := fun _ _ => none }

def officeRules : RulesEngine :=
  ⟨[⟨some "203.0.113.0/24", none, none, .deny⟩, ⟨none, some "aabb/fff0", none, .allow⟩,
    ⟨none, none, none, .deny⟩]⟩

theorem officePrefix_fullMask :
    Rule.matches keyless ⟨none, some "aabb", none, .allow⟩ (.v4 ⟨198, 51, 100, 7⟩) (some [0xaa, 0xbb, 0x01]) none =
      Rule.matches keyless ⟨none, some ("aabb" ++ String.singleton '/' ++ fullMask 2), none, .allow⟩
        (.v4 ⟨198, 51, 100, 7⟩) (some [0xaa, 0xbb, 0x01]) none := by
  refine (fullMask_iff keyless rfl ⟨none, none, none, .allow⟩ "aabb" [0xaa, 0xbb] (by decide +kernel) _ _ _).mpr ?_
  rintro - - _ ⟨⟩
  decide

theorem shortRandom_fullMask :
    Rule.matches keyless ⟨none, some "aabb", none,
      .allow⟩ (.v4 ⟨198, 51, 100, 7⟩) (some [0xaa]) none = false ∧
    Rule.matches keyless ⟨none, some "aabb/ffff", none,
      .allow⟩ (.v4 ⟨198, 51, 100, 7⟩) (some [0xaa]) none = true ∧
    Rule.matches keyless ⟨none, some "", none, .allow⟩ (.v4 ⟨198, 51, 100, 7⟩) (some [0xaa]) none =
      true ∧
    Rule.matches keyless ⟨none, some "/", none, .allow⟩ (.v4 ⟨198, 51, 100, 7⟩) (some [0xaa]) none =
      false := by
  decide +kernel

theorem officeRules_allow :
    officeRules.evaluate keyless (.v4 ⟨198, 51, 100, 7⟩) (some [0xaa, 0xb1]) none = .allow ∧
      officeRules.evaluate keyless (.v4 ⟨198, 51, 100, 7⟩) (some [0xaa, 0xb1])
        (some "vpn.example") = .allow := by
  have h : officeRules.evaluate keyless (.v4 ⟨198, 51, 100, 7⟩) (some [0xaa, 0xb1]) none =
      .allow := by
    decide +kernel
  exact ⟨h, evaluate_allow_of_withheld officeRules _ _ _ (.inr rfl) (.inl rfl) h⟩

end

end RulesEngine

end TrustTunnel.Rules
