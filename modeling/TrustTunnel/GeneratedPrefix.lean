import Mathlib.Tactic.IntervalCases
import TrustTunnel.ExportPrefix

/-!
# Generated prefixes (`client_random_prefix.rs`, `endpoint/src/main.rs`)

The endpoint can draw a prefix with a mask, and put a rule that allows it in front of the others.
-/

namespace TrustTunnel.ClientRandomPrefix

open Io NetUtils Rules List RulesEngine Option

/-! ## Generation -/

inductive Error where
  | emptyMask
  | invalidLength (length : Nat)
  | invalidPercent (percent : UInt8)
  | maskTooLong (length : Nat)

structure GeneratorParams where
  length : Nat
  percent : UInt8

structure GeneratedPrefix where
  value : Bytes
  mask : Bytes

/-- A number below 100 for each bit of a mask, and the bytes of a value. -/
structure Draws where
  percent (byte bit : Nat) : Fin 100
  byte : Nat → UInt8

def validateParams (params : GeneratorParams) : Except Error Unit :=
  if ¬ (1 ≤ params.length ∧ params.length ≤ 32) then .error (.invalidLength params.length)
  else if ¬ (1 ≤ params.percent ∧ params.percent ≤ 100) then .error (.invalidPercent params.percent)
  else .ok ()

def validateMask (mask : Bytes) : Except Error Unit :=
  if mask.isEmpty then .error .emptyMask
  else if 32 < mask.length then .error (.maskTooLong mask.length)
  else .ok ()

def generateMask (draws : Draws) (length : Nat) (percent : UInt8) : Bytes :=
  (range length).map fun i => (range 8).foldl (fun byte bit =>
    if (draws.percent i bit).val < percent.toNat then byte ||| (1 <<< UInt8.ofNat bit) else byte) 0

def generateValue (draws : Draws) (mask : Bytes) : Bytes :=
  mask.mapIdx fun i maskByte => draws.byte i &&& maskByte

def generate (draws : Draws) (params : GeneratorParams) : Except Error GeneratedPrefix := do
  validateParams params
  let mask := generateMask draws params.length params.percent
  return ⟨generateValue draws mask, mask⟩

def generateWithMask (draws : Draws) (mask : Bytes) : Except Error GeneratedPrefix := do
  validateMask mask
  return ⟨generateValue draws mask, mask⟩

/-- `encode` is `hex::encode`. -/
def GeneratedPrefix.toMaskedHexString (encode : Bytes → String) (g : GeneratedPrefix) : String :=
  encode g.value ++ "/" ++ encode g.mask

def Generated (g : GeneratedPrefix) : Prop :=
  ∃ draws, (∃ params, generate draws params = .ok g) ∨ ∃ mask, generateWithMask draws mask = .ok g

lemma Generated.exists_draws (hg : Generated g) :
    ∃ draws, g.value = generateValue draws g.mask ∧ 1 ≤ g.mask.length ∧ g.mask.length ≤ 32 := by
  obtain ⟨draws, ⟨params, h⟩ | ⟨mask, h⟩⟩ := hg
  · refine ⟨draws, ?_⟩
    unfold generate validateParams at h
    split at h
    · cases h
    · rename_i hle
      split at h
      · cases h
      · cases h
        rw [not_not] at hle
        simpa [generateMask] using hle
  · refine ⟨draws, ?_⟩
    unfold generateWithMask validateMask at h
    split at h
    · cases h
    · rename_i he
      split at h
      · cases h
      · rename_i hl
        cases h
        refine ⟨rfl, length_pos_iff.mpr ?_, Nat.le_of_not_lt hl⟩
        simpa using he

lemma length_generateValue (draws : Draws) (mask : Bytes) :
    (generateValue draws mask).length = mask.length := by
  simp [generateValue]

lemma getD_generateValue (draws : Draws) (hi : i < mask.length) :
    (generateValue draws mask).getD i 0 = draws.byte i &&& mask.getD i 0 := by
  simp [generateValue, getD_eq_getElem?_getD, hi]

lemma Generated.value_masked (hg : Generated g)
    (hi : i < g.mask.length) : g.value.getD i 0 &&& g.mask.getD i 0 = g.value.getD i 0 := by
  obtain ⟨draws, hv, -⟩ := hg.exists_draws
  rw [hv, getD_generateValue draws hi, UInt8.and_assoc, UInt8.and_self]

lemma Generated.length_value (hg : Generated g) : g.value.length = g.mask.length := by
  obtain ⟨draws, hv, -⟩ := hg.exists_draws
  rw [hv, length_generateValue]

/-! ## The file of the rules -/

inductive Value where
  | string (s : String)
  | other

def Value.asStr : Value → Option String
  | string s => some s
  | other => none

/-- `toml_edit::Table`. -/
abbrev RuleTable := List (String × Value)

/-- What stands under `rule`, if anything does. -/
inductive Item where
  | arrayOfTables (tables : List RuleTable)
  | other

structure Document where
  rule : Option Item

/-- A table has a key only once, and an array of tables has a table. -/
def Document.regular (doc : Document) : Bool :=
  match doc.rule with
  | some (.arrayOfTables tables) =>
    !tables.isEmpty && tables.all fun table => (table.map Prod.fst).Nodup
  | _ => true

/-- What is written is read back, and an empty file has no rules. -/
structure Toml (F : Type) where
  empty : F
  parse : F → Except String Document
  print : Document → F
  parse_regular : ∀ f doc, parse f = .ok doc → doc.regular
  parse_print : ∀ doc, doc.regular → parse (print doc) = .ok doc
  parse_empty : parse empty = .ok ⟨none⟩

/-- `rule_table.get(key).and_then(Item::as_str)`. -/
def RuleTable.getStr (table : RuleTable) (key : String) : Option String :=
  (table.lookup key).bind Value.asStr

def ruleOfTable (table : RuleTable) : Option Rule :=
  ((table.getStr "action").bind fun s =>
    if s = "allow" then some RuleAction.allow else if s = "deny" then some .deny else none).map fun action =>
      ⟨table.getStr "cidr", table.getStr "client_random_prefix", table.getStr "client_random_auth_key",
        action⟩

variable {F : Type} (toml : Toml F)

/-- `deserialize_rules`: a bad file allows everything. -/
def deserializeRules (content : Option F) : RulesEngine :=
  match content with
  | none => ⟨[]⟩
  | some content =>
    match toml.parse content with
    | .error _ => ⟨[]⟩
    | .ok doc =>
      match doc.rule with
      | some (.arrayOfTables tables) => ⟨tables.filterMap ruleOfTable⟩
      | _ => ⟨[]⟩

/-- `append_allow_rule`: the file that is written. -/
def appendAllowRule (content : Option F) (clientRandomPrefix : String) : Except IoError F := do
  let doc ← (toml.parse (content.getD toml.empty)).mapError (fun e => ⟨.invalidData, e⟩)
  let newRule : RuleTable :=
    [("client_random_prefix", .string clientRandomPrefix), ("action", .string "allow")]
  match doc.rule.getD (.arrayOfTables []) with
  | .arrayOfTables tail => return toml.print { doc with rule := some (.arrayOfTables (newRule :: tail)) }
  | .other => .error ⟨.invalidData, "invalid rules format"⟩

def allowRule (clientRandomPrefix : String) : Rule := ⟨none, some clientRandomPrefix, none, .allow⟩

variable {toml}

lemma deserializeRules_append
    (h : appendAllowRule toml content clientRandomPrefix = .ok written) :
    deserializeRules toml (some written) =
      ⟨allowRule clientRandomPrefix :: (deserializeRules toml content).rules⟩ := by
  cases hp : toml.parse (content.getD toml.empty) with
  | error =>
    simp only [appendAllowRule, hp] at h
    cases h
  | ok doc =>
    simp only [appendAllowRule, hp] at h
    change (match doc.rule.getD (.arrayOfTables []) with
      | .arrayOfTables tail => _
      | .other => _) = _ at h
    split at h
    · rename_i tail ht
      cases h
      have hold : (deserializeRules toml content).rules = tail.filterMap ruleOfTable := by
        cases content with
        | none =>
          rw [getD_none, toml.parse_empty] at hp
          cases hp
          cases ht
          rfl
        | some =>
          rw [getD_some] at hp
          obtain ⟨rule⟩ := doc
          cases rule with
          | none =>
            cases ht
            simp only [deserializeRules, hp]
            rfl
          | some =>
            cases ht
            simp [deserializeRules, hp]
      have hr : Document.regular ⟨some (.arrayOfTables
          ([("client_random_prefix", .string clientRandomPrefix), ("action", .string "allow")] ::
            tail))⟩ := by
        have hreg := toml.parse_regular _ _ hp
        obtain ⟨_ | rule⟩ := doc <;> cases ht <;> simp_all [Document.regular]
      rw [hold]
      simp only [deserializeRules, toml.parse_print _ hr]
      rfl
    · cases h

/-! ## What the rules decide -/

section

variable {x : Crates}

lemma evaluate_cons (rule : Rule) (rules : List Rule) (clientIp : IpAddr) (c : Bytes)
    (hsn : sni ≠ "") : (⟨rule :: rules⟩ : RulesEngine).evaluate x clientIp (some c) (some sni) =
      if rule.matches x clientIp (some c) (some sni) then
        match rule.action with
        | .allow => .allow
        | .deny => .deny
      else (⟨rules⟩ : RulesEngine).evaluate x clientIp (some c) (some sni) := by
  have hs : (some sni).all String.isEmpty = false := by simpa using hsn
  simp only [evaluate, hs, isNone_some, Bool.false_and, Bool.or_self,
    Bool.false_eq_true, if_false, find?_cons]
  cases rule.matches x clientIp (some c) (some sni) <;> rfl

def Agrees (g : GeneratedPrefix) (c : Bytes) : Prop :=
  ∀ i < g.mask.length, c.getD i 0 &&& g.mask.getD i 0 = g.value.getD i 0

instance (g : GeneratedPrefix) (c : Bytes) : Decidable (Agrees g c) :=
  inferInstanceAs (Decidable (∀ i < _, _))

lemma maskedMatch_iff_agrees (hg : Generated g) (hc : c.length = 32) :
    Rule.maskedMatch c g.value g.mask ↔ Agrees g c := by
  obtain ⟨-, -, hp, hle⟩ := hg.exists_draws
  rw [ExportPrefix.maskedMatch_iff, hg.length_value, hc]
  constructor
  · rintro ⟨-, h⟩ i hi
    rw [h i hi hi (by omega), hg.value_masked hi]
  · intro h
    refine ⟨⟨hp, hp, by decide⟩, fun i hi _ _ => ?_⟩
    rw [h i hi, hg.value_masked hi]

/-- What is assumed of `hex::encode`: no slash, and `hex::decode` undoes it. -/
structure HexEncodes (x : Crates) (encode : Bytes → String) : Prop where
  no_slash : ∀ bytes, '/' ∉ (encode bytes).toList
  decode : ∀ bytes, x.hexDecode (encode bytes) = some bytes

lemma allowRule_matches_iff (hh : HexEncodes x encode)
    (hg : Generated g) (clientIp : IpAddr) (hc : c.length = 32) (sni : Option String) :
    (allowRule (g.toMaskedHexString encode)).matches x clientIp (some c) sni ↔ Agrees g c := by
  have hs : Text.splitOnce '/' (g.toMaskedHexString encode) = some (encode g.value, encode g.mask) :=
    Text.splitOnce_append (hh.no_slash g.value) (encode g.mask)
  rw [Rule.matches_iff, ← maskedMatch_iff_agrees hg hc]
  simp [Rule.checkCidr, Rule.checkClientRandom, allowRule, Rule.checkPrefix, hs, hh.decode]

end

/-- **A generated prefix works**: it admits the randoms that agree with it, and leaves the
others to the rules there were. -/
theorem generated_decides {x : Crates} {encode : Bytes → String} (hhex : HexEncodes x encode)
    {content : Option F} {written : F} {g : GeneratedPrefix} (hg : Generated g)
    (hwritten : appendAllowRule toml content (g.toMaskedHexString encode) = .ok written) (clientIp : IpAddr)
    {c : Bytes} (hc : c.length = 32) {sni : String} (hsni : sni ≠ "") :
    (deserializeRules toml (some written)).evaluate x clientIp (some c) (some sni) =
      if Agrees g c then .allow
      else (deserializeRules toml content).evaluate x clientIp (some c) (some sni) := by
  rw [deserializeRules_append hwritten, evaluate_cons _ _ _ _ hsni]
  simp only [allowRule_matches_iff hhex hg clientIp hc]
  rfl

/-! ## A rule in front of one that denies everything -/

lemma toDigit_digitChar (hn : n < 16) :
    Parser.toDigit 16 (Nat.digitChar n) = some n ∧ Nat.digitChar n ≠ '/' := by
  interval_cases n <;> decide

def hexEncode (bytes : Bytes) : String :=
  String.ofList (bytes.flatMap fun b => [Nat.digitChar (b.toNat / 16), Nat.digitChar (b.toNat % 16)])

lemma slash_notMem_hexEncode (bytes : Bytes) : '/' ∉ (hexEncode bytes).toList := by
  intro h
  simp only [hexEncode, String.toList_ofList, mem_flatMap, mem_cons, not_mem_nil, or_false] at h
  obtain ⟨b, -, hb⟩ := h
  have hlt := b.toNat_lt
  rcases hb with hb | hb
  · exact (toDigit_digitChar (Nat.div_lt_of_lt_mul hlt)).2 hb.symm
  · exact (toDigit_digitChar (Nat.mod_lt _ (by decide))).2 hb.symm

lemma hexDecode_hexEncode (bytes : Bytes) : hexDecode (hexEncode bytes) = some bytes := by
  rw [hexDecode, hexEncode, String.toList_ofList]
  induction bytes with
  | nil => rfl
  | cons b bytes ih =>
    have hlt := b.toNat_lt
    have hh := (toDigit_digitChar (Nat.div_lt_of_lt_mul hlt : b.toNat / 16 < 16)).1
    have hl := (toDigit_digitChar (Nat.mod_lt b.toNat (by decide : 0 < 16))).1
    have hb : UInt8.ofNat (16 * (b.toNat / 16) + b.toNat % 16) = b := by
      rw [Nat.div_add_mod, UInt8.ofNat_toNat]
    rw [flatMap_cons, cons_append, cons_append, nil_append, hexDecode.go, hh, hl, ih]
    simp only [bind_eq_bind, bind_some, hb]

lemma hexEncodes_keyless : HexEncodes keyless hexEncode :=
  ⟨slash_notMem_hexEncode, hexDecode_hexEncode⟩

def documents : Toml Document where
  empty := ⟨none⟩
  parse doc := if doc.regular then .ok doc else .error "irregular"
  print doc := doc
  parse_regular f doc h := by
    split at h <;> cases h
    assumption
  parse_print _ h := if_pos h
  parse_empty := rfl

/-- Every byte that is drawn is `0xab`. -/
def sameDraws : Draws := ⟨fun _ _ => 0, fun _ => 0xab⟩

def denial : Document := ⟨some (.arrayOfTables [[("action", .string "deny")]])⟩

theorem generated_decides_f0 : ∃ written,
    appendAllowRule documents (some denial)
      (GeneratedPrefix.toMaskedHexString hexEncode ⟨[0xa0], [0xf0]⟩) = .ok written ∧
    let verdict (c : Bytes) := (deserializeRules documents (some written)).evaluate keyless
      (.v4 ⟨198, 51, 100, 7⟩) (some c) (some "vpn.example")
    verdict (replicate 32 0xab) = .allow ∧ verdict (replicate 32 0xbb) = .deny := by
  have hg : Generated ⟨[0xa0], [0xf0]⟩ := ⟨sameDraws, .inr ⟨[0xf0], rfl⟩⟩
  refine ⟨_, rfl, ?_⟩
  have hd {c : Bytes} (hc : c.length = 32) := generated_decides hexEncodes_keyless hg
    (show appendAllowRule documents (some denial) _ = .ok _ from rfl) (.v4 ⟨198, 51, 100, 7⟩) hc
      (show "vpn.example" ≠ "" by decide)
  exact ⟨(hd (by decide)).trans (if_pos (by decide)),
    (hd (by decide)).trans ((if_neg (by decide)).trans rfl)⟩

end TrustTunnel.ClientRandomPrefix
