import TrustTunnel.AddrText
import TrustTunnel.DeepLinkCert

/-!
# Subscription URLs (`client_config.rs`)

The credentials of a client are put into the URL it gets its settings from.
-/

namespace TrustTunnel.ClientConfig

open Io String Lib Option
open Lib.Http1 (utf8)
open NetUtils (Parser.toDigit)

/-! ## The endpoint -/

def isUnreserved (b : UInt8) : Bool :=
  (0x30 ≤ b && b ≤ 0x39) || (0x41 ≤ b && b ≤ 0x5a) || (0x61 ≤ b && b ≤ 0x7a) ||
    b == 0x2d || b == 0x2e || b == 0x5f || b == 0x7e

def percentEncodeByte (b : UInt8) : List Char :=
  if isUnreserved b then [Char.ofNat b.toNat] else '%' :: (DeepLink.hexUpper b.toNat).toList

def percentEncodeUserinfo (s : String) : String := ofList ((utf8 s).flatMap percentEncodeByte)

def endsAuthority (c : Char) : Bool := c == '/' || c == '?' || c == '#'

def splitAuthority (url : String) : String × String :=
  (ofList (url.toList.takeWhile (!endsAuthority ·)),
    ofList (url.toList.dropWhile (!endsAuthority ·)))

def stripPrefix (p s : String) : Option String :=
  if Text.startsWith p s then some (ofList (s.toList.drop p.toList.length)) else none

def buildSubscriptionUrl (base username password : String) : String :=
  let rest := (stripPrefix "https://" base).getD base
  let (authority, tail) := splitAuthority rest
  let authority := ((Text.rsplitOnce '@' authority).map (·.2)).getD authority
  let hostPath := authority ++ tail
  "https://" ++ percentEncodeUserinfo username ++ ":" ++ percentEncodeUserinfo password ++ "@" ++ hostPath

def validateSubscriptionUrlOverride (url : String) : Except String Unit :=
  match stripPrefix "https://" url with
  | none => .error "--subscription-url must be an https:// URL"
  | some rest =>
    let (authority, _) := splitAuthority rest
    if authority.isEmpty then .error "--subscription-url must specify a host"
    else if Text.contains '@' authority then
      .error "--subscription-url must not contain credentials; they are appended from credentials.toml"
    else .ok ()

/-! ## RFC 3986 -/

/-- The components of a URL; `host` has the port in it. -/
structure Url where
  scheme : List Char
  userinfo : Option (List Char)
  host : List Char
  path : List Char
  query : Option (List Char)
  fragment : Option (List Char)

def cut (sep : Char) (l : List Char) : List Char × Option (List Char) :=
  match splitOnce sep l with
  | some (a, b) => (a, some b)
  | none => (l, none)

def splitUrl (url : List Char) : Option Url :=
  match splitOnce ':' url with
  | some (scheme, '/' :: '/' :: rest) =>
    if scheme = [] ∨ scheme.any endsAuthority then none
    else
      let authority := rest.takeWhile (!endsAuthority ·)
      let (userinfo, host) := match splitOnce '@' authority with
        | some (userinfo, host) => (some userinfo, host)
        | none => (none, authority)
      let (pathQuery, fragment) := cut '#' (rest.dropWhile (!endsAuthority ·))
      let (path, query) := cut '?' pathQuery
      some ⟨scheme, userinfo, host, path, query, fragment⟩
  | _ => none

def percentDecode : List Char → Option Bytes
  | [] => some []
  | '%' :: x :: y :: rest => do
    let x ← Parser.toDigit 16 x
    let y ← Parser.toDigit 16 y
    let bytes ← percentDecode rest
    some (UInt8.ofNat (16 * x + y) :: bytes)
  | '%' :: _ => none
  | c :: rest => (percentDecode rest).map (utf8EncodeChar c ++ ·)

/-! ## Percent-encoding -/

def hexDigit (n : Nat) : Char := "0123456789ABCDEF".toList.getD n '0'

lemma percentEncodeByte_eq (b : UInt8) :
    percentEncodeByte b = [Char.ofNat b.toNat] ∧ Char.ofNat b.toNat ≠ '%' ∧
        utf8EncodeChar (Char.ofNat b.toNat) = [b] ∨
      percentEncodeByte b = ['%', hexDigit (b.toNat / 16), hexDigit (b.toNat % 16)] := by
  have ha : ∀ i < 16, ∀ j < 16,
      percentEncodeByte (UInt8.ofNat (16 * i + j)) = [Char.ofNat (16 * i + j)] ∧
        Char.ofNat (16 * i + j) ≠ '%' ∧
        utf8EncodeChar (Char.ofNat (16 * i + j)) = [UInt8.ofNat (16 * i + j)] ∨
      percentEncodeByte (UInt8.ofNat (16 * i + j)) = ['%', hexDigit i, hexDigit j] := by
    decide +kernel
  have hb := b.toNat_lt
  have hd := ha (b.toNat / 16) (by omega) (b.toNat % 16) (by omega)
  rwa [Nat.div_add_mod, UInt8.ofNat_toNat] at hd

lemma percentDecode_byte (b : UInt8) (rest : List Char) :
    percentDecode (percentEncodeByte b ++ rest) = (percentDecode rest).map (b :: ·) := by
  have hd : ∀ n : Fin 16, Parser.toDigit 16 (hexDigit n) = some n.val := by decide +kernel
  have hb := b.toNat_lt
  rcases percentEncodeByte_eq b with ⟨heq, hne, hu⟩ | heq
  · rw [heq, List.singleton_append, percentDecode, hu]
    · rfl
    · exact fun _ _ _ h => absurd h hne
    · exact hne
  · have hh := hd ⟨b.toNat / 16, by omega⟩
    have hl := hd ⟨b.toNat % 16, by omega⟩
    have hby : 16 * (b.toNat / 16) + b.toNat % 16 = b.toNat := by omega
    simp only [heq, List.cons_append, List.nil_append, percentDecode, hh, hl, bind_eq_bind,
      bind_some, hby, UInt8.ofNat_toNat]
    cases percentDecode rest <;> rfl

lemma percentDecode_encode (s : String) : percentDecode (percentEncodeUserinfo s).toList =
    some (utf8 s) := by
  rw [percentEncodeUserinfo, toList_ofList]
  induction utf8 s with
  | nil => rfl
  | cons b bytes ih => rw [List.flatMap_cons, percentDecode_byte, ih]; rfl

lemma notMem_encode (s : String) : ∀ c ∈ (percentEncodeUserinfo s).toList,
    endsAuthority c = false ∧ c ≠ ':' ∧ c ≠ '@' := by
  -- digit by digit and in `Bool`, so that the evaluation does not nest too deep
  have ha : ∀ i < 16, ∀ j < 16, (percentEncodeByte (UInt8.ofNat (16 * i + j))).all
      (fun c => !endsAuthority c && c != ':' && c != '@') := by
    decide +kernel
  intro c hc
  rw [percentEncodeUserinfo, toList_ofList] at hc
  obtain ⟨b, -, hc⟩ := List.mem_flatMap.mp hc
  have hb := b.toNat_lt
  have hd := ha (b.toNat / 16) (by omega) (b.toNat % 16) (by omega)
  rw [Nat.div_add_mod, UInt8.ofNat_toNat] at hd
  simpa [and_assoc] using List.all_eq_true.mp hd c hc

/-! ## Authorities -/

lemma split_append {a tail : List Char} (ha : ∀ c ∈ a, endsAuthority c = false)
    (ht : ∀ c ∈ tail.head?, endsAuthority c) : (a ++ tail).takeWhile (!endsAuthority ·) = a ∧
      (a ++ tail).dropWhile (!endsAuthority ·) = tail := by
  have hn : ∀ c ∈ a, (!endsAuthority c) := fun c hc => by rw [ha c hc]; rfl
  rw [List.takeWhile_append_of_pos hn, List.dropWhile_append_of_pos hn]
  cases tail with
  | nil => exact ⟨List.append_nil a, rfl⟩
  | cons c =>
    have hc : (!endsAuthority c) = false := by rw [ht c rfl]; rfl
    rw [List.takeWhile_cons_of_neg (by rw [hc]; exact Bool.false_ne_true),
      List.dropWhile_cons_of_neg (by rw [hc]; exact Bool.false_ne_true)]
    exact ⟨List.append_nil a, rfl⟩

def authorityOf (userinfo : Option (List Char)) (host : List Char) : List Char :=
  match userinfo with
  | none => host
  | some userinfo => userinfo ++ '@' :: host

lemma mem_authorityOf (h : c ∈ host) : c ∈ authorityOf userinfo host := by
  cases userinfo with
  | none => exact h
  | some u => exact List.mem_append_right u (List.mem_cons_of_mem '@' h)

structure IsUrl (url : String) (userinfo : Option (List Char)) (host tail : List Char) : Prop where
  text : url.toList = "https://".toList ++ (authorityOf userinfo host ++ tail)
  authority : ∀ c ∈ authorityOf userinfo host, endsAuthority c = false
  at_host : '@' ∉ host
  at_userinfo : ∀ u ∈ userinfo, '@' ∉ u
  rest : ∀ c ∈ tail.head?, endsAuthority c = true

variable {url : String} {userinfo : Option (List Char)} {host tail : List Char}

lemma IsUrl.stripPrefix (h : IsUrl url userinfo host tail) :
    stripPrefix "https://" url = some (ofList (authorityOf userinfo host ++ tail)) := by
  rw [ClientConfig.stripPrefix, Text.startsWith, h.text,
    if_pos (List.isPrefixOf_iff_prefix.mpr (List.prefix_append _ _)), List.drop_left]

lemma IsUrl.splitAuthority (h : IsUrl url userinfo host tail) :
    splitAuthority (ofList (authorityOf userinfo host ++ tail)) =
      (ofList (authorityOf userinfo host), ofList tail) := by
  obtain ⟨ht, hd⟩ := split_append h.authority h.rest
  rw [ClientConfig.splitAuthority, toList_ofList, ht, hd]

lemma isUrl_of_validate (h : validateSubscriptionUrlOverride url = .ok ()) :
    ∃ host tail, IsUrl url none host tail := by
  unfold validateSubscriptionUrlOverride at h
  split at h
  · cases h
  · rename_i hr
    obtain ⟨-, h⟩ := ite_error_eq_ok.mp h
    obtain ⟨hat, -⟩ := ite_error_eq_ok.mp h
    obtain ⟨hs, ⟨⟩⟩ := ite_none_right_eq_some.mp hr
    obtain ⟨text, ht⟩ := List.isPrefixOf_iff_prefix.mp hs
    rw [← ht, List.drop_left] at hat
    simp only [Text.contains, toList_ofList, decide_eq_true_eq] at hat
    refine ⟨text.takeWhile (!endsAuthority ·), text.dropWhile (!endsAuthority ·), ?_, ?_, hat,
      (fun _ h => by cases h), ?_⟩
    · rw [authorityOf, List.takeWhile_append_dropWhile, ht]
    · intro c hc
      simpa using List.mem_takeWhile_imp hc
    · intro c hc
      have hh := List.head?_dropWhile_not (fun c => !endsAuthority c) text
      rw [mem_def.mp hc] at hh
      simpa using hh

/-! ## The URL that is built -/

def credentials (username password : String) : List Char :=
  (percentEncodeUserinfo username).toList ++ ':' :: (percentEncodeUserinfo password).toList

lemma rsplitOnce_authority (hhost : '@' ∉ host) (huserinfo : ∀ u ∈ userinfo, '@' ∉ u) :
    ((Text.rsplitOnce '@' (ofList (authorityOf userinfo host))).map (·.2)).getD
      (ofList (authorityOf userinfo host)) = ofList host := by
  rw [Text.rsplitOnce, toList_ofList]
  have hr : '@' ∉ host.reverse := by rwa [List.mem_reverse]
  cases userinfo with
  | none =>
    rw [authorityOf, splitOnce_eq_none.mpr hr]
    rfl
  | some u =>
    have hs : (authorityOf (some u) host).reverse = host.reverse ++ '@' :: u.reverse := by
      simp [authorityOf]
    rw [hs, splitOnce_append hr]
    simp

lemma IsUrl.build_text (h : IsUrl url userinfo host tail) (username password : String) :
    (buildSubscriptionUrl url username password).toList =
      "https://".toList ++ (authorityOf (some (credentials username password)) host ++ tail) := by
  rw [buildSubscriptionUrl, h.stripPrefix, getD_some, h.splitAuthority]
  simp only [rsplitOnce_authority h.at_host h.at_userinfo]
  simp [authorityOf, credentials]

lemma IsUrl.build (h : IsUrl url userinfo host tail) (username password : String) :
    IsUrl (buildSubscriptionUrl url username password)
      (some (credentials username password)) host tail where
  text := h.build_text username password
  authority := by
    rw [authorityOf, credentials, List.append_assoc, List.cons_append]
    refine List.forall_mem_append.mpr ⟨fun c hc => (notMem_encode username c hc).1,
      List.forall_mem_cons.mpr ⟨rfl, List.forall_mem_append.mpr
        ⟨fun c hc => (notMem_encode password c hc).1,
          List.forall_mem_cons.mpr ⟨rfl, fun c hc => ?_⟩⟩⟩⟩
    exact h.authority c (mem_authorityOf hc)
  at_host := h.at_host
  at_userinfo := by
    rintro _ ⟨⟩ hm
    rcases List.mem_append.mp hm with hm | hm
    · exact (notMem_encode username _ hm).2.2 rfl
    · rcases List.mem_cons.mp hm with heq | hm
      · cases heq
      · exact (notMem_encode password _ hm).2.2 rfl
  rest := h.rest

lemma IsUrl.splitUrl (h : IsUrl url userinfo host tail) :
    splitUrl url.toList = some ⟨"https".toList, userinfo, host, (cut '?' (cut '#' tail).1).1,
      (cut '?' (cut '#' tail).1).2, (cut '#' tail).2⟩ := by
  have hs : splitOnce ':' url.toList =
      some ("https".toList, '/' :: '/' :: (authorityOf userinfo host ++ tail)) := by
    rw [h.text]
    exact splitOnce_append (a := "https".toList) (by decide) _
  have hu : (match splitOnce '@' (authorityOf userinfo host) with
      | some (userinfo, host) => (some userinfo, host)
      | none => (none, authorityOf userinfo host)) = (userinfo, host) := by
    cases userinfo with
    | none => rw [authorityOf, splitOnce_eq_none.mpr h.at_host]
    | some u => rw [authorityOf, splitOnce_append (h.at_userinfo u rfl)]
  obtain ⟨ht, hd⟩ := split_append h.authority h.rest
  rw [ClientConfig.splitUrl, hs]
  simp only [ht, hd, hu]
  exact if_neg (by decide)

/-- **The subscription URL** has the parts of its base, with the credentials in between. -/
theorem subscriptionUrl_parts (url : String) (h : validateSubscriptionUrlOverride url = .ok ())
    (username password : String) :
    ∃ parts user pass, splitUrl url.toList = some parts ∧ parts.scheme = "https".toList ∧
      parts.userinfo = none ∧
      splitUrl (buildSubscriptionUrl url username password).toList =
        some { parts with userinfo := some (user ++ ':' :: pass) } ∧
      splitOnce ':' (user ++ ':' :: pass) = some (user, pass) ∧
      percentDecode user = some (utf8 username) ∧ percentDecode pass = some (utf8 password) ∧
      ∀ username' password',
        buildSubscriptionUrl (buildSubscriptionUrl url username password) username' password' =
          buildSubscriptionUrl url username' password' := by
  obtain ⟨host, tail, hu⟩ := isUrl_of_validate h
  have hb := hu.build username password
  have hc : ':' ∉ (percentEncodeUserinfo username).toList :=
    fun hm => (notMem_encode username _ hm).2.1 rfl
  refine ⟨_, (percentEncodeUserinfo username).toList, (percentEncodeUserinfo password).toList,
    hu.splitUrl,
    rfl, rfl, hb.splitUrl, splitOnce_append hc _, percentDecode_encode username,
    percentDecode_encode password, fun username' password' => ?_⟩
  rw [← toList_inj, hb.build_text, hu.build_text]

/-- A password with separators in it, and an `@` in the query. -/
theorem exampleUrl_parts :
    validateSubscriptionUrlOverride "https://vpn.example:8443/sub?user=a@b#top" = .ok () ∧
    ∃ parts user pass, splitUrl "https://vpn.example:8443/sub?user=a@b#top".toList = some parts ∧
      splitUrl (buildSubscriptionUrl "https://vpn.example:8443/sub?user=a@b#top" "bob"
        "p@ss:w/rd").toList =
        some { parts with userinfo := some (user ++ ':' :: pass) } ∧
      percentDecode pass = some (utf8 "p@ss:w/rd") := by
  have hv : validateSubscriptionUrlOverride "https://vpn.example:8443/sub?user=a@b#top" =
    .ok () := by
    decide +kernel
  obtain ⟨parts, user, pass, hp, -, -, hb, -, -, hpa, -⟩ :=
    subscriptionUrl_parts _ hv "bob" "p@ss:w/rd"
  exact ⟨hv, parts, user, pass, hp, hb, hpa⟩

end TrustTunnel.ClientConfig
