import TrustTunnel.AuthenticationGate
import TrustTunnel.CredentialsFile
import TrustTunnel.Text

/-!
# Credentials and who reads them

A client presents `base64(username ":" password)`. The registry compares it whole; tunnel, SOCKS5
forwarder and subscription handler cut it at the colon.
-/

namespace TrustTunnel.Credentials

open Io Http Lib Authentication TrustTunnel.Core List
open Lib.Http1 (utf8)
open HttpForwardedStream (Text.fromUtf8 Text.trim Text.isWhitespace)

structure Base64 (encode : Bytes → String) (decode : String → Except String Bytes) : Prop where
  decode_encode : ∀ bytes, decode (encode bytes) = .ok bytes
  visible : ∀ bytes, ∀ c ∈ (encode bytes).toList, 33 ≤ c.toNat ∧ c.toNat ≤ 126

/-! ## The readers -/

def decodeUsername (decode : String → Except String Bytes) (creds : String) : Option String :=
  ((decode creds).toOption.bind Text.fromUtf8).map (Text.firstPart ':')

/-- `socks5_client::Authentication`, as far as `make_auth` makes it. -/
inductive Socks5Authentication where
  | usernamePassword (username password : String)

/-- The errors of `make_auth`, without the standard library's text. -/
inductive AuthError where
  | base64 (text : String)
  | utf8
  | text (text : String)

def makeAuth (decode : String → Except String Bytes) :
    Source → Except AuthError Socks5Authentication
  | .sni x => .ok (.usernamePassword x x)
  | .proxyBasic x =>
    match decode x with
    | .error e => .error (.base64 e)
    | .ok bytes =>
      match Text.fromUtf8 bytes with
      | none => .error .utf8
      | some credentials =>
        match Text.splitOnce ':' credentials with
        | some (username, password) => .ok (.usernamePassword username password)
        | none => .error (.text "Expected colon-separated credentials")

def authenticate (decode : String → Except String Bytes) (clients : List Client)
    (request : RequestHeaders) : Option (String × String) := do
  let header ← (getHeader "authorization" request).bind toStr
  let encoded := Text.trim (← stripPrefix "Basic " header)
  let decoded ← (decode encoded).toOption
  let creds ← Text.fromUtf8 decoded
  let (user, pass) ← Text.splitOnce ':' creds
  let client ← clients.find? (fun c => c.username == user && c.password == pass)
  return (client.username, client.password)

/-- All read its credentials as its username and password. -/
structure ReadAs (encode : Bytes → String) (decode : String → Except String Bytes)
    (clients : List Client) (c : Client) : Prop where
  registry : ∀ source : Source, source.creds = c.key encode →
    (RegistryBasedAuthenticator.new encode clients).authenticate source = .pass ∧
      (RegistryBasedAuthenticator.new encode clients).username source = some c.username
  tunnel : decodeUsername decode (c.key encode) = some c.username
  socks5 : makeAuth decode (.proxyBasic (c.key encode)) =
    .ok (.usernamePassword c.username c.password)
  subscription : ∀ request, getHeader "authorization" request =
      some (utf8 ("Basic " ++ c.key encode)) →
    authenticate decode clients request = some (c.username, c.password)

def Colonless (c : Client) : Prop := ':' ∉ c.username.toList

/-! ## Texts -/

lemma fromUtf8_utf8 (s : String) : Text.fromUtf8 (utf8 s) = some s := Lib.Http1.fromUTF8_utf8 s

lemma toStr_utf8 (h : ∀ c ∈ s.toList, 32 ≤ c.toNat ∧ c.toNat ≤ 126) :
    toStr (utf8 s) = some s := by
  have ha : (utf8 s).all (fun b => (32 ≤ b && b < 127) || b == 9) := by
    rw [all_eq_true, Text.utf8_eq_flatMap]
    intro b hb
    obtain ⟨c, hc, hb⟩ := mem_flatMap.mp hb
    obtain ⟨hlo, hhi⟩ := h c hc
    rw [Text.utf8EncodeChar_ascii (by omega), mem_singleton] at hb
    have hby : b.toNat = c.toNat := by
      rw [hb, UInt8.toNat_ofNat']
      exact Nat.mod_eq_of_lt (by show c.toNat < 2 ^ 8; omega)
    have hl : (32 : UInt8) ≤ b := UInt8.le_iff_toNat_le.mpr (by rw [hby]; exact hlo)
    have hh : b < (127 : UInt8) :=
      UInt8.lt_iff_toNat_lt.mpr (by rw [hby]; exact Nat.lt_succ_of_le hhi)
    simp [hl, hh]
  rw [toStr, if_pos ha]
  exact fromUtf8_utf8 s

lemma stripPrefix_append (p s : String) : stripPrefix p (p ++ s) = some s := by
  simp [stripPrefix]

lemma trim_visible (h : ∀ c ∈ s.toList, 33 ≤ c.toNat ∧ c.toNat ≤ 126) : Text.trim s = s := by
  have hn : ∀ c ∈ s.toList, ¬ Text.isWhitespace c := by
    intro c hc
    obtain ⟨hlo, hhi⟩ := h c hc
    simp only [Text.isWhitespace, contains_eq_mem, mem_cons, not_mem_nil, or_false,
      Bool.or_eq_true, Bool.and_eq_true, decide_eq_true_eq]
    omega
  have hh : s.toList.dropWhile Text.isWhitespace = s.toList := by
    cases hs : s.toList with
    | nil => rfl
    | cons c => exact dropWhile_cons_of_neg (hn c (hs ▸ mem_cons_self))
  have hl : s.toList.rdropWhile Text.isWhitespace = s.toList :=
    rdropWhile_eq_self_iff.mpr (fun hne => hn _ (getLast_mem hne))
  rw [Text.trim, hh, hl, String.ofList_toList]

/-! ## The readers agree -/

section Readers

variable {encode : Bytes → String} {decode : String → Except String Bytes}
  (h : Base64 encode decode) {clients : List Client} {c : Client}

def joined (c : Client) : String := c.username ++ ":" ++ c.password

lemma splitOnce_joined (hc : Colonless c) :
    Text.splitOnce ':' (joined c) = some (c.username, c.password) :=
  Text.splitOnce_append hc c.password

include h

lemma decode_key (c : Client) : decode (c.key encode) = .ok (utf8 (joined c)) :=
  h.decode_encode _

lemma key_injective (hc : Colonless c) (hd : Colonless d)
    (hk : d.key encode = c.key encode) : d.username = c.username ∧ d.password = c.password := by
  have hb : utf8 (joined d) = utf8 (joined c) := by
    have hde := decode_key h d
    rw [hk, decode_key h c] at hde
    exact (Except.ok.inj hde).symm
  have ht : joined d = joined c := by
    have hd' := fromUtf8_utf8 (joined d)
    rw [hb, fromUtf8_utf8] at hd'
    exact (Option.some.inj hd').symm
  have hs := splitOnce_joined hd
  rw [ht, splitOnce_joined hc] at hs
  exact Prod.mk.inj (Option.some.inj hs.symm)

lemma username_registry (ha : ∀ d ∈ clients, Colonless d) (hc : c ∈ clients)
    (hs : source.creds = c.key encode) :
    (RegistryBasedAuthenticator.new encode clients).username source = some c.username := by
  rw [RegistryBasedAuthenticator.username, hs]
  refine Table.lookup_foldl_insert (Client.key encode) Client.username ?_ ∅ (.inr ⟨c, hc, rfl⟩)
  intro d hd hk
  exact (key_injective h (ha c hc) (ha d hd) hk).1

lemma authenticate_eq_some (hco : Colonless c) (hc : c ∈ clients)
    (hheader : getHeader "authorization" request = some (utf8 ("Basic " ++ c.key encode))) :
    authenticate decode clients request = some (c.username, c.password) := by
  have hv := h.visible (utf8 (joined c))
  have hs : toStr (utf8 ("Basic " ++ c.key encode)) = some ("Basic " ++ c.key encode) := by
    apply toStr_utf8
    intro d hd
    rw [String.toList_append, mem_append] at hd
    rcases hd with hd | hd
    · have ha : "Basic ".toList.all (fun d => 32 ≤ d.toNat && d.toNat ≤ 126) := by
        decide +kernel
      simpa using all_eq_true.mp ha d hd
    · exact ⟨Nat.le_of_succ_le (hv d hd).1, (hv d hd).2⟩
  have ht : Text.trim (c.key encode) = c.key encode := trim_visible hv
  obtain ⟨d, hf⟩ : ∃ d, clients.find? (fun d => d.username == c.username &&
      d.password == c.password) = some d :=
    Option.isSome_iff_exists.mp (find?_isSome.mpr ⟨c, hc, by simp⟩)
  have hd := find?_some hf
  simp only [Bool.and_eq_true, beq_iff_eq] at hd
  simp [authenticate, hheader, hs, stripPrefix_append, ht, decode_key h, Except.toOption,
    fromUtf8_utf8, splitOnce_joined hco, hf, hd]

lemma readAs_of_colonless (ha : ∀ d ∈ clients, Colonless d) (hc : c ∈ clients) :
    ReadAs encode decode clients c where
  registry source hs := by
    refine ⟨?_, username_registry h ha hc hs⟩
    rw [RegistryBasedAuthenticator.authenticate,
      if_pos ((mem_registry encode clients _).mpr ⟨c, hc, hs.symm⟩)]
  tunnel := by
    simp [decodeUsername, decode_key h, Except.toOption, fromUtf8_utf8, Text.firstPart,
      splitOnce_joined (ha c hc)]
  socks5 := by
    simp [makeAuth, decode_key h, fromUtf8_utf8, splitOnce_joined (ha c hc)]
  subscription request hheader := authenticate_eq_some h (ha c hc) hc hheader

lemma colonless_of_decodeUsername
    (hr : decodeUsername decode (c.key encode) = some c.username) : Colonless c := by
  simp only [decodeUsername, decode_key h, Except.toOption, Option.bind_some, fromUtf8_utf8,
    Option.map_some, Option.some.injEq] at hr
  rw [Colonless, ← hr]
  exact Text.firstPart_notMem ':' (joined c)

/-- **When there is one reading.** Exactly if no username has a colon. -/
theorem readings_agree_iff (clients : List Client) :
    (∀ c ∈ clients, ReadAs encode decode clients c) ↔ ∀ c ∈ clients, Colonless c :=
  ⟨fun hr _ hc => colonless_of_decodeUsername h (hr _ hc).tunnel,
    fun ha _ hc => readAs_of_colonless h ha hc⟩

end Readers

/-! ## The standard engine -/

def base64Value (c : Char) : Option Nat :=
  "ABCDEFGHIJKLMNOPQRSTUVWXYZabcdefghijklmnopqrstuvwxyz0123456789+/".toList.idxOf? c

def base64Decode (text : String) : Except String Bytes :=
  match go text.toList with
  | some bytes => .ok bytes
  | none => .error "Invalid input"
where
  go : List Char → Option Bytes
    | [] => some []
    | a :: b :: c :: d :: rest => do
      let x ← base64Value a
      let y ← base64Value b
      if d = '=' ∧ rest = [] then
        if c = '=' then
          if y % 16 = 0 then some [UInt8.ofNat (x * 4 + y / 16)] else none
        else
          let z ← base64Value c
          if z % 4 = 0 then some [UInt8.ofNat (x * 4 + y / 16), UInt8.ofNat (y % 16 * 16 + z / 4)]
          else none
      else
        let z ← base64Value c
        let w ← base64Value d
        let bytes ← go rest
        some (UInt8.ofNat (x * 4 + y / 16) :: UInt8.ofNat (y % 16 * 16 + z / 4) ::
          UInt8.ofNat (z % 4 * 64 + w) :: bytes)
    | _ => none

lemma base64_digit (n : Nat) :
    base64Value (base64.digit n) = some (n % 64) ∧ base64.digit n ≠ '=' ∧
      33 ≤ (base64.digit n).toNat ∧ (base64.digit n).toNat ≤ 126 := by
  have ha : ∀ k : Fin 64, base64Value (base64.digit k) = some k.val ∧
      base64.digit k ≠ '=' ∧ 33 ≤ (base64.digit k).toNat ∧
      (base64.digit k).toNat ≤ 126 := by
    decide +kernel
  have hd : base64.digit n = base64.digit (n % 64) := by
    rw [base64.digit, base64.digit, Nat.mod_mod]
  rw [hd]
  exact ha ⟨n % 64, Nat.mod_lt n (by decide)⟩

lemma ofNat_eq (h : k = a.toNat) : UInt8.ofNat k = a := by
  rw [h, UInt8.ofNat_toNat]

section

variable {x y z w : Nat}

lemma go_one (hb : y % 64 % 16 = 0) : base64Decode.go [base64.digit x, base64.digit y, '=', '='] =
      some [UInt8.ofNat (x % 64 * 4 + y % 64 / 16)] := by
  simp [base64Decode.go, (base64_digit _).1, hb, bind]

lemma go_two (hb : z % 64 % 4 = 0) :
    base64Decode.go [base64.digit x, base64.digit y, base64.digit z, '='] =
      some [UInt8.ofNat (x % 64 * 4 + y % 64 / 16),
        UInt8.ofNat (y % 64 % 16 * 16 + z % 64 / 4)] := by
  simp [base64Decode.go, (base64_digit _).1, (base64_digit _).2.1, hb, bind]

lemma go_three (hr : base64Decode.go rest = some bytes) :
    base64Decode.go (base64.digit x :: base64.digit y :: base64.digit z :: base64.digit w :: rest) =
      some (UInt8.ofNat (x % 64 * 4 + y % 64 / 16) :: UInt8.ofNat (y % 64 % 16 * 16 + z % 64 / 4) ::
        UInt8.ofNat (z % 64 % 4 * 64 + w % 64) :: bytes) := by
  simp [base64Decode.go, (base64_digit _).1, (base64_digit _).2.1, hr, bind]

end

lemma go_base64 (bytes : Bytes) : base64Decode.go (base64.go bytes) = some bytes := by
  fun_induction base64.go bytes with
  | case1 => rfl
  | case2 a n =>
    have ha := a.toNat_lt
    rw [go_one (by omega), ofNat_eq (a := a) (by omega)]
  | case3 a b n =>
    have ha := a.toNat_lt
    have hb := b.toNat_lt
    rw [go_two (by omega), ofNat_eq (a := a) (by omega), ofNat_eq (a := b) (by omega)]
  | case4 a b c rest n ih =>
    have ha := a.toNat_lt
    have hb := b.toNat_lt
    have hc := c.toNat_lt
    rw [go_three ih, ofNat_eq (a := a) (by omega), ofNat_eq (a := b) (by omega),
      ofNat_eq (a := c) (by omega)]

lemma forall_base64 {P : Char → Prop} (hd : ∀ n, P (base64.digit n)) (hp : P '=')
    (bytes : Bytes) : ∀ c ∈ (base64 bytes).toList, P c := by
  rw [base64, String.toList_ofList]
  fun_induction base64.go bytes with
  | case1 => intro c hc; cases hc
  | case2 a n | case3 a b n => simp [hd, hp]
  | case4 a b c rest n ih =>
    simp only [forall_mem_cons, hd, true_and]
    exact ih

lemma base64_standard : Base64 base64 base64Decode where
  decode_encode bytes := by
    rw [base64Decode, base64, String.toList_ofList, go_base64]
  visible := forall_base64 (fun n => (base64_digit n).2.2) (by decide)

def office : List Client := [⟨"alice", "secret", none, none⟩, ⟨"bob", "a:b", none, none⟩]

theorem office_read : ReadAs base64 base64Decode office ⟨"alice", "secret", none, none⟩ ∧
      ReadAs base64 base64Decode office ⟨"bob", "a:b", none, none⟩ := by
  have hr : ∀ c ∈ office, ReadAs base64 base64Decode office c := by
    refine (readings_agree_iff base64_standard office).mpr ?_
    unfold Colonless
    decide
  exact ⟨hr _ (by simp [office]), hr _ (by simp [office])⟩

/-- The settings accept the name; tunnel and forwarder read others. -/
theorem colonName_misread : CredentialsFile.deserializeClients
        ⟨[("client", [[("username", ⟨" \"team:alice\"", none⟩),
          ("password", ⟨" \"secret\"", none⟩)]])]⟩ =
      .ok [⟨"team:alice", "secret", none, none⟩] ∧
    decodeUsername base64Decode (Client.key base64 ⟨"team:alice", "secret", none, none⟩) =
      some "team" ∧
    makeAuth base64Decode (.proxyBasic (Client.key base64 ⟨"team:alice", "secret", none, none⟩)) =
      .ok (.usernamePassword "team" "alice:secret") := by
  refine ⟨by rfl, by decide +kernel, by rfl⟩

end TrustTunnel.Credentials
