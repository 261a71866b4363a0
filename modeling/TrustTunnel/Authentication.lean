import TrustTunnel.Http
import TrustTunnel.Lib.Table

/-!
# Authentication (`authentication/`, `http_codec.rs`)

The credentials of a request and the registry; the base64 encoding of its keys is `encode`.
-/

namespace TrustTunnel.Authentication

open Io Http Lib String
open Lib.Http1 (utf8)

inductive Source where
  | sni (creds : String)
  | proxyBasic (creds : String)
  deriving DecidableEq

def Source.creds : Source → String
  | .sni creds => creds
  | .proxyBasic creds => creds

inductive Status where
  | pass
  | reject

/-! ## The registry -/

structure Client where
  username : String
  password : String
  maxHttp2Conns : Option UInt32
  maxHttp3Conns : Option UInt32

/-- `BASE64_ENGINE.encode(format!("{}:{}", username, password))`. -/
def Client.key (encode : Bytes → String) (c : Client) : String :=
  encode (utf8 (c.username ++ ":" ++ c.password))

structure RegistryBasedAuthenticator where
  clients : Table String String

/-- A later client replaces an earlier one with the same credentials. -/
def RegistryBasedAuthenticator.new (encode : Bytes → String) (clients : List Client) :
    RegistryBasedAuthenticator :=
  ⟨clients.foldl (fun m c => m.insert (c.key encode) c.username) ∅⟩

def RegistryBasedAuthenticator.authenticate (a : RegistryBasedAuthenticator) (source : Source) :
    Status :=
  if source.creds ∈ a.clients then .pass else .reject

def RegistryBasedAuthenticator.username (a : RegistryBasedAuthenticator) (source : Source) :
    Option String :=
  a.clients.lookup source.creds

def Registered (encode : Bytes → String) (clients : List Client) (creds : String) : Prop :=
  ∃ c ∈ clients, c.key encode = creds

lemma mem_registry (encode : Bytes → String) (clients : List Client) (creds : String) :
    creds ∈ (RegistryBasedAuthenticator.new encode clients).clients ↔
      Registered encode clients creds := by
  rw [RegistryBasedAuthenticator.new, Table.mem_foldl_insert]
  exact ⟨fun h => h.resolve_left (AList.notMem_empty creds), .inr⟩

lemma registered_of_pass
    (h : (RegistryBasedAuthenticator.new encode clients).authenticate source = .pass) :
    Registered encode clients source.creds := by
  unfold RegistryBasedAuthenticator.authenticate at h
  split at h
  · rename_i hm
    exact (mem_registry encode clients source.creds).mp hm
  · cases h

/-! ## The header -/

/-- `HeaderValue::to_str`: visible ASCII, spaces and tabs only. -/
def toStr (value : Bytes) : Option String :=
  if value.all (fun b => (32 ≤ b && b < 127) || b == 9) then fromUTF8? ⟨value.toArray⟩
  else none

def stripPrefix (p s : String) : Option String :=
  if p.toList.isPrefixOf s.toList then some (ofList (s.toList.drop p.toList.length)) else none

/-- `HeaderMap::get`: the first value under a name. -/
def getHeader (name : String) (request : RequestHeaders) : Option Bytes :=
  (request.headers.find? (fun h => h.name == name)).map Header.value

/-- `PendingRequest::auth_info`, without the dump in its error text. -/
def authInfo (request : RequestHeaders) : Except IoError (Option Source) :=
  match getHeader "proxy-authorization" request with
  | none => .ok none
  | some value =>
    match (toStr value).bind (stripPrefix "Basic ") with
    | some s => .ok (some (.proxyBasic s))
    | none => .error (.other "Unexpected authorization header: ")

lemma utf8_of_toStr (h : toStr value = some s) : utf8 s = value := by
  obtain ⟨-, h⟩ := Option.ite_none_right_eq_some.mp h
  exact Lib.Http1.utf8_of_fromUTF8 h

lemma append_of_stripPrefix (h : stripPrefix p s = some t) : s = p ++ t := by
  obtain ⟨hb, ⟨⟩⟩ := Option.ite_none_right_eq_some.mp h
  apply toList_injective
  rw [toList_append, toList_ofList]
  exact (List.prefix_iff_eq_append.mp (List.isPrefixOf_iff_prefix.mp hb)).symm

/-- The first header is the basic scheme followed by them. -/
def ProxyCredentials (request : RequestHeaders) (creds : String) : Prop :=
  getHeader "proxy-authorization" request = some (utf8 ("Basic " ++ creds))

lemma authInfo_eq_some (h : authInfo request = .ok (some source)) :
    ∃ creds, source = .proxyBasic creds ∧ ProxyCredentials request creds := by
  unfold authInfo at h
  split at h
  · cases h
  · rename_i hv
    split at h
    · rename_i creds hc
      cases h
      obtain ⟨s, hs, hst⟩ := Option.bind_eq_some_iff.mp hc
      refine ⟨creds, rfl, ?_⟩
      rw [ProxyCredentials, hv, ← append_of_stripPrefix hst, utf8_of_toStr hs]
    · cases h

lemma authInfo_eq_none (h : authInfo request = .ok none) :
    getHeader "proxy-authorization" request = none := by
  unfold authInfo at h
  split at h
  · assumption
  · split at h <;> cases h

end TrustTunnel.Authentication
