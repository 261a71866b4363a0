import TrustTunnel.Io
import TrustTunnel.Lib.Http1

/-!
# HTTP messages (the `http` crate)

The crate's types as its accessors show them, with its checks; headers are in its order.
-/

namespace TrustTunnel.Http

open Io Lib.Http1

def isToken (s : String) : Bool := !(utf8 s).isEmpty && (utf8 s).all isTokenByte

def isHeaderName (s : String) : Bool := isToken s && (utf8 s).all (fun b => !isUpper b)

def isHeaderValue (bs : Bytes) : Bool := bs.all (fun b => (32 ≤ b && b != 127) || b == 9)

def isUriText (s : String) : Bool := (utf8 s).all (fun b => 32 < b && b != 127)

inductive Method where
  | options
  | get
  | post
  | put
  | delete
  | head
  | trace
  | connect
  | patch
  | extension (token : String) (h : isToken token = true)
  deriving DecidableEq

def Method.asStr : Method → String
  | .options => "OPTIONS"
  | .get => "GET"
  | .post => "POST"
  | .put => "PUT"
  | .delete => "DELETE"
  | .head => "HEAD"
  | .trace => "TRACE"
  | .connect => "CONNECT"
  | .patch => "PATCH"
  | .extension token _ => token

inductive Version where
  | http09
  | http10
  | http11
  | http2
  | http3
  deriving DecidableEq

/-- `http::uri::Authority`: its text, `host()` and `port_u16()`. -/
structure Authority where
  asStr : String
  host : String
  portU16 : Option UInt16
  valid : isUriText asStr = true := by decide +kernel
  deriving DecidableEq

/-- `http::Uri`: `authority()`, `path_and_query()` and `path()`. -/
structure Uri where
  authority : Option Authority
  pathAndQuery : Option String
  path : String
  valid : isUriText path = true ∧ pathAndQuery.all isUriText = true := by decide +kernel
  deriving DecidableEq

def Uri.root (authority : Authority) : Uri :=
  { authority := some authority, pathAndQuery := some "/", path := "/" }

structure Header where
  name : String
  value : Bytes
  valid : isHeaderName name = true ∧ isHeaderValue value = true := by decide +kernel
  deriving DecidableEq

structure RequestHeaders where
  method : Method
  uri : Uri
  version : Version
  headers : List Header
  deriving DecidableEq

/-- `HeaderMap::insert`: it takes the place of the values there are. -/
def insertHeader (header : Header) : List Header → List Header
  | [] => [header]
  | h :: headers =>
    if h.name = header.name then header :: headers.filter (fun x => x.name ≠ header.name)
    else h :: insertHeader header headers

/-! ## Scrubbing (`net_utils.rs`) -/

def scrubbedPlaceholder : String := "__stripped__"

/-- The headers `scrub_request` puts in. -/
def scrubbed : List Header :=
  [ { name := "authorization", value := utf8 scrubbedPlaceholder },
    { name := "proxy-authorization", value := utf8 scrubbedPlaceholder },
    { name := "cookie", value := utf8 scrubbedPlaceholder } ]

def scrubHeader (headers : List Header) (header : Header) : List Header :=
  if headers.any (fun h => h.name = header.name) then insertHeader header headers else headers

def scrubRequest (request : RequestHeaders) : RequestHeaders :=
  { request with headers := scrubbed.foldl scrubHeader request.headers }

end TrustTunnel.Http
