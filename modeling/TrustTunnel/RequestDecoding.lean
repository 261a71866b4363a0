import TrustTunnel.ChunkedResponse
import TrustTunnel.ReverseProxy

/-!
# Requests of HTTP/1 clients (`http1_codec.rs`)

`decode_request` takes the authority from the target or the first `Host` header, which is then
removed.
-/

namespace TrustTunnel.Http1Codec

open Io Http List Option
open HttpForwardedStream (ParsedHeader Text.toLowercase Text.toAsciiLowercase headerValues)
open ReverseProxy (maxHeadersNum maxRawHeadersSize)

/-! ## The parsers (the `httparse` and `http` crates) -/

/-- A complete head; `version` is the digit after the point. -/
structure ParsedRequest where
  method : String
  path : String
  version : Fin 2
  headers : List ParsedHeader
  deriving DecidableEq

inductive RequestStatus where
  | complete (idx : Nat) (request : ParsedRequest)
  | needMore
  | invalid (text : String)
  deriving DecidableEq

/-- `Request::parse`, with room for a number of headers. -/
structure Httparse where
  parseRequest : Nat → Bytes → RequestStatus

/-- `Uri::from_str` and `Uri::builder`. -/
structure UriCrate where
  fromStr : String → Except String Uri
  build : Bytes → String → Except String Uri
  build_authority : ∀ authority path uri, build authority path = .ok uri →
    uri.authority.isSome = true

/-! ## What the builder of requests accepts -/

/-- `Method::from_bytes`. -/
def methodOf (s : String) : Option Method :=
  ([.options, .get, .post, .put, .delete, .head, .trace, .connect, .patch].find?
    (fun m : Method => m.asStr = s)).or (if h : isToken s = true then some (.extension s h) else none)

def headerOf (h : ParsedHeader) : Option Header :=
  if hvalid : isHeaderName (Text.toAsciiLowercase h.name) = true ∧ isHeaderValue h.value = true then
    some ⟨Text.toAsciiLowercase h.name, h.value, hvalid⟩
  else none

/-- `HeaderMap::append`: the values of one name stand together. -/
def appendHeader (header : Header) : List Header → List Header
  | [] => [header]
  | h :: headers =>
    if h.name = header.name ∧ ∀ x ∈ headers, x.name ≠ header.name then h :: header :: headers
    else h :: appendHeader header headers

/-! ## The head of a request -/

/-- The variables of the loop. -/
structure Decoding where
  uri : Uri
  headers : Option (List Header)

/-- The body of the loop, without the rest of its error text. -/
def onRequestHeader (U : UriCrate) (path : String) (s : Decoding) (h : ParsedHeader) :
    Except IoError Decoding :=
  if Text.toLowercase h.name = "host" ∧ s.uri.authority = none then
    match U.build h.value path with
    | .error e => .error (.other ("Unexpected URI: error=" ++ e))
    | .ok uri => .ok { s with uri }
  else
    .ok { s with headers := s.headers.bind fun headers =>
      (headerOf h).map fun header => appendHeader header headers }

def onRequestHeaders (U : UriCrate) (path : String) :
    Decoding → List ParsedHeader → Except IoError Decoding
  | s, [] => .ok s
  | s, h :: headers =>
    match onRequestHeader U path s h with
    | .error e => .error e
    | .ok s => onRequestHeaders U path s headers

def httparseToHttpVersion (v : Fin 2) : Version := if v = 0 then .http10 else .http11

/-- `DecodeStatus`, of a request. -/
inductive RequestDecodeStatus where
  | incomplete (buffer : Bytes)
  | complete (request : RequestHeaders) (tail : Bytes)
  deriving DecidableEq

/-- `decode_request` of a complete head. -/
def decodeRequest (P : Httparse) (U : UriCrate) (buffer : Bytes) :
    Except IoError RequestDecodeStatus :=
  match P.parseRequest maxHeadersNum buffer with
  | .complete idx parsed =>
    match U.fromStr parsed.path with
    | .error e => .error (.other ("Invalid path: path=" ++ parsed.path ++ ", error=" ++ e))
    | .ok uri =>
      match onRequestHeaders U parsed.path ⟨uri, some []⟩ parsed.headers with
      | .error e => .error e
      | .ok s =>
        match methodOf parsed.method, s.headers with
        | some method, some headers =>
          .ok (.complete ⟨method, s.uri, httparseToHttpVersion parsed.version, headers⟩
            (buffer.drop idx))
        | _, _ => .error (.other "Invalid request: ")
  | .needMore =>
    if buffer.length < maxRawHeadersSize then .ok (.incomplete buffer)
    else .error (.other "Too long HTTP request headers")
  | .invalid text => .error (.other text)

/-! ## Hosts -/

def hostsNamed (uri : Uri) (headers : List ParsedHeader) : Nat :=
  (if uri.authority.isSome then 1 else 0) +
    (headers.filter fun h => Text.toAsciiLowercase h.name = "host").length

lemma toLowercase_eq_host (s : String) :
    Text.toLowercase s = "host" ↔ Text.toAsciiLowercase s = "host" := by
  have hch : ∀ c x : Char, x ∈ "host".toList →
      ((if c.toNat = 0x212A then 'k' else c.toLower) = x ↔ c.toLower = x) := by
    intro c x hx
    by_cases hk : c.toNat = 0x212A
    · have hc : c = Char.ofNat 0x212A := by rw [← hk, Char.ofNat_toNat]
      subst hc
      have hl : x = 'h' ∨ x = 'o' ∨ x = 's' ∨ x = 't' := by simpa using hx
      rcases hl with rfl | rfl | rfl | rfl <;> decide
    · rw [if_neg hk]
  have hm : ∀ l t : List Char, (∀ x ∈ t, x ∈ "host".toList) →
      (l.map (fun c => if c.toNat = 0x212A then 'k' else c.toLower) = t ↔
        l.map Char.toLower = t) := by
    intro l t ht
    induction l generalizing t with
    | nil => rfl
    | cons c l ih =>
      cases t with
      | nil => simp
      | cons x t =>
        rw [map_cons, map_cons, cons.injEq, cons.injEq,
          hch c x (ht x mem_cons_self), ih t fun y hy => ht y (mem_cons_of_mem x hy)]
  have hli := hm s.toList "host".toList fun x hx => hx
  have ho : ∀ l : List Char, String.ofList l = "host" ↔ l = "host".toList := by
    intro l
    rw [← String.toList_inj, String.toList_ofList]
  rw [Text.toLowercase, Text.toAsciiLowercase, ho, ho, hli]

lemma length_headerValues_cons (name : String) (h : Header) (headers : List Header) :
    (headerValues name (h :: headers)).length =
      (headerValues name headers).length + if h.name = name then 1 else 0 := by
  by_cases hn : h.name = name
  · simp [headerValues, hn]
  · simp [headerValues, hn]

lemma length_headerValues_appendHeader (name : String) (h : Header) (headers : List Header) :
    (headerValues name (appendHeader h headers)).length =
      (headerValues name headers).length + if h.name = name then 1 else 0 := by
  induction headers with
  | nil => rw [appendHeader, length_headerValues_cons]
  | cons x headers ih =>
    rw [appendHeader]
    split
    · rw [length_headerValues_cons, length_headerValues_cons, length_headerValues_cons]
      omega
    · rw [length_headerValues_cons, length_headerValues_cons, ih]
      omega

def Decoding.hosts (s : Decoding) : Nat :=
  (if s.uri.authority.isSome then 1 else 0) +
    (s.headers.elim 0 fun headers => (headerValues "host" headers).length)

def Decoding.Ordered (s : Decoding) : Prop :=
  s.uri.authority = none → ∀ headers, s.headers = some headers → headerValues "host" headers = []

section

variable {U : UriCrate} {path : String} {s s' : Decoding}

lemma onRequestHeader_hosts (hst : onRequestHeader U path s h = .ok s')
    (hs : s.Ordered) (hhea' : s'.headers = some headers') :
    s'.Ordered ∧ (∃ headers, s.headers = some headers) ∧
      s'.hosts = s.hosts + if Text.toAsciiLowercase h.name = "host" then 1 else 0 := by
  simp only [onRequestHeader, toLowercase_eq_host] at hst
  split at hst
  · rename_i hh
    split at hst
    · cases hst
    · rename_i uri hb
      cases hst
      have hso : uri.authority.isSome := U.build_authority _ _ _ hb
      refine ⟨fun hn => ?_, ⟨headers', hhea'⟩, ?_⟩
      · rw [hn] at hso
        cases hso
      · simp only [Decoding.hosts, hso, hh.1, hh.2, isSome_none, if_true]
        simp only [Bool.false_eq_true, if_false]
        omega
  · rename_i hh
    cases hst
    obtain ⟨headers, hhea, hso⟩ := bind_eq_some_iff.mp hhea'
    obtain ⟨header, hhe, rfl⟩ := map_eq_some_iff.mp hso
    have hna : header.name = Text.toAsciiLowercase h.name := by
      rw [headerOf] at hhe
      split at hhe
      · cases hhe
        rfl
      · cases hhe
    refine ⟨fun hn l hl => ?_, ⟨headers, hhea⟩, ?_⟩
    · -- a host would have been taken for the URI's
      have hne : header.name ≠ "host" := by
        rw [hna]
        exact fun heq => hh ⟨heq, hn⟩
      cases hhea'.symm.trans hl
      have hle := length_headerValues_appendHeader "host" header headers
      rw [if_neg hne, hs hn headers hhea] at hle
      exact length_eq_zero_iff.mp hle
    · rw [Decoding.hosts, Decoding.hosts, hhea', hhea, elim_some, elim_some,
        length_headerValues_appendHeader, hna, Nat.add_assoc]

/-- The loop, by induction on the headers. -/
lemma onRequestHeaders_hosts (hr : onRequestHeaders U path s headers = .ok s') (hs : s.Ordered)
    (hh' : s'.headers = some headers') :
    s'.Ordered ∧ (∃ l, s.headers = some l) ∧ s'.hosts = s.hosts +
        (headers.filter fun h => Text.toAsciiLowercase h.name = "host").length := by
  induction headers generalizing s with
  | nil =>
    cases hr
    exact ⟨hs, ⟨headers', hh'⟩, rfl⟩
  | cons h headers ih =>
    rw [onRequestHeaders] at hr
    split at hr
    · cases hr
    · rename_i s1 hst
      have ho : s1.Ordered := by
        cases hheaders₁ : s1.headers with
        | none =>
          intro _ l hl
          rw [hheaders₁] at hl
          cases hl
        | some => exact (onRequestHeader_hosts hst hs hheaders₁).1
      obtain ⟨hf, ⟨l, hl⟩, hc⟩ := ih hr ho
      obtain ⟨-, hso, hcount1⟩ := onRequestHeader_hosts hst hs hl
      refine ⟨hf, hso, ?_⟩
      rw [hc, hcount1, filter_cons]
      by_cases hn : Text.toAsciiLowercase h.name = "host"
      · simp only [hn, decide_true, if_true, length_cons]
        omega
      · simp [hn]

end

lemma decodeRequest_host {P : Httparse} {U : UriCrate} {buffer tail : Bytes}
    {request : RequestHeaders} (h : decodeRequest P U buffer = .ok (.complete request tail))
    {idx : Nat} {parsed : ParsedRequest}
    (hp : P.parseRequest maxHeadersNum buffer = .complete idx parsed) {uri : Uri}
    (hu : U.fromStr parsed.path = .ok uri) :
    (request.uri.authority.isSome ∧ headerValues "host" request.headers = []) ↔
      hostsNamed uri parsed.headers = 1 := by
  simp only [decodeRequest, hp, hu] at h
  split at h
  · cases h
  · rename_i s hr
    split at h
    · rename_i headers _ hhe
      cases h
      have hs : (⟨uri, some []⟩ : Decoding).Ordered := fun _ l hl => by
        cases hl
        rfl
      obtain ⟨ho, -, hc⟩ := onRequestHeaders_hosts hr hs hhe
      have hh : s.hosts = hostsNamed uri parsed.headers := hc
      rw [← hh, Decoding.hosts, hhe]
      cases ha : s.uri.authority with
      | none => simp [ho ha headers hhe]
      | some => simp [← length_eq_zero_iff]
    · cases h

/-! ## Parsers -/

/-- `Request::parse`, for lines that end with CR and LF. -/
def scanRequest (room : Nat) (data : Bytes) : RequestStatus :=
  match Lib.Http1.takeLines (data.length + 1) data with
  | none => .needMore
  | some (lines, rest) =>
    match Lib.Http1.parseRequestLine (lines.headD []), lines.tail.mapM HttpForwardedStream.scanHeader with
    | some line, some headers =>
      if headers.length ≤ room then
        .complete (data.length - rest.length)
          ⟨String.ofList (line.method.map fun b => Char.ofNat b.toNat),
            String.ofList (line.target.map fun b => Char.ofNat b.toNat),
            if line.minor = 0 then 0 else 1, headers⟩
      else .invalid "too many headers"
    | _, _ => .invalid "invalid header name"

def requestScanner : Httparse := ⟨scanRequest⟩

lemma isUriText_example : isUriText "example.com" := by decide +kernel

lemma isUriText_slash : isUriText "/" ∧ (some "/").all isUriText := by
  decide +kernel

def exampleAuthority : Authority := ⟨"example.com", "example.com", none, isUriText_example⟩

def exampleUris : UriCrate where
  fromStr s :=
    if s = "/" then .ok ⟨none, some "/", "/", isUriText_slash⟩
    else if s = "http://example.com/" then .ok (.root exampleAuthority)
    else .error "invalid uri character"
  build authority path :=
    if authority = Lib.Http1.utf8 "example.com" ∧ path = "/" then .ok (.root exampleAuthority)
    else .error "invalid uri character"
  build_authority authority path uri h := by
    split at h
    · cases h
      rfl
    · cases h

end TrustTunnel.Http1Codec
