import TrustTunnel.RequestDecoding
import TrustTunnel.ReverseProxyRequest

/-!
# Host fields

`serialize_request` replaces a `Host` header by the authority; `encode_request` writes both, and
`decode_request` may leave `Host` among the headers.
-/

namespace TrustTunnel.Http1Codec

open Io Http HttpForwardedStream List
open Lib.Http1 (utf8 values headFields trim isOws values_append headFields_lines)
open HttpForwardedStream (headerValues headerField serializeRequest BodyLength trim_of_forall
  utf8_injective notMem_of_isUriText)
open ReverseProxy (encodeRequest translateRequest fieldsOf maxHeadersNum)

/-- A server reads one `Host` field, the authority of the request. -/
def OneHost (request : RequestHeaders) (text : Bytes) : Prop :=
  ∃ authority, request.uri.authority = some authority ∧
    (headFields text).map (values (utf8 "host")) = some [utf8 authority.asStr]

lemma trim_authority (authority : Authority) :
    trim (utf8 authority.asStr) = utf8 authority.asStr := by
  refine trim_of_forall fun b hb => ?_
  have hte := all_eq_true.mp authority.valid b hb
  simp only [Bool.and_eq_true, decide_eq_true_eq] at hte
  have hbl : b ≠ 32 := fun h => by simp [h] at hte
  have ht : b ≠ 9 := fun h => by
    rw [h] at hte
    exact absurd hte.1 (by decide)
  simp [isOws, hbl, ht]

/-! ## `encode_request` -/

lemma headFields_encodeRequest (request : RequestHeaders) :
    headFields (encodeRequest request) = some (fieldsOf request) := by
  obtain ⟨hl, hf⟩ := mapM_parseField (ReverseProxy.readAs_fieldLines request)
  rw [encodeRequest, headFields_lines (ReverseProxy.notMem_requestLine request) hl, hf]

lemma values_host_fieldsOf (request : RequestHeaders) : values (utf8 "host") (fieldsOf request) =
      (request.uri.authority.map (fun a => utf8 a.asStr)).toList ++
        (headerValues "host" request.headers).map trim := by
  rw [fieldsOf, values_append, ReverseProxy.values_headers]
  cases request.uri.authority with
  | none => rfl
  | some a =>
    have hh : values (utf8 "host") [⟨utf8 "host", trim (utf8 a.asStr)⟩] = [utf8 a.asStr] := by
      simp [values, trim_authority]
    exact congrArg (· ++ _) hh

lemma oneHost_encodeRequest (request : RequestHeaders) : OneHost request (encodeRequest request) ↔
      request.uri.authority.isSome ∧ headerValues "host" request.headers = [] := by
  rw [OneHost, headFields_encodeRequest, Option.map_some, values_host_fieldsOf]
  cases request.uri.authority with
  | none | some => simp

lemma oneHost_translateRequest (protocol : Protocol) (h3BackwardCompatibility : Bool)
    (request : RequestHeaders) :
    OneHost request (encodeRequest (translateRequest protocol h3BackwardCompatibility request)) ↔
      request.uri.authority.isSome ∧ headerValues "host" request.headers = [] := by
  have hu : (translateRequest protocol h3BackwardCompatibility request).uri = request.uri := by
    cases protocol <;> rfl
  have hh : headerValues "host"
        (translateRequest protocol h3BackwardCompatibility request).headers =
      headerValues "host" request.headers := by
    cases protocol <;> exact ReverseProxy.headerValues_insertHeader (by decide) request.headers
  have he := oneHost_encodeRequest (translateRequest protocol h3BackwardCompatibility request)
  rw [hu, hh] at he
  rw [← he, OneHost, OneHost, hu]

/-! ## `serialize_request` -/

lemma values_host_headerFields (targetHost : Authority) (headers : List Header) :
    values (utf8 "host") (headers.filterMap (headerField targetHost)) =
      replicate (headerValues "host" headers).length (utf8 targetHost.asStr) := by
  induction headers with
  | nil => rfl
  | cons h headers ih =>
    by_cases hn : h.name = "host"
    · have hf : headerField targetHost h = some ⟨utf8 "host", utf8 targetHost.asStr⟩ := by
        simp [headerField, hn, trim_authority]
      have hl : (headerValues "host" (h :: headers)).length =
          (headerValues "host" headers).length + 1 := by
        simp [headerValues, hn]
      rw [filterMap_cons_some hf, hl, replicate_succ, ← ih]
      simp [values]
    · have hl : headerValues "host" (h :: headers) = headerValues "host" headers := by
        simp [headerValues, hn]
      rw [hl, ← ih]
      cases hf : headerField targetHost h with
      | none => rw [filterMap_cons_none hf]
      | some field =>
        have hne : field.name ≠ utf8 "host" := by
          unfold headerField at hf
          split at hf
          · cases hf
          · cases hf
            exact fun h => hn (utf8_injective h)
        rw [filterMap_cons_some hf]
        simp [values, hne]

lemma oneHost_serialized
    (h : serializeRequest request = .ok (serialized, bodyLength)) : OneHost request serialized := by
  obtain ⟨targetHost, lines, ha, rfl, hl, hle, hf⟩ :=
    serialized_fields h
  refine ⟨targetHost, ha, ?_⟩
  rw [headFields_lines (notMem_requestLine request) hl, hf,
    Option.map_some, values_append, values_host_headerFields, trim_authority]
  by_cases hn : headerValues "host" request.headers = []
  · simp [hn, values]
  · have ho : (headerValues "host" request.headers).length = 1 :=
      Nat.le_antisymm hle (length_pos_iff.mpr hn)
    rw [if_neg hn, ho]
    rfl

/-! ## Requests -/

/-- **One host.** For HTTP/1 exactly if target and headers name one, for HTTP/2 and 3 if there
is no `Host` header. -/
theorem oneHost_iff (P : Httparse) (U : UriCrate) :
    (∀ buffer request tail idx parsed uri h3BackwardCompatibility,
      decodeRequest P U buffer = .ok (.complete request tail) →
      P.parseRequest maxHeadersNum buffer = .complete idx parsed →
      U.fromStr parsed.path = .ok uri →
      (OneHost request (encodeRequest (translateRequest .http1 h3BackwardCompatibility request)) ↔
        hostsNamed uri parsed.headers = 1)) ∧
    (∀ request protocol h3BackwardCompatibility, request.uri.authority.isSome = true →
      (OneHost request (encodeRequest (translateRequest protocol h3BackwardCompatibility request)) ↔
        headerValues "host" request.headers = [])) ∧
    ∀ request serialized bodyLength,
      serializeRequest request = .ok (serialized, bodyLength) → OneHost request serialized := by
  refine ⟨?_, ?_, ?_⟩
  · intro buffer request tail idx parsed uri h3BackwardCompatibility hd hp hu
    rw [oneHost_translateRequest]
    exact decodeRequest_host hd hp hu
  · intro request protocol h3BackwardCompatibility ha
    rw [oneHost_translateRequest, and_iff_right ha]
  · intro request serialized bodyLength h
    exact oneHost_serialized h

def originForm : Bytes := utf8 "GET / HTTP/1.1\r\nHost: example.com\r\nAccept: */*\r\n\r\n"

def absoluteForm : Bytes := utf8 "GET http://example.com/ HTTP/1.1\r\nHost: example.com\r\n\r\n"

def exampleRequest (headers : List Header) : RequestHeaders :=
  ⟨.get, .root exampleAuthority, .http11, headers⟩

theorem originForm_oneHost : OneHost (exampleRequest [⟨"accept", utf8 "*/*", by decide +kernel⟩])
        (encodeRequest (translateRequest .http1 false
          (exampleRequest [⟨"accept", utf8 "*/*", by decide +kernel⟩]))) ∧
      OneHost (exampleRequest []) (encodeRequest
        (translateRequest .http2 false (exampleRequest []))) ∧
      OneHost (exampleRequest [])
        (utf8 "GET / HTTP/1.1\r\nhost: example.com\r\n\r\n") := by
  refine ⟨?_, ?_, ?_⟩
  · exact ((oneHost_iff requestScanner exampleUris).1 originForm _ [] 50
      ⟨"GET", "/", 1, [⟨"Host", utf8 "example.com"⟩, ⟨"Accept", utf8 "*/*"⟩]⟩ _ false
      (by decide +kernel) (by decide +kernel) rfl).mpr (by decide +kernel)
  · exact ((oneHost_iff requestScanner exampleUris).2.1 (exampleRequest []) .http2 false rfl).mpr
      (by decide +kernel)
  · exact (oneHost_iff requestScanner exampleUris).2.2 (exampleRequest []) _ (.determined 0)
      (by decide +kernel)

/-- A target with a host, and the `Host` header that must come with it. -/
theorem absoluteForm_twoHosts : decodeRequest requestScanner exampleUris absoluteForm =
        .ok (.complete (exampleRequest [⟨"host", utf8 "example.com", by decide +kernel⟩]) []) ∧
      (headFields (encodeRequest (translateRequest .http1 false
          (exampleRequest [⟨"host", utf8 "example.com", by decide +kernel⟩])))).map
        (values (utf8 "host")) = some [utf8 "example.com", utf8 "example.com"] ∧
      ¬ OneHost (exampleRequest [⟨"host", utf8 "example.com", by decide +kernel⟩])
        (encodeRequest (translateRequest .http1 false
          (exampleRequest [⟨"host", utf8 "example.com", by decide +kernel⟩]))) := by
  have ht : (headFields (encodeRequest (translateRequest .http1 false
      (exampleRequest [⟨"host", utf8 "example.com", by decide +kernel⟩])))).map
        (values (utf8 "host")) = some [utf8 "example.com", utf8 "example.com"] := by
    decide +kernel
  refine ⟨by decide +kernel, ht, ?_⟩
  rintro ⟨authority, -, ho⟩
  rw [ht] at ho
  have hl := congrArg length (Option.some.inj ho)
  cases hl

end TrustTunnel.Http1Codec
