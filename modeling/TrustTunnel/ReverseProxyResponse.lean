import TrustTunnel.ChunkedResponse
import TrustTunnel.ReverseProxyChunks

/-!
# Chunked responses through the reverse proxy

The head of the response decides how `handle_stream` treats what follows it.
-/

namespace TrustTunnel.ReverseProxy

open Io Http Recorder List Lib.Segments
open Lib.Http1 (utf8)
open Lib.Segments (Boundary)
open HttpForwardedStream (ParsedHeader ParsedResponse ResponseHeaders Httparse Reads)
open HttpForwardedStream (Text.toAsciiLowercase)

/-! ## Heads -/

structure Head (P : Httparse) where
  bytes : Bytes
  response : ParsedResponse
  ne_nil : bytes ≠ []
  reads : Reads P bytes response
  status_valid : 200 ≤ response.code ∧ response.code ≤ 999
  headers_valid : ∀ h ∈ response.headers,
    isToken (Text.toAsciiLowercase h.name) = true ∧ isHeaderValue h.value = true

section

variable {P : Httparse} (h : Head P) (version : Version)

def Head.decoded : ResponseHeaders :=
  ⟨version, h.response.code,
    h.response.headers.map (fun h => ⟨Text.toAsciiLowercase h.name, h.value⟩)⟩

lemma Head.status_range : 100 ≤ h.response.code ∧ h.response.code ≤ 999 :=
  ⟨Nat.le_trans (by decide) h.status_valid.1, h.status_valid.2⟩

lemma Head.isValid_decoded : (h.decoded version).isValid := by
  simp only [ResponseHeaders.isValid, Head.decoded, h.status_range, decide_true, Bool.and_self,
    Bool.true_and,
    all_map, all_eq_true, Function.comp_apply, Bool.and_eq_true]
  exact h.headers_valid

def Head.values (name : String) : List Bytes :=
  (h.response.headers.filter (fun x => Text.toAsciiLowercase x.name == name)).map ParsedHeader.value

lemma getHeader_decoded (name : String) :
    getHeader name (h.decoded version).headers = (h.values name).head? := by
  rw [getHeader, ← head?_filter, Head.decoded, Head.values, filter_map, head?_map,
    head?_map, Option.map_map]
  rfl

lemma getHeader_stripResponse (protocol : Protocol) (hn : name ∉ hopByHop) :
    getHeader name (stripResponse protocol (h.decoded version)).headers =
      (h.values name).head? := by
  have hs : getHeader name (stripResponse protocol (h.decoded version)).headers =
      getHeader name (h.decoded version).headers := by
    unfold stripResponse
    split
    · rfl
    · rw [getHeader, getHeader, ← head?_filter, ← head?_filter, filter_filter]
      congr 2
      apply filter_congr
      intro x _
      cases hx : x.name == name with
      | false => rfl
      | true => simp [beq_iff_eq.mp hx, hn]
  rw [hs, getHeader_decoded]

/-- There is room for the headers, and no cut leaves too much buffered. -/
structure Head.Fits (segments : List Bytes) : Prop where
  headers_le : h.response.headers.length ≤ maxHeadersNum
  short : ∀ x, Boundary segments x → x.length < h.bytes.length → x.length < maxRawHeadersSize

lemma decodeResponse_complete (hh : h.response.headers.length ≤ maxHeadersNum) (rest : Bytes) :
    decodeResponse P version (h.bytes ++ rest) = .ok (.complete (h.decoded version) rest) := by
  have hv := h.isValid_decoded version
  rw [Head.decoded] at hv
  simp [decodeResponse, h.reads.complete maxHeadersNum rest hh, hv, Head.decoded]

lemma decodeResponse_part (hh : h.response.headers.length ≤ maxHeadersNum)
    (hp : p <+: h.bytes) (hlen : p.length < h.bytes.length) :
    decodeResponse P version p = if p.length < maxRawHeadersSize then .ok (.incomplete p)
      else .error (.other "Too long HTTP response headers") := by
  have hmo := (h.reads.needMore maxHeadersNum p hp hlen).resolve_right
    (fun hm => absurd hh (Nat.not_le_of_lt hm.1))
  simp [decodeResponse, hmo]

lemma decodeResponse_tooMany (hh : maxHeadersNum < h.response.headers.length) :
    (∀ rest, ∃ e, decodeResponse P version (h.bytes ++ rest) = .error e) ∧
      ∀ p, p <+: h.bytes → p.length < h.bytes.length →
        (∃ e, decodeResponse P version p = .error e) ∨
          decodeResponse P version p = .ok (.incomplete p) := by
  constructor
  · intro rest
    exact ⟨.other "too many headers", by
      simp only [decodeResponse, h.reads.tooMany maxHeadersNum rest hh]⟩
  · intro p hp hlen
    rcases h.reads.needMore maxHeadersNum p hp hlen with hmo | ⟨-, hm⟩
    · simp only [decodeResponse, hmo]
      split
      · exact .inr rfl
      · exact .inl ⟨_, rfl⟩
    · exact .inl ⟨.other "too many headers", by simp only [decodeResponse, hm]⟩

variable {σ : Type} (C : ClientCalls σ) (protocol : Protocol)

section

variable {s : Stream σ} {v : Bytes} {segments : List Bytes}

lemma receive_incomplete (hv : decodeResponse P version v = .ok (.incomplete v)) (segment : Bytes)
    (segments : List Bytes) :
    (s.readHead C P protocol version v).receive C P protocol version (segment :: segments) =
      (s.readHead C P protocol version (v ++ segment)).receive C P protocol version segments := by
  have hw : s.readHead C P protocol version v = { s with phase := .waitingResponse v } := by
    simp [Stream.readHead, hv]
  rw [hw, Stream.receive]
  rfl

lemma receive_invalid (hv : ∃ e, decodeResponse P version v = .error e) (segments : List Bytes) :
    ∃ e, (s.readHead C P protocol version v).receive C P protocol version segments =
      s.finish (s.client, .error e) := by
  obtain ⟨e, he⟩ := hv
  have hf : s.readHead C P protocol version v = s.finish (s.client, .error e) := by
    simp [Stream.readHead, he]
  exact ⟨e, by rw [hf, receive_returned _ _ _ _ rfl]⟩

section

variable {rest : Bytes} (hflat : (v :: segments).flatten = h.bytes ++ rest)

include hflat

/-- **A head in segments**, with `t` behind it, empty exactly if there was a cut. -/
lemma receive_head (hf : h.Fits (v :: segments)) :
    ∃ t segments', (s.readHead C P protocol version v).receive C P protocol version segments =
        (s.onResponse C protocol (h.decoded version) t).receive C P protocol version segments' ∧
      (t :: segments').flatten = rest ∧ (t = [] ↔ Boundary (v :: segments) h.bytes) ∧
      ∀ z, z ≠ [] → (Boundary (v :: segments) (h.bytes ++ z) ↔ Boundary (t :: segments') z) := by
  obtain ⟨t, segments', hr, hre⟩ := joined
    (F := fun v segments => (s.readHead C P protocol version v).receive C P protocol version
      segments)
    h.ne_nil hflat fun x segment rest hx hp hlt => by
      have hm := decodeResponse_part h version hf.headers_le hp hlt
      rw [if_pos (hf.short x hx hlt)] at hm
      exact receive_incomplete version C protocol hm segment rest
  refine ⟨t, segments', hr.trans ?_, hre⟩
  simp [Stream.readHead, decodeResponse_complete h version hf.headers_le t]

lemma receive_tooMany (hh : maxHeadersNum < h.response.headers.length) :
    ∃ e, (s.readHead C P protocol version v).receive C P protocol version segments =
      s.finish (s.client, .error e) := by
  obtain ⟨hc, hpa⟩ := decodeResponse_tooMany h version hh
  refine joining hflat
    (fun t _ _ => receive_invalid version C protocol (hc t) _) (fun v _ _ hp hlt ih => ?_)
  rcases hpa v hp hlt with he | hm
  · exact receive_invalid version C protocol he _
  · rwa [receive_incomplete version C protocol hm]

lemma receive_tooLong (hh : h.response.headers.length ≤ maxHeadersNum)
    (hx : Boundary (v :: segments) x) (hlt : x.length < h.bytes.length)
    (hle : maxRawHeadersSize ≤ x.length) :
    ∃ e, (s.readHead C P protocol version v).receive C P protocol version segments =
      s.finish (s.client, .error e) := by
  have hx_ne : x ≠ [] := by
    rintro rfl
    exact absurd hle (by decide)
  revert hx
  refine joining hflat (fun t _ _ hx => ?_) (fun v _ _ hp hv ih hx => ?_)
  · obtain ⟨y, rfl, -⟩ := (boundary_cons hx_ne).mp hx
    rw [length_append, length_append] at hlt
    omega
  · have hpa := decodeResponse_part h version hh hp hv
    by_cases hs : v.length < maxRawHeadersSize
    · rw [if_pos hs] at hpa
      rw [receive_incomplete version C protocol hpa]
      exact ih ((boundary_merge (by omega) _).mp hx)
    · rw [if_neg hs] at hpa
      exact receive_invalid version C protocol ⟨_, hpa⟩ _

lemma receive_head_failed (hf : ¬ h.Fits (v :: segments)) :
    ∃ e, (s.readHead C P protocol version v).receive C P protocol version segments =
      s.finish (s.client, .error e) := by
  by_cases hh : h.response.headers.length ≤ maxHeadersNum
  · have hl : ∃ x, Boundary (v :: segments) x ∧ x.length < h.bytes.length ∧
        maxRawHeadersSize ≤ x.length := by
      by_contra hn
      refine hf ⟨hh, fun x hx hlt => ?_⟩
      by_contra hle
      exact hn ⟨x, hx, hlt, Nat.le_of_not_lt hle⟩
    obtain ⟨x, hx, hlt, hle⟩ := hl
    exact receive_tooLong h version C protocol hflat hh hx hlt hle
  · exact receive_tooMany h version C protocol hflat (Nat.lt_of_not_le hh)

end

end

end

/-! ## Chunked responses -/

structure Origin (P : Httparse) where
  head : Head P
  no_length : ∀ h ∈ head.response.headers, Text.toAsciiLowercase h.name ≠ "content-length"
  chunked : Lib.Http1.codings ((head.response.headers.filter
    (fun h => Text.toAsciiLowercase h.name == "transfer-encoding")).map ParsedHeader.value) =
      [utf8 "chunked"]
  chunks : List Chunk
  last : SizeLine
  last_size : last.size = 0
  trailers : List Bytes
  trailers_valid : ∀ l ∈ trailers, (l ≠ [] ∧ 13 ∉ l) ∧ (Lib.Http1.parseField l).isSome = true

section

variable {P : Httparse}

def Origin.body (o : Origin P) : Bytes := o.chunks.flatMap Chunk.data

def Origin.upToLast (o : Origin P) : Bytes := o.head.bytes ++ bodyBytes o.chunks o.last

def Origin.bytes (o : Origin P) : Bytes := o.upToLast ++ tailBytes o.trailers

/-- The coding is chunked, the head fits, size lines can be read, and the last line end is not
cut off. -/
structure Deliverable (o : Origin P) (segments : List Bytes) : Prop where
  recognised : isChunked (o.head.decoded .http11).headers = true
  fits : o.head.Fits segments
  lines : (∀ c ∈ o.chunks, c.line.Readable) ∧ o.last.Readable
  uncut : o.trailers = [] →
    ¬ Boundary segments o.upToLast ∧ ¬ Boundary segments (o.upToLast ++ [13])

def Stream.sent (written unsent : Bytes) : Stream Recorder :=
  ⟨.waitingResponse [], .new, written, unsent⟩

/-- **The head of a response** to it, which fits or makes the future fail. -/
lemma receive_sent (h : Head P) (protocol : Protocol) (version : Version) (written unsent : Bytes)
    (hflat : segments.flatten = h.bytes ++ rest) : (h.Fits segments → ∃ t segments',
      (Stream.sent written unsent).receive calls P protocol version segments =
        ((Stream.sent written unsent).onResponse calls protocol (h.decoded version) t).receive
          calls P protocol version segments' ∧
      (t :: segments').flatten = rest ∧ (t = [] ↔ Boundary segments h.bytes) ∧
      ∀ z, z ≠ [] → (Boundary segments (h.bytes ++ z) ↔ Boundary (t :: segments') z)) ∧
    (¬ h.Fits segments → ∃ e,
      (Stream.sent written unsent).receive calls P protocol version segments =
        (Stream.sent written unsent).finish (.new, .error e)) := by
  cases segments with
  | nil => exact absurd (append_eq_nil_iff.mp hflat.symm).1 h.ne_nil
  | cons =>
    exact ⟨receive_head h version calls protocol (s := Stream.sent written unsent) hflat,
      receive_head_failed h version calls protocol (s := Stream.sent written unsent) hflat⟩

lemma contentLength_origin (o : Origin P) (protocol : Protocol) (version : Version) :
    contentLength (stripResponse protocol (o.head.decoded version)).headers = none := by
  have hn : o.head.values "content-length" = [] := by
    rw [Head.values, map_eq_nil_iff, filter_eq_nil_iff]
    intro x hx
    simpa using o.no_length x hx
  rw [contentLength, getText, getHeader_stripResponse _ _ _ (by decide), hn]
  rfl

lemma receive_piping {s : Stream Recorder} {upload : Bool} (h : s.phase = .piping upload true)
    (protocol : Protocol) (version : Version) (segments : List Bytes) :
    (s.receive calls P protocol version segments).phase = .piping upload true := by
  induction segments generalizing s with
  | nil => exact h
  | cons segment segments ih =>
    simp only [Stream.receive, Stream.onUpstreamChunk, h]
    exact ih rfl

section

variable (h : Head P) {protocol : Protocol} {version : Version}
  (hlen : contentLength (stripResponse protocol (h.decoded version)).headers = none)
  (written unsent t : Bytes)

include hlen

lemma onResponse_recognised (hp : protocol ≠ .http1)
    (hr : isChunked (h.decoded version).headers) :
    (Stream.sent written unsent).onResponse calls protocol (h.decoded version) t =
      (Stream.sent written unsent).decode calls
        (.holding (stripResponse protocol (h.decoded version)) .line []) t := by
  simp only [Stream.onResponse, hlen, hr]
  simp [hp, Decoder.holding, Stream.sent]

lemma onResponse_unrecognised (hr : isChunked (h.decoded version).headers = false) :
    ((Stream.sent written unsent).onResponse calls protocol (h.decoded version) t).phase =
      .piping true true := by
  simp [Stream.onResponse, hlen, hr, sendWith, calls]

end

/-- **Which chunked responses are delivered.** -/
theorem delivered_iff (o : Origin P) {protocol : Protocol} (hprotocol : protocol ≠ .http1)
    (version : Version) (written unsent : Bytes) {segments : List Bytes}
    (hsegments : segments.flatten = o.bytes) :
    Delivered (stripResponse protocol (o.head.decoded version)) o.body
        ((Stream.sent written unsent).receive calls P protocol version segments) ↔
      Deliverable o segments := by
  have hflat : segments.flatten =
      o.head.bytes ++ (bodyBytes o.chunks o.last ++ tailBytes o.trailers) := by
    rw [hsegments, Origin.bytes, Origin.upToLast, append_assoc]
  obtain ⟨hco, hfa⟩ := receive_sent o.head protocol version written unsent hflat
  by_cases hf : o.head.Fits segments
  · obtain ⟨t, segments', hre, hb, -, hc⟩ := hco hf
    rw [hre]
    cases hr : isChunked (o.head.decoded version).headers with
    | true =>
      rw [onResponse_recognised o.head (contentLength_origin o protocol version) _ _ _ hprotocol
        hr, Origin.body, delivered_body_iff P protocol version _ o.last_size hb,
        ← hc _ (bodyBytes_ne_nil _ _), ← hc _ (by simp), ← append_assoc]
      constructor
      · rintro ⟨hl, hu⟩
        exact ⟨hr, hf, hl, hu⟩
      · rintro ⟨-, -, hl, hu⟩
        exact ⟨hl, hu⟩
    | false =>
      refine iff_of_false (fun hd => ?_) (fun h => ?_)
      · have hpi := onResponse_unrecognised o.head (contentLength_origin o protocol version)
          written unsent t hr
        have hp := hd.returned
        rw [receive_piping hpi] at hp
        cases hp
      · have : isChunked (o.head.decoded version).headers = true := h.recognised
        rw [hr] at this
        cases this
  · refine iff_of_false (fun hd => ?_) (fun h => hf h.fits)
    obtain ⟨e, he⟩ := hfa hf
    have hp := hd.returned
    rw [he] at hp
    cases hp

end

/-! ## A response -/

open HttpForwardedStream (scanner)

def chunkedHead : Head scanner where
  bytes := HttpForwardedStream.chunkedHead.bytes
  response := HttpForwardedStream.chunkedHead.response
  ne_nil := HttpForwardedStream.chunkedHead.ne_nil
  reads := HttpForwardedStream.chunkedHead.reads
  status_valid := by decide +kernel
  headers_valid := by decide +kernel

def sizeLineOf (text : String) (size : Nat)
    (h : 13 ∉ utf8 text ∧ Lib.Http1.chunkSize (utf8 text) = some size) : SizeLine :=
  ⟨utf8 text, size, h.1, h.2⟩

def chunkOf (line : SizeLine) (text : String)
    (h : utf8 text ≠ [] ∧ line.size = (utf8 text).length) : Chunk :=
  ⟨line, utf8 text, h.1, h.2⟩

/-- `hi` in one chunk, without trailers. -/
def hiOrigin : Origin scanner where
  head := chunkedHead
  no_length := by decide +kernel
  chunked := by decide +kernel
  chunks := [chunkOf (sizeLineOf "2;a=b" 2 (by decide +kernel)) "hi" (by decide +kernel)]
  last := sizeLineOf "0" 0 (by decide +kernel)
  last_size := rfl
  trailers := []
  trailers_valid := by simp

def hiSegments : List Bytes :=
  [utf8 "HTTP/1.1 200 OK\r\nTransfer-Enc", utf8 "oding: chunked\r\n\r\n2;a=b\r\nh",
    utf8 "i\r\n0\r", utf8 "\n\r\n"]

lemma hiSegments_deliverable : Deliverable hiOrigin hiSegments := by
  refine ⟨by decide +kernel, ⟨by decide +kernel, ?_⟩, ⟨by decide +kernel, by decide +kernel⟩,
    fun _ => by decide +kernel⟩
  intro x _ hlen
  have hh : hiOrigin.head.bytes.length < maxRawHeadersSize := by decide +kernel
  exact Nat.lt_trans hlen hh

theorem hiSegments_received :
    Delivered (stripResponse .http2 (chunkedHead.decoded .http2)) (utf8 "hi")
      ((Stream.sent [] []).receive calls scanner .http2 .http2 hiSegments) :=
  (delivered_iff hiOrigin (by decide) .http2 [] [] (by decide +kernel)).mpr hiSegments_deliverable

def cutSegments : List Bytes :=
  [utf8 "HTTP/1.1 200 OK\r\nTransfer-Encoding: chunked\r\n\r\n2;a=b\r\nhi\r\n0\r\n", utf8 "\r\n"]

/-- All bytes are there, and the client has got nothing. -/
theorem cutSegments_waiting : cutSegments.flatten = hiOrigin.bytes ∧
      ((Stream.sent [] []).receive calls scanner .http2 .http2 cutSegments).client = .new ∧
      ¬ Delivered (stripResponse .http2 (chunkedHead.decoded .http2)) hiOrigin.body
        ((Stream.sent [] []).receive calls scanner .http2 .http2 cutSegments) := by
  have hc :
      ((Stream.sent [] []).receive calls scanner .http2 .http2 cutSegments).client = .new := by
    decide +kernel
  refine ⟨by decide +kernel, hc, fun hd => ?_⟩
  have := hd.client
  rw [hc] at this
  cases this

end TrustTunnel.ReverseProxy
