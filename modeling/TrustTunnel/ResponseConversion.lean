import TrustTunnel.ChunkedBody
import TrustTunnel.Lib.Keyed

/-!
# The headers of a forwarded response

`onResponseHeaders_eq` is the loop in terms of the headers `kept`, `convertResponse_eq` the
response.
-/

namespace TrustTunnel.HttpForwardedStream

open Io Http List Text
open Lib.Keyed
open Lib.Http1 (utf8)

/-! ## The loop -/

abbrev ParsedHeader.key (h : ParsedHeader) : String := toAsciiLowercase h.name

lemma recognises_of_dropped
    (hd : "transfer-encoding" ∈ dropHeaders) (headers : List ParsedHeader) :
    recognises dropHeaders headers = false := by
  induction headers generalizing dropHeaders with
  | nil => rfl
  | cons h headers ih =>
    unfold recognises
    split_ifs with hdr hconn hc
    · exact ih hd
    · exact ih (mem_append_left _ hd)
    · exact absurd (hc ▸ hd) hdr
    · exact ih hd

namespace Conversion

section

variable {dropHeaders : List String} {name : String} {h : ParsedHeader}
  {headers : List ParsedHeader}

def dropStep (dropHeaders : List String) (h : ParsedHeader) : List String :=
  if h.key ∈ dropHeaders then dropHeaders
  else if h.key = "connection" then dropHeaders ++ connectionOptions h.value
  else if h.key = "transfer-encoding" then
    dropHeaders ++ ["content-length", "transfer-encoding"]
  else dropHeaders

def dropsAfter (dropHeaders : List String) (headers : List ParsedHeader) : List String :=
  headers.foldl dropStep dropHeaders

def kept (dropHeaders : List String) : List ParsedHeader → List ParsedHeader
  | [] => []
  | h :: headers =>
    if h.key ∉ dropHeaders ∧ h.key ≠ "connection" ∧ h.key ≠ "transfer-encoding" then
      h :: kept (dropStep dropHeaders h) headers
    else kept (dropStep dropHeaders h) headers

def lengthOf (h : ParsedHeader) : Except IoError (Option BodyLength) :=
  match (fromUtf8 h.value).bind parseU64 with
  | none => .error (.other "Invalid Content-Length header value: ")
  | some n => .ok (some (.determined n))

/-- The first kept length, unless there is one already. -/
def foundLength : Option BodyLength → List ParsedHeader → Except IoError (Option BodyLength)
  | some l, _ => .ok (some l)
  | none, headers =>
    match (keyed ParsedHeader.key "content-length" headers).head? with
    | none => .ok none
    | some h => lengthOf h

lemma mem_dropStep (hn : name ∈ dropHeaders) (h : ParsedHeader) :
    name ∈ dropStep dropHeaders h := by
  unfold dropStep
  split_ifs
  · exact hn
  · exact mem_append_left _ hn
  · exact mem_append_left _ hn
  · exact hn

lemma kept_skip
    (hh : ¬ (h.key ∉ dropHeaders ∧ h.key ≠ "connection" ∧ h.key ≠ "transfer-encoding")) :
    kept dropHeaders (h :: headers) = kept (dropStep dropHeaders h) headers :=
  if_neg hh

lemma mem_kept (hh : h ∈ kept dropHeaders headers) :
    h ∈ headers ∧ h.key ∉ dropHeaders ∧ h.key ≠ "connection" ∧ h.key ≠ "transfer-encoding" := by
  induction headers generalizing dropHeaders with
  | nil => cases hh
  | cons x headers ih =>
    have hl : h ∈ kept (dropStep dropHeaders x) headers →
        h ∈ x :: headers ∧ h.key ∉ dropHeaders ∧ h.key ≠ "connection" ∧
          h.key ≠ "transfer-encoding" := by
      intro hm
      obtain ⟨hin, hdr, hn⟩ := ih hm
      exact ⟨mem_cons_of_mem x hin, fun hd => hdr (mem_dropStep hd x), hn⟩
    rw [kept] at hh
    split_ifs at hh with hx
    · rcases mem_cons.mp hh with rfl | hm
      · exact ⟨mem_cons_self, hx⟩
      · exact hl hm
    · exact hl hh

lemma keyed_kept_of_dropped (h : name ∈ dropHeaders) (headers : List ParsedHeader) :
    keyed ParsedHeader.key name (kept dropHeaders headers) = [] :=
  keyed_eq_nil fun _ hx heq => (mem_kept hx).2.1 (heq ▸ h)

lemma foundLength_of_nil (h : keyed ParsedHeader.key "content-length" headers = [])
    (bodyLength : Option BodyLength) : foundLength bodyLength headers = .ok bodyLength := by
  cases bodyLength with
  | none => simp [foundLength, h]
  | some => rfl

def trimmed (h : ParsedHeader) : ParsedHeader := ⟨trimEnd h.name, h.value⟩

end

section

variable {version : Version}

/-- **The loop**, by induction on the headers. -/
lemma onResponseHeaders_eq
    (hv : ∀ h ∈ headers, h.key = "transfer-encoding" → version = .http2 ∨ version = .http3)
    (s : Converting) : onResponseHeaders version s headers =
      (foundLength s.bodyLength (kept s.dropHeaders headers)).map fun l =>
        { headers := s.headers ++ (kept s.dropHeaders headers).map trimmed
          bodyLength := if recognises s.dropHeaders headers then some .chunked else l
          dropHeaders := dropsAfter s.dropHeaders headers } := by
  induction headers generalizing s with
  | nil =>
    have hf : foundLength s.bodyLength [] = .ok s.bodyLength := foundLength_of_nil rfl _
    simp [onResponseHeaders, kept, recognises, dropsAfter, hf, Except.map]
  | cons h headers ih =>
    have ih := ih fun x hx => hv x (mem_cons_of_mem h hx)
    by_cases hd : h.key ∈ s.dropHeaders
    · have hs : onResponseHeader version s h = .ok s := by rw [onResponseHeader, if_pos hd]
      have hdr : dropStep s.dropHeaders h = s.dropHeaders := if_pos hd
      simp [onResponseHeaders, hs, ih, kept_skip (fun hk => hk.1 hd), hdr,
        recognises, if_pos hd, dropsAfter]
    by_cases hc : h.key = "connection"
    · have hs : onResponseHeader version s h =
          .ok { s with dropHeaders := s.dropHeaders ++ connectionOptions h.value } := by
        rw [onResponseHeader, if_neg hd, if_pos hc]
      have hdr : dropStep s.dropHeaders h = s.dropHeaders ++ connectionOptions h.value := by
        rw [dropStep, if_neg hd, if_pos hc]
      simp [onResponseHeaders, hs, ih, kept_skip (fun hk => hk.2.1 hc), hdr,
        recognises, if_neg hd, if_pos hc, dropsAfter]
    by_cases hco : h.key = "transfer-encoding"
    · have hs : onResponseHeader version s h = .ok { s with
            bodyLength := if h.value = utf8 "chunked" then some .chunked else s.bodyLength
            dropHeaders := s.dropHeaders ++ ["content-length", "transfer-encoding"] } := by
        rw [onResponseHeader, if_neg hd, if_neg hc,  if_pos ⟨hco, hv h mem_cons_self hco⟩]
      -- no length and no coding is looked at from here on
      have hn := keyed_kept_of_dropped
        (show "content-length" ∈ s.dropHeaders ++ ["content-length", "transfer-encoding"] by simp)
        headers
      have hre := recognises_of_dropped
        (show "transfer-encoding" ∈ s.dropHeaders ++ ["content-length", "transfer-encoding"] by simp)
        headers
      have hdr : dropStep s.dropHeaders h =
          s.dropHeaders ++ ["content-length", "transfer-encoding"] := by
        rw [dropStep, if_neg hd, if_neg hc, if_pos hco]
      simp [onResponseHeaders, hs, ih, kept_skip (fun hk => hk.2.2 hco), hdr,
        recognises, if_neg hd, if_neg hc, if_pos hco, dropsAfter,
        foundLength_of_nil hn, Except.map, hre]
    · have hdro : dropStep s.dropHeaders h = s.dropHeaders := by
        rw [dropStep, if_neg hd, if_neg hc, if_neg hco]
      have hke : kept s.dropHeaders (h :: headers) = h :: kept s.dropHeaders headers := by
        rw [kept, if_pos ⟨hd, hc, hco⟩, hdro]
      have hdr : dropsAfter s.dropHeaders (h :: headers) = dropsAfter s.dropHeaders headers := by
        rw [dropsAfter, foldl_cons, hdro]
        rfl
      have hr : recognises s.dropHeaders (h :: headers) = recognises s.dropHeaders headers := by
        rw [recognises, if_neg hd, if_neg hc, if_neg hco]
      have ho : onResponseHeader version s h =
          if s.bodyLength = none ∧ h.key = "content-length" then
            match (fromUtf8 h.value).bind parseU64 with
            | none => .error (.other "Invalid Content-Length header value: ")
            | some n => .ok { s with headers := s.headers ++ [trimmed h], bodyLength := some (.determined n) }
          else .ok { s with headers := s.headers ++ [trimmed h] } := by
        rw [onResponseHeader, if_neg hd, if_neg hc, if_neg (fun h => hco h.1)]
        rfl
      rw [hke, hdr, hr, onResponseHeaders, ho]
      by_cases hfi : s.bodyLength = none ∧ h.key = "content-length"
      · have hf : foundLength s.bodyLength (h :: kept s.dropHeaders headers) = lengthOf h := by
          simp [hfi.1, foundLength, keyed_cons, if_pos hfi.2]
        rw [if_pos hfi, hf, lengthOf]
        cases (fromUtf8 h.value).bind parseU64 with
        | none => rfl
        | some =>
          simp [ih, foundLength, Except.map]
      · have hf : foundLength s.bodyLength (h :: kept s.dropHeaders headers) =
            foundLength s.bodyLength (kept s.dropHeaders headers) := by
          cases hl : s.bodyLength with
          | none =>
            have hna : h.key ≠ "content-length" := fun hle => hfi ⟨hl, hle⟩
            simp [foundLength, keyed_cons, if_neg hna]
          | some => rfl
        simp [if_neg hfi, hf, ih]

def finalLength (method : Method) (r : ParsedResponse) (l : Option BodyLength) : Option BodyLength :=
  if isBodiless method r.code then some (.determined 0)
  else if recognises hopHeaders r.headers then some .chunked else l

/-- **The conversion**, of headers that the builder accepts. -/
lemma convertResponse_eq (method : Method)
    (hv : ∀ h ∈ r.headers, h.key = "transfer-encoding" → version = .http2 ∨ version = .http3)
    (hs : 100 ≤ r.code ∧ r.code ≤ 999)
    (hva : ∀ h ∈ r.headers, isToken (trimEnd h.name) ∧ isHeaderValue h.value) :
    convertResponse method version r = (foundLength none (kept hopHeaders r.headers)).map fun l =>
        (⟨version, r.code, (kept hopHeaders r.headers).map trimmed⟩, finalLength method r l) := by
  have hi : (⟨version, r.code, (kept hopHeaders r.headers).map trimmed⟩ :
      ResponseHeaders).isValid := by
    simp only [ResponseHeaders.isValid, hs, decide_true, Bool.and_self, Bool.true_and,
      all_map, all_eq_true, Function.comp_apply, Bool.and_eq_true]
    exact fun h hh => hva h (mem_kept hh).1
  rw [convertResponse, onResponseHeaders_eq hv]
  cases foundLength none (kept hopHeaders r.headers) with
  | error => rfl
  | ok => simp [Except.map, hi, finalLength]

end

end Conversion

end TrustTunnel.HttpForwardedStream
