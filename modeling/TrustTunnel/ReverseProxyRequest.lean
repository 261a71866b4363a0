import TrustTunnel.RequestFraming
import TrustTunnel.ReverseProxyResponse

/-!
# The request the reverse proxy sends

`handle_stream` sends the head and waits; the body follows after the head of the response.
-/

namespace TrustTunnel.ReverseProxy

open Io Http Lib List
open Lib.Http1 hiding chunkSize Request
open HttpForwardedStream (Httparse ResponseHeaders fieldLine headerValues utf8_injective notMem_of_isUriText
  notMem_line parseRequestLine_line mapM_parseField readAs_fieldLine readAs_token)

/-! ## The head as it is read -/

section

variable (request : RequestHeaders)

lemma isUriText_requestTarget : isUriText (requestTarget request) := by
  unfold requestTarget
  cases hp : request.uri.pathAndQuery with
  | none => decide +kernel
  | some => simpa [hp] using request.uri.valid.2

def versionText (v : Version) : Bytes := utf8 "HTTP/1." ++ utf8 (toString (versionMinorDigit v))

lemma requestLine_eq : requestLine request = utf8 request.method.asStr ++
      32 :: (utf8 (requestTarget request) ++ 32 :: versionText request.version) := by
  have hb : utf8 " " = [32] := rfl
  have hv : utf8 " HTTP/1." = 32 :: utf8 "HTTP/1." := rfl
  simp [requestLine, versionText, hb, hv]

lemma parseVersion_versionText (v : Version) :
    parseVersion (versionText v) = some (1, versionMinorDigit v) := by
  cases v <;> decide +kernel

lemma notMem_requestLine : 13 ∉ requestLine request := by
  rw [requestLine_eq]
  refine notMem_line request.method (isUriText_requestTarget request) ?_
  cases request.version <;> decide +kernel

lemma parseRequestLine_requestLine : parseRequestLine (requestLine request) =
      if requestTarget request = "" then none
      else some ⟨utf8 request.method.asStr, utf8 (requestTarget request), 1,
        versionMinorDigit request.version⟩ := by
  rw [requestLine_eq]
  exact parseRequestLine_line _ (isUriText_requestTarget request) (parseVersion_versionText _)

def fieldsOf : List Field :=
  (request.uri.authority.map (fun host => (⟨utf8 "host", trim (utf8 host.asStr)⟩ : Field))).toList
    ++ request.headers.map (fun h => ⟨utf8 h.name, trim h.value⟩)

lemma readAs_fieldLines :
    List.Forall₂ HttpForwardedStream.ReadAs (fieldLines request) (fieldsOf request) := by
  have hhe : ∀ headers : List Header, List.Forall₂ HttpForwardedStream.ReadAs
      (headers.map (fun h => fieldLine h.name h.value))
      (headers.map (fun h => (⟨utf8 h.name, trim h.value⟩ : Field))) := by
    intro headers
    induction headers with
    | nil => exact .nil
    | cons h headers ih =>
      have hv : 13 ∉ h.value := fun hm => by
        have := all_eq_true.mp h.valid.2 13 hm
        exact absurd this (by decide)
      exact .cons (readAs_fieldLine h.valid.1 hv) ih
  unfold fieldLines fieldsOf
  cases hauth : request.uri.authority with
  | none => exact hhe request.headers
  | some host =>
    have hh : HttpForwardedStream.ReadAs (fieldLine "Host" (utf8 host.asStr))
        ⟨utf8 "host", trim (utf8 host.asStr)⟩ :=
      readAs_token (by decide +kernel) (notMem_of_isUriText host.valid (by decide))
    exact .cons hh (hhe request.headers)

omit request in
lemma values_headers (name : String) (headers : List Header) :
    values (utf8 name) (headers.map (fun h => (⟨utf8 h.name, trim h.value⟩ : Field))) =
      (headerValues name headers).map trim := by
  induction headers with
  | nil => rfl
  | cons h headers ih =>
    have heq : (utf8 h.name == utf8 name) = (h.name == name) := by
      rw [Bool.eq_iff_iff, beq_iff_eq, beq_iff_eq]
      exact ⟨fun h => utf8_injective h, fun h => by rw [h]⟩
    simp only [values, headerValues] at ih ⊢
    rw [map_cons, filter_cons, filter_cons]
    simp only [heq]
    split
    · simp [ih]
    · exact ih

lemma values_fieldsOf (name : String) (hn : name ≠ "host") :
    values (utf8 name) (fieldsOf request) = (headerValues name request.headers).map trim := by
  have hh : (request.uri.authority.map
      (fun host => (⟨utf8 "host", trim (utf8 host.asStr)⟩ : Field))).toList.filter
        (fun f => f.name == utf8 name) = [] := by
    have hne : (utf8 "host" == utf8 name) = false := by
      rw [beq_eq_false_iff_ne]
      exact fun h => hn (utf8_injective h).symm
    cases request.uri.authority with
    | none => rfl
    | some => simp [hne]
  rw [← values_headers, fieldsOf, values_append]
  simp [values, hh]

lemma parseRequest_encodeRequest : parseRequest (encodeRequest request) =
      if requestTarget request = "" then none else (framingOf 1 (versionMinorDigit request.version)
          ((headerValues "transfer-encoding" request.headers).map trim)
          ((headerValues "content-length" request.headers).map trim)).bind (fun framing =>
        (readBody framing []).map (fun x =>
          (⟨⟨utf8 request.method.asStr, utf8 (requestTarget request), 1,
            versionMinorDigit request.version⟩, fieldsOf request, x.1, x.2.1⟩, x.2.2))) := by
  obtain ⟨hl, hf⟩ := mapM_parseField (readAs_fieldLines request)
  have hp := parseRequest_lines (notMem_requestLine request) hl []
  rw [append_nil] at hp
  rw [encodeRequest, hp, parseRequestLine_requestLine, hf]
  split
  · rfl
  · simp only [Option.bind_eq_bind, Option.bind_some, bodyFraming,
      values_fieldsOf request "transfer-encoding" (by decide),
      values_fieldsOf request "content-length" (by decide)]
    cases framingOf 1 (versionMinorDigit request.version)
        ((headerValues "transfer-encoding" request.headers).map trim)
        ((headerValues "content-length" request.headers).map trim) with
    | none => rfl
    | some framing =>
      simp only [Option.bind_some]
      cases readBody framing [] <;> rfl

/-- No transfer coding, and no length but zero. -/
structure Bodiless : Prop where
  target : requestTarget request ≠ ""
  codings : headerValues "transfer-encoding" request.headers = []
  lengths : headerValues "content-length" request.headers = [] ∨
    ∃ v, headerValues "content-length" request.headers = [v] ∧
      (trim v ≠ [] ∧ (trim v).all isDigit = true) ∧ decimal (trim v) = 0

def OneRequest (body bytes : Bytes) : Prop :=
  ∃ r, parseRequest bytes = some (r, []) ∧ r.content = body

lemma readBody_nil (framing : BodyFraming) :
    readBody framing [] = if framing = .length 0 then some ([], [], []) else none := by
  cases framing with
  | length n => cases n <;> simp [readBody]
  | chunked => rfl

lemma framingOf_eq_zero (minor : Nat) (codings lengths : List Bytes) :
    framingOf 1 minor codings lengths = some (.length 0) ↔
      codings = [] ∧ (lengths = [] ∨ ∃ v, lengths = [v] ∧ (v ≠ [] ∧ v.all isDigit) ∧
        decimal v = 0) := by
  rcases codings with _ | ⟨c, codings⟩ <;> rcases lengths with _ | ⟨v, _ | ⟨w, lengths⟩⟩
  · simp [framingOf]
  · by_cases hv : v ≠ [] ∧ v.all isDigit
    · rw [framingOf, if_pos hv]
      constructor
      · intro h
        exact ⟨rfl, .inr ⟨v, rfl, hv, BodyFraming.length.inj (Option.some.inj h)⟩⟩
      · rintro ⟨-, h | ⟨w, hw, -, hz⟩⟩
        · cases h
        · cases hw
          rw [hz]
    · rw [framingOf, if_neg hv]
      refine iff_of_false (fun h => by cases h) ?_
      rintro ⟨-, h | ⟨w, hw, hd, -⟩⟩
      · cases h
      · cases hw
        exact hv hd
  · simp [framingOf]
  · simp only [framingOf]
    split <;> simp
  · simp [framingOf]
  · simp [framingOf]

lemma oneRequest_encodeRequest (body : Bytes) :
    OneRequest body (encodeRequest request) ↔ body = [] ∧ Bodiless request := by
  have hl : (((headerValues "content-length" request.headers).map trim = [] ∨
      ∃ v, (headerValues "content-length" request.headers).map trim = [v] ∧
        (v ≠ [] ∧ v.all isDigit) ∧ decimal v = 0)) ↔
      (headerValues "content-length" request.headers = [] ∨
        ∃ v, headerValues "content-length" request.headers = [v] ∧
          (trim v ≠ [] ∧ (trim v).all isDigit) ∧ decimal (trim v) = 0) := by
    rcases headerValues "content-length" request.headers with _ | ⟨v, _ | ⟨w, vs⟩⟩ <;> simp
  have hfr := framingOf_eq_zero (versionMinorDigit request.version)
    ((headerValues "transfer-encoding" request.headers).map trim)
    ((headerValues "content-length" request.headers).map trim)
  rw [map_eq_nil_iff, hl] at hfr
  unfold OneRequest
  rw [parseRequest_encodeRequest]
  constructor
  · rintro ⟨r, hp, rfl⟩
    obtain ⟨ht, hp⟩ := Option.ite_none_left_eq_some.mp hp
    obtain ⟨framing, hf, hre⟩ := Option.bind_eq_some_iff.mp hp
    obtain ⟨x, hx, hr⟩ := Option.map_eq_some_iff.mp hre
    rw [readBody_nil] at hx
    obtain ⟨hz, ⟨⟩⟩ := Option.ite_none_right_eq_some.mp hx
    cases hr
    obtain ⟨hc, hle⟩ := hfr.mp (hz ▸ hf)
    exact ⟨rfl, ht, hc, hle⟩
  · rintro ⟨rfl, hb⟩
    rw [if_neg hb.target, hfr.mpr ⟨hb.codings, hb.lengths⟩,
      Option.bind_some, readBody_nil, if_pos rfl]
    exact ⟨_, rfl, rfl⟩

lemma headerValues_insertHeader (hn : header.name ≠ name) (headers : List Header) :
    headerValues name (insertHeader header headers) = headerValues name headers := by
  have hheader : (header.name == name) = false := beq_eq_false_iff_ne.mpr hn
  induction headers with
  | nil => simp [insertHeader, headerValues, hheader]
  | cons h headers ih =>
    unfold insertHeader
    split
    · rename_i heq
      have hh : (h.name == name) = false := by rw [heq, hheader]
      have hk : ∀ x : Header, (x.name == name) → x.name ≠ header.name :=
        fun x hx heq => hn (heq ▸ beq_iff_eq.mp hx)
      simp only [headerValues, filter_cons, hheader, hh, filter_filter]
      congr 1
      apply filter_congr
      intro x _
      cases hx : x.name == name with
      | false => rfl
      | true => simp [hk x hx]
    · simp only [headerValues, filter_cons] at ih ⊢
      split
      · simp [ih]
      · exact ih

lemma bodiless_translateRequest (protocol : Protocol) (h3BackwardCompatibility : Bool) :
    Bodiless (translateRequest protocol h3BackwardCompatibility request) ↔ Bodiless request := by
  have htg : requestTarget (translateRequest protocol h3BackwardCompatibility request) =
      requestTarget request := by
    cases protocol <;> rfl
  have hh : (translateRequest protocol h3BackwardCompatibility request).headers =
      insertHeader (originalProtocol protocol) request.headers := by
    cases protocol <;> rfl
  have hn : (originalProtocol protocol).name = "x-original-protocol" := rfl
  have hv : ∀ name, name ≠ "x-original-protocol" →
      headerValues name (translateRequest protocol h3BackwardCompatibility request).headers =
        headerValues name request.headers := by
    intro name hne
    rw [hh, headerValues_insertHeader (fun h => hne (h.symm.trans hn))]
  constructor
  · rintro ⟨ht, hc, hl⟩
    rw [hv _ (by decide)] at hc hl
    exact ⟨htg ▸ ht, hc, hl⟩
  · rintro ⟨ht, hc, hl⟩
    exact ⟨htg ▸ ht, by rw [hv _ (by decide), hc], by rw [hv _ (by decide)]; exact hl⟩

end

/-! ## What the server is sent -/

section

variable {σ : Type}

def SameRequest (s s' : Stream σ) : Prop := s'.written = s.written ∧ s'.unsent = s.unsent

variable (C : ClientCalls σ) (P : Httparse) (protocol : Protocol) (version : Version)

lemma sameRequest_onDecoded (s : Stream σ) (d : Decoder σ) (buffer : Bytes) :
    SameRequest s (s.onDecoded C d buffer) := by
  unfold Stream.onDecoded Stream.skipTrailers
  split
  · exact ⟨rfl, rfl⟩
  · exact ⟨rfl, rfl⟩
  · exact ⟨rfl, rfl⟩
  · split
    · exact ⟨rfl, rfl⟩
    · split <;> exact ⟨rfl, rfl⟩

lemma sameRequest_buffer (s : Stream σ) (response : ResponseHeaders) (body : Bytes)
    (remaining : Nat) : SameRequest s (s.buffer C response body remaining) := by
  unfold Stream.buffer
  split
  · exact ⟨rfl, rfl⟩
  · split <;> exact ⟨rfl, rfl⟩

lemma sameRequest_passOn (s : Stream σ) (remaining : Nat) :
    SameRequest s (s.passOn C remaining) := by
  unfold Stream.passOn
  split <;> exact ⟨rfl, rfl⟩

lemma sameRequest_onResponse (s : Stream σ) (head : ResponseHeaders) (chunk : Bytes) :
    SameRequest s (s.onResponse C protocol head chunk) := by
  unfold Stream.onResponse
  simp only
  split
  · exact sameRequest_buffer C s _ _ _
  · split
    · exact sameRequest_onDecoded C s _ _
    · split
      · exact ⟨rfl, rfl⟩
      · split
        · split
          · exact sameRequest_passOn C _ _
          · exact ⟨rfl, rfl⟩
        · exact ⟨rfl, rfl⟩

lemma sameRequest_settlePipe (s : Stream σ) (upload download : Bool) :
    SameRequest s (s.settlePipe upload download) := by
  unfold Stream.settlePipe
  split <;> exact ⟨rfl, rfl⟩

lemma sameRequest_onUpstreamChunk
    (h : s.onUpstreamChunk C P protocol version chunk = some s') : SameRequest s s' := by
  unfold Stream.onUpstreamChunk at h
  split at h
  · cases h
    unfold Stream.readHead
    split
    · exact ⟨rfl, rfl⟩
    · exact ⟨rfl, rfl⟩
    · exact sameRequest_onResponse C protocol s _ _
  · cases h
    exact sameRequest_buffer C s _ _ _
  · cases h
    exact sameRequest_onDecoded C s _ _
  · cases h
    unfold Stream.skipTrailers
    split <;> exact ⟨rfl, rfl⟩
  · simp only at h
    split at h <;> cases h
    · exact ⟨rfl, rfl⟩
    · exact sameRequest_passOn C _ _
  · split at h <;> cases h <;> exact ⟨rfl, rfl⟩
  · cases h

lemma sameRequest_onUpstreamEof (h : s.onUpstreamEof C version = some s') : SameRequest s s' := by
  unfold Stream.onUpstreamEof at h
  split at h
  · cases h; exact ⟨rfl, rfl⟩
  · cases h; exact ⟨rfl, rfl⟩
  · cases h; exact ⟨rfl, rfl⟩
  · cases h; exact ⟨rfl, rfl⟩
  · cases h; exact sameRequest_passOn C s 0
  · split at h <;> cases h
    · exact ⟨rfl, rfl⟩
    · exact sameRequest_settlePipe _ _ _
  · cases h

def Patient (s : Stream σ) : Event → Prop
  | .upstream _ => (parseRequest s.written).isSome = true
  | _ => True

/-- While it waits for the response, the server has the whole request. -/
def Served (body : Bytes) (s : Stream σ) : Prop :=
  match s.phase with
  | .connecting | .sendingRequest | .returned _ => True
  | _ => s.unsent = [] ∧ OneRequest body s.written

structure HeadOnly (head : Bytes) (s : Stream σ) : Prop where
  unsent : s.unsent = []
  written : s.phase = .connecting ∨ s.phase = .sendingRequest ∨
    (∃ r, s.phase = .returned r) ∨ s.written = head

variable {C P protocol}

section

variable {head : Bytes} {s s' : Stream σ}

lemma HeadOnly.served (h : HeadOnly head s) (ho : OneRequest body head) : Served body s := by
  unfold Served
  rcases h.written with hp | hp | ⟨r, hp⟩ | hw
  · simp [hp]
  · simp [hp]
  · simp [hp]
  · split
    · trivial
    · trivial
    · trivial
    · exact ⟨h.unsent, hw ▸ ho⟩

lemma HeadOnly.of_returned (h : HeadOnly head s) (hs : SameRequest s s')
    (hp : ∃ r, s'.phase = .returned r) : HeadOnly head s' :=
  ⟨hs.2.trans h.unsent, .inr (.inr (.inl hp))⟩

lemma HeadOnly.upstream (h : HeadOnly head s) (hs : SameRequest s s')
    (hph : s.phase ≠ .connecting ∧ s.phase ≠ .sendingRequest)
    (hr : ∀ r, s.phase ≠ .returned r) : HeadOnly head s' := by
  refine ⟨hs.2.trans h.unsent, .inr (.inr (.inr ?_))⟩
  rcases h.written with hp | hp | ⟨r, hp⟩ | hw
  · exact absurd hp hph.1
  · exact absurd hp hph.2
  · exact absurd hp (hr r)
  · exact hs.1.trans hw

lemma HeadOnly.onUpstreamChunk (h : HeadOnly head s)
    (hs : s.onUpstreamChunk C P protocol version chunk = some s') : HeadOnly head s' := by
  refine h.upstream (sameRequest_onUpstreamChunk C P protocol version hs)
    ⟨fun hp => ?_, fun hp => ?_⟩ (fun r hp => ?_) <;>
  · rw [Stream.onUpstreamChunk, hp] at hs
    cases hs

lemma HeadOnly.onUpstreamEof (h : HeadOnly head s) (hs : s.onUpstreamEof C version = some s') :
    HeadOnly head s' := by
  refine h.upstream (sameRequest_onUpstreamEof C version hs)
    ⟨fun hp => ?_, fun hp => ?_⟩ (fun r hp => ?_) <;>
  · rw [Stream.onUpstreamEof, hp] at hs
    cases hs

lemma HeadOnly.step
    (h : HeadOnly (encodeRequest (translateRequest protocol h3BackwardCompatibility request)) s)
    (hs : s.step C P protocol h3BackwardCompatibility request e = some s') :
    HeadOnly (encodeRequest (translateRequest protocol h3BackwardCompatibility request)) s' := by
  unfold Stream.step at hs
  split at hs
  case h_1 =>
    split at hs <;> cases hs
    · exact ⟨h.unsent, .inr (.inl rfl)⟩
    · exact h.of_returned ⟨rfl, rfl⟩ ⟨_, rfl⟩
  case h_2 =>
    split at hs <;> cases hs
    · exact ⟨h.unsent, .inr (.inr (.inr rfl))⟩
    · exact h.of_returned ⟨rfl, rfl⟩ ⟨_, rfl⟩
  case h_3 => exact h.onUpstreamChunk request.version hs
  case h_4 => exact h.onUpstreamEof request.version hs
  case h_5 =>
    split at hs <;> cases hs <;> exact h.of_returned ⟨rfl, rfl⟩ ⟨_, rfl⟩
  case h_6 =>
    split at hs
    · -- there are no bytes of the body to send
      obtain ⟨hn, hs⟩ := Option.ite_none_right_eq_some.mp hs
      rw [h.unsent, length_nil] at hn
      omega
    · cases hs
      exact h.of_returned ⟨rfl, rfl⟩ ⟨_, rfl⟩
    · cases hs
  case h_7 =>
    split at hs
    · rename_i hph
      split at hs <;> cases hs
      exact h.upstream (sameRequest_settlePipe s _ _)
        ⟨fun hp => by simp [hph] at hp, fun hp => by simp [hph] at hp⟩
        (fun r hp => by simp [hph] at hp)
    · cases hs
      exact h.of_returned ⟨rfl, rfl⟩ ⟨_, rfl⟩
    · cases hs
  case h_8 =>
    split at hs <;> cases hs
    exact h.of_returned ⟨rfl, rfl⟩ ⟨_, rfl⟩
  case h_9 =>
    split at hs <;> cases hs
    exact h.of_returned ⟨rfl, rfl⟩ ⟨_, rfl⟩

end

end

section

variable {σ : Type} (C : ClientCalls σ) (P : Httparse) (client : σ) (protocol : Protocol)
  (h3BackwardCompatibility : Bool) (request : RequestHeaders) (body : Bytes)

/-- **Requests that get through** to a patient server: exactly those without a body. -/
theorem served_iff :
    (∀ events, EveryStep (Stream.step C P protocol h3BackwardCompatibility request) Patient
        (.new client body) events →
      EveryState (Stream.step C P protocol h3BackwardCompatibility request) (Served body)
        (.new client body) events) ↔
      body = [] ∧ Bodiless request := by
  have hh := oneRequest_encodeRequest
    (translateRequest protocol h3BackwardCompatibility request) body
  rw [bodiless_translateRequest] at hh
  constructor
  · intro h
    have hs := h [.connected (.ok ()), .requestSent (.ok ())]
      (fun _ _ => ⟨trivial, fun _ _ => ⟨trivial, trivial⟩⟩)
    obtain ⟨-, hs⟩ := hs _ rfl
    obtain ⟨⟨-, ho⟩, -⟩ := hs _ rfl
    exact hh.mp ho
  · rintro ⟨hbo, hb⟩ events he
    have ho := hh.mpr ⟨hbo, hb⟩
    exact everyState_of_everyStep (fun s e s' hi _ hst => HeadOnly.step hi hst)
      (fun s hi => hi.served ho) ⟨hbo, .inl rfl⟩ he

end

def upload : RequestHeaders :=
  { method := .post, version := .http2
    uri := { authority := none, pathAndQuery := some "/upload", path := "/upload" }
    headers := [{ name := "content-length", value := utf8 "5" }] }

/-- The response is waited for with the body unsent. -/
theorem upload_held :
    ∃ s, run (Stream.step Recorder.calls HttpForwardedStream.scanner .http2 false upload)
        (.new .new (utf8 "hello")) [.connected (.ok ()), .requestSent (.ok ())] = some s ∧
      s.phase = .waitingResponse [] ∧ s.unsent = utf8 "hello" ∧
      ∀ e, Patient s e →
        s.step Recorder.calls HttpForwardedStream.scanner .http2 false upload e = none := by
  refine ⟨_, rfl, rfl, rfl, fun e hp => ?_⟩
  cases e with
  | upstream =>
    have hn : parseRequest (encodeRequest (translateRequest .http2 false upload)) = none := by
      decide +kernel
    have hs : (parseRequest (encodeRequest (translateRequest .http2 false upload))).isSome =
      true := hp
    rw [hn] at hs
    cases hs
  | connected | requestSent | body | bodyEnd | bodyFailed | timeout => rfl

end TrustTunnel.ReverseProxy
