import TrustTunnel.ForwardedRequest

/-!
# The framing of forwarded requests

The origin finds exactly one request with the client's body under a condition (`Framable`).
-/

namespace TrustTunnel.HttpForwardedStream

open Io Http Authentication List BodyLength
open Lib.Http1 hiding readBody Request

/-! ## Reading the head back -/

section

variable {s name : String} {b : UInt8} {value serialized : Bytes} {targetHost : Authority}
  {h : Header} {request : RequestHeaders} {bodyLength : BodyLength}

lemma utf8_injective (h : utf8 s = utf8 t) : s = t := by
  apply String.toByteArray_inj.mp
  exact ByteArray.ext (Array.toList_inj.mp h)

lemma ne_of_isToken (hs : isToken s) (hb : isTokenByte b = false) : b ∉ utf8 s := by
  intro hm
  simp only [isToken, Bool.and_eq_true, all_eq_true] at hs
  simp [hs.2 b hm] at hb

lemma isToken_asStr (m : Method) : isToken m.asStr := by
  cases m with
  | extension token h => exact h
  | _ => decide +kernel

lemma isUriText_requestTarget (request : RequestHeaders) : isUriText (requestTarget request) := by
  unfold requestTarget
  split
  · cases hp : request.uri.pathAndQuery with
    | none => exact request.uri.valid.1
    | some => simpa [hp] using request.uri.valid.2
  · decide +kernel

lemma notMem_of_isUriText (hs : isUriText s) (hb : b ≤ 32) : b ∉ utf8 s := by
  intro hm
  have := all_eq_true.mp hs b hm
  simp only [Bool.and_eq_true, decide_eq_true_eq] at this
  exact absurd hb (UInt8.not_le.mpr this.1)

def versionText (v : Version) : Bytes :=
  utf8 "HTTP/" ++ utf8 (toString (versionMajorDigit v)) ++ utf8 "."
    ++ utf8 (toString (versionMinorDigit v))

lemma requestLine_eq (request : RequestHeaders) :
    requestLine request = utf8 request.method.asStr ++
      32 :: (utf8 (requestTarget request) ++ 32 :: versionText request.version) := by
  have hb : utf8 " " = [32] := rfl
  have hv : utf8 " HTTP/" = 32 :: utf8 "HTTP/" := rfl
  simp [requestLine, versionText, hb, hv]

lemma parseVersion_versionText (v : Version) :
    parseVersion (versionText v) = some (versionMajorDigit v, versionMinorDigit v) := by
  cases v <;> decide +kernel

lemma notMem_line (m : Method) (hs : isUriText s) (hv : 13 ∉ v) :
    13 ∉ utf8 m.asStr ++ 32 :: (utf8 s ++ 32 :: v) := by
  have hm := ne_of_isToken (isToken_asStr m) (b := 13) (by decide)
  have ht := notMem_of_isUriText hs (b := 13) (by decide)
  simp [hm, ht, hv]

lemma notMem_requestLine (request : RequestHeaders) : 13 ∉ requestLine request := by
  rw [requestLine_eq]
  refine notMem_line request.method (isUriText_requestTarget request) ?_
  cases request.version <;> decide +kernel

lemma parseRequestLine_line (m : Method)
    (hs : isUriText s) (hv : parseVersion v = some (major, minor)) :
    parseRequestLine (utf8 m.asStr ++ 32 :: (utf8 s ++ 32 :: v)) =
      if s = "" then none else some ⟨utf8 m.asStr, utf8 s, major, minor⟩ := by
  have hm := isToken_asStr m
  simp only [isToken, Bool.and_eq_true, Bool.not_eq_true', isEmpty_eq_false_iff] at hm
  have ht := notMem_of_isUriText hs (b := 32) (by decide)
  have he : utf8 s = [] ↔ s = "" := ⟨fun h => utf8_injective h, fun h => by rw [h]; rfl⟩
  rw [parseRequestLine_append hm ht, hv]
  simp [he]

lemma parseRequestLine_requestLine (request : RequestHeaders) :
    parseRequestLine (requestLine request) = if requestTarget request = "" then none
      else some ⟨utf8 request.method.asStr, utf8 (requestTarget request),
        versionMajorDigit request.version, versionMinorDigit request.version⟩ := by
  rw [requestLine_eq]
  exact parseRequestLine_line _ (isUriText_requestTarget request) (parseVersion_versionText _)

def headerField (targetHost : Authority) (h : Header) : Option Field :=
  if h.name = "proxy-authorization" ∨ h.name = "proxy-connection" then none
  else if h.name = "host" then some ⟨utf8 "host", trim (utf8 targetHost.asStr)⟩
  else some ⟨utf8 h.name, trim h.value⟩

lemma fieldLine_eq (name : String) (value : Bytes) :
    fieldLine name value = utf8 name ++ 58 :: 32 :: value := by
  have hc : utf8 ": " = [58, 32] := rfl
  simp [fieldLine, hc]

def ReadAs (line : Bytes) (field : Field) : Prop :=
  line ≠ [] ∧ 13 ∉ line ∧ parseField line = some field

lemma readAs_token (ht : isToken name) (hv : 13 ∉ value) :
    ReadAs (fieldLine name value) ⟨(utf8 name).map lower, trim value⟩ := by
  have hcr := ne_of_isToken ht (b := 13) (by decide)
  simp only [isToken, Bool.and_eq_true, Bool.not_eq_true', isEmpty_eq_false_iff] at ht
  rw [ReadAs, fieldLine_eq, parseField_append ht]
  refine ⟨by simp, by simp [hcr, hv], ?_⟩
  simp [trim, isOws]

lemma readAs_fieldLine (hn : isHeaderName name) (hv : 13 ∉ value) :
    ReadAs (fieldLine name value) ⟨utf8 name, trim value⟩ := by
  simp only [isHeaderName, Bool.and_eq_true, all_eq_true] at hn
  obtain ⟨ht, hl⟩ := hn
  have hm : (utf8 name).map lower = utf8 name := by
    rw [map_congr_left (g := id) (fun b hb => ?_), map_id]
    have hu := hl b hb
    simp only [Bool.not_eq_true'] at hu
    simp [lower, hu]
  have hr := readAs_token ht hv
  rwa [hm] at hr

lemma readAs_headerLine (hl : headerLine targetHost h = some line) :
    ∃ field, headerField targetHost h = some field ∧ ReadAs line field := by
  have ha := notMem_of_isUriText targetHost.valid (b := 13) (by decide)
  have hv : 13 ∉ h.value := fun hm => by
    have := all_eq_true.mp h.valid.2 13 hm
    exact absurd this (by decide)
  unfold headerLine at hl
  unfold headerField
  obtain ⟨hp, hl⟩ := Option.ite_none_left_eq_some.mp hl
  rw [if_neg hp]
  split at hl
  · rename_i hh
    cases hl
    rw [if_pos hh]
    exact ⟨_, rfl, readAs_fieldLine (by decide +kernel) ha⟩
  · rename_i hh
    cases hl
    rw [if_neg hh]
    exact ⟨_, rfl, readAs_fieldLine h.valid.1 hv⟩

lemma headerField_eq_none (hl : headerLine targetHost h = none) :
    headerField targetHost h = none := by
  unfold headerLine at hl
  unfold headerField
  split at hl
  · rename_i hp
    rw [if_pos hp]
  · split at hl <;> cases hl

lemma mapM_parseField (h : List.Forall₂ ReadAs lines fields) :
    (∀ l ∈ lines, l ≠ [] ∧ 13 ∉ l) ∧ lines.mapM parseField = some fields := by
  induction h with
  | nil => exact ⟨by simp, rfl⟩
  | cons hr _ ih =>
    obtain ⟨hli, hf⟩ := ih
    refine ⟨fun l hl => ?_, by simp [mapM_cons, hr.2.2, hf]⟩
    rcases mem_cons.mp hl with rfl | hl
    · exact ⟨hr.1, hr.2.1⟩
    · exact hli l hl

lemma forall₂_headerLines (targetHost : Authority) (headers : List Header) :
    List.Forall₂ ReadAs (headers.filterMap (headerLine targetHost))
      (headers.filterMap (headerField targetHost)) := by
  induction headers with
  | nil => exact .nil
  | cons h headers ih =>
    cases hl : headerLine targetHost h with
    | none =>
      rw [filterMap_cons_none hl, filterMap_cons_none (headerField_eq_none hl)]
      exact ih
    | some =>
      obtain ⟨field, hf, hr⟩ := readAs_headerLine hl
      rw [filterMap_cons_some hl, filterMap_cons_some hf]
      exact .cons hr ih

lemma values_headerFields (name : String) (targetHost : Authority) (headers : List Header)
    (hp : name ≠ "proxy-authorization" ∧ name ≠ "proxy-connection") (hh : name ≠ "host") :
    values (utf8 name) (headers.filterMap (headerField targetHost)) =
      (headerValues name headers).map trim := by
  induction headers with
  | nil => rfl
  | cons h headers ih =>
    by_cases hn : h.name = name
    · have hf : headerField targetHost h = some ⟨utf8 name, trim h.value⟩ := by
        simp [headerField, hn, hp, hh]
      rw [filterMap_cons_some hf]
      simp only [values, headerValues] at ih ⊢
      simp [hn, ih]
    · have hs : values (utf8 name) ((h :: headers).filterMap (headerField targetHost)) =
          values (utf8 name) (headers.filterMap (headerField targetHost)) := by
        cases hf : headerField targetHost h with
        | none => rw [filterMap_cons_none hf]
        | some field =>
          have hne : field.name ≠ utf8 name := by
            obtain ⟨-, hf⟩ := Option.ite_none_left_eq_some.mp hf
            split at hf <;> cases hf
            · exact fun h => hh (utf8_injective h).symm
            · exact fun h => hn (utf8_injective h)
          rw [filterMap_cons_some hf]
          simp [values, hne]
      rw [hs, ih]
      simp [headerValues, hn]

lemma onHeaders_host {s s' : Serializing} {headers : List Header}
    (hs : onHeaders targetHost s headers = .ok s') :
    s'.hostInserted.toNat = s.hostInserted.toNat + (headerValues "host" headers).length := by
  induction headers generalizing s with
  | nil =>
    cases hs
    rfl
  | cons h headers ih =>
    unfold onHeaders at hs
    split at hs
    · cases hs
    · rename_i s1 hs1
      have ho : h.name ≠ "host" → s1.hostInserted = s.hostInserted → s'.hostInserted.toNat =
            s.hostInserted.toNat + (headerValues "host" (h :: headers)).length := by
        intro hn hk
        rw [ih hs, hk]
        simp [headerValues, hn]
      unfold onHeader at hs1
      split at hs1
      · rename_i hp
        cases hs1
        exact ho (fun hn => by simp [hn] at hp) rfl
      · split at hs1
        · rename_i hn
          split at hs1
          · cases hs1
          · rename_i hi
            cases hs1
            rw [ih hs]
            simp [headerValues, hn, hi]
            omega
        · rename_i hn
          split at hs1
          · cases hs1
          · cases hs1
            exact ho hn rfl

/-- Those of the headers, and a host if they have none. -/
lemma serialized_fields (h : serializeRequest request = .ok (serialized, bodyLength)) :
    ∃ (targetHost : Authority) (lines : List Bytes), request.uri.authority = some targetHost ∧
      serialized = requestLine request ++ crlf ++ (lines.flatMap (fun l => l ++ crlf) ++ crlf) ∧
      (∀ l ∈ lines, l ≠ [] ∧ 13 ∉ l) ∧ (headerValues "host" request.headers).length ≤ 1 ∧
      lines.mapM parseField = some (request.headers.filterMap (headerField targetHost) ++
        if headerValues "host" request.headers = [] then
          [⟨utf8 "host", trim (utf8 targetHost.asStr)⟩] else []) := by
  unfold serializeRequest at h
  split at h
  · cases h
  · rename_i targetHost ha
    split at h
    · cases h
    · rename_i s hs
      cases h
      have hse := onHeaders_serialized hs
      have hh := onHeaders_host hs
      have hl := forall₂_headerLines targetHost request.headers
      refine ⟨targetHost, ?_⟩
      cases hho : s.hostInserted with
      | true =>
        rw [hho] at hh
        have hne : headerValues "host" request.headers ≠ [] := by
          intro hn
          rw [hn] at hh
          cases hh
        have hle : (headerValues "host" request.headers).length ≤ 1 := by
          simp at hh
          omega
        obtain ⟨hcr, hf⟩ := mapM_parseField hl
        rw [if_neg hne, append_nil]
        exact ⟨_, ha, by simp [hse], hcr, hle, hf⟩
      | false =>
        rw [hho] at hh
        have hn : headerValues "host" request.headers = [] := by
          simp at hh
          exact length_eq_zero_iff.mp hh.symm
        have hcr := notMem_of_isUriText targetHost.valid (b := 13) (by decide)
        have hna : isHeaderName "host" := by decide +kernel
        have hli := readAs_fieldLine hna hcr
        obtain ⟨hcr, hf⟩ := mapM_parseField (rel_append hl (.cons hli .nil))
        rw [if_pos hn]
        exact ⟨_, ha, by simp [hse], hcr, by simp [hn], hf⟩

lemma serialized_head (h : serializeRequest request = .ok (serialized, bodyLength)) :
    ∃ (lines : List Bytes) (fields : List Field),
      serialized = requestLine request ++ crlf ++ (lines.flatMap (fun l => l ++ crlf) ++ crlf) ∧
      (∀ l ∈ lines, l ≠ [] ∧ 13 ∉ l) ∧ lines.mapM parseField = some fields ∧
      values (utf8 "transfer-encoding") fields =
        (headerValues "transfer-encoding" request.headers).map trim ∧
      values (utf8 "content-length") fields =
        (headerValues "content-length" request.headers).map trim := by
  obtain ⟨targetHost, lines, -, hs, hl, -, hf⟩ := serialized_fields h
  have ho : ∀ name : String, name ≠ "host" →
      values (utf8 name) (if headerValues "host" request.headers = [] then
        [⟨utf8 "host", trim (utf8 targetHost.asStr)⟩] else []) = [] := by
    intro name hn
    have hne : ¬ utf8 "host" = utf8 name := fun h => hn (utf8_injective h).symm
    split
    · simp [values, hne]
    · rfl
  refine ⟨lines, _, hs, hl, hf, ?_, ?_⟩
  · rw [values_append, ho _ (by decide), append_nil,
      values_headerFields _ _ _ (by decide) (by decide)]
  · rw [values_append, ho _ (by decide), append_nil,
      values_headerFields _ _ _ (by decide) (by decide)]

end

/-! ## The length that is decided on -/

lemma serialized_bodyLength (h : serializeRequest request = .ok (serialized, bodyLength)) :
    ∃ l, bodyLength = finalBodyLength request l ∧
      (utf8 "chunked" ∈ headerValues "transfer-encoding" request.headers → l = some .chunked) ∧
      (utf8 "chunked" ∉ headerValues "transfer-encoding" request.headers →
        (headerValues "content-length" request.headers = [] ∧ l = none) ∨
        ∃ v n, headerValues "content-length" request.headers = [v] ∧
          (toStr v).bind parseU64 = some n ∧ l = some (.determined n)) := by
  unfold serializeRequest at h
  split at h
  · cases h
  · split at h
    · cases h
    · rename_i s hs
      cases h
      exact ⟨s.bodyLength, rfl, fun hm => onHeaders_chunked hs (.inr hm),
        fun hm => onHeaders_none hs hm rfl⟩

lemma trim_of_forall (h : ∀ b ∈ bs, isOws b = false) : trim bs = bs := by
  have hd : bs.dropWhile isOws = bs := by
    cases bs with
    | nil => rfl
    | cons b => rw [dropWhile_cons_of_neg (by simp [h b mem_cons_self])]
  rw [trim, hd, rdropWhile_eq_self_iff]
  intro hne
  simp [h _ (getLast_mem hne)]

lemma isOws_of_isDigit (h : isDigit b) : isOws b = false := by
  by_contra ho
  simp only [Bool.not_eq_false, isOws, Bool.or_eq_true, beq_iff_eq] at ho
  rcases ho with rfl | rfl <;> exact absurd h (by decide)

lemma accepted_length (h : (toStr v).bind parseU64 = some n) :
    trim v = v ∧ (v.all isDigit → v ≠ [] ∧ decimal v = n) := by
  obtain ⟨s, hs, hp⟩ := Option.bind_eq_some_iff.mp h
  unfold parseU64 at hp
  rw [utf8_of_toStr hs] at hp
  cases v with
  | nil => simp at hp
  | cons b =>
    by_cases hsi : b = 43
    · subst hsi
      obtain ⟨hd, hp⟩ := Option.ite_none_right_eq_some.mp hp
      refine ⟨trim_of_forall ?_, fun ha => ?_⟩
      · intro c hc
        rcases mem_cons.mp hc with rfl | hc
        · decide
        · exact isOws_of_isDigit (all_eq_true.mp hd.2.1 c hc)
      · exact absurd (all_eq_true.mp ha 43 mem_cons_self) (by decide)
    · simp only [head?_cons, Option.some.injEq, hsi, if_false] at hp
      obtain ⟨hd, ⟨⟩⟩ := Option.ite_none_right_eq_some.mp hp
      exact ⟨trim_of_forall fun c hc => isOws_of_isDigit (all_eq_true.mp hd.2.1 c hc),
        fun _ => ⟨hd.1, rfl⟩⟩

/-! ## The condition -/

section

variable {codings : List Bytes} {f : BodyFraming} {request : RequestHeaders}
  {serialized sent body : Bytes} {bodyLength : BodyLength} {n : Nat} {framing : Option BodyFraming}

/-- As the origin reads it: HTTP/1 clients send the framed body, others its content. -/
def carried (version : Version) (octets content : Bytes) : Bytes :=
  match version with
  | .http2 | .http3 => content
  | _ => octets

@[simp] lemma carried_self (version : Version) (body : Bytes) :
    carried version body body = body := by
  cases version <;> rfl

def ForwardsOne (request : RequestHeaders) (serialized : Bytes) (bodyLength : BodyLength)
    (source : List Bytes) : Prop :=
  ∃ yielded m, Yields (intoForwarded serialized bodyLength) source yielded ∧
    parseRequest yielded.flatten = some (m, []) ∧ carried request.version m.octets m.content = source.flatten ∧
    ¬ (values (utf8 "transfer-encoding") m.fields ≠ [] ∧
      values (utf8 "content-length") m.fields ≠ [])

/-- There is a target; the body is as long as the length says, or a complete chunked one of
HTTP/1.1. -/
def Framable (request : RequestHeaders) (body : Bytes) : Prop :=
  let codings := headerValues "transfer-encoding" request.headers
  let lengths := headerValues "content-length" request.headers
  requestTarget request ≠ "" ∧
    ((codings = [] ∧ lengths = [] ∧ body = []) ∨
     (codings = [] ∧ (request.method = .head → body = []) ∧
       ∃ v, lengths = [v] ∧ v.all isDigit = true ∧ body.length = decimal v) ∨
     (lengths = [] ∧ request.version = .http11 ∧ request.method ≠ .head ∧
       utf8 "chunked" ∈ codings ∧ finalChunked (codings.map trim) = true ∧
       ∃ content, decodeChunked (body.length + 1) body = some (content, [])))

def originFraming (request : RequestHeaders) : Option BodyFraming :=
  framingOf (versionMajorDigit request.version) (versionMinorDigit request.version)
    ((headerValues "transfer-encoding" request.headers).map trim)
    ((headerValues "content-length" request.headers).map trim)

lemma framingOf_eq_some
    (h : framingOf major minor codings lengths = some f) : ¬ (codings ≠ [] ∧ lengths ≠ []) := by
  rintro ⟨hc, hl⟩
  cases codings with
  | nil => exact hc rfl
  | cons =>
    cases lengths with
    | nil => exact hl rfl
    | cons => cases h

lemma parseRequest_serialized (h : serializeRequest request = .ok (serialized, bodyLength))
    (body : Bytes) : ∃ line fields, values (utf8 "transfer-encoding") fields =
        (headerValues "transfer-encoding" request.headers).map trim ∧
      values (utf8 "content-length") fields =
        (headerValues "content-length" request.headers).map trim ∧
      parseRequest (serialized ++ body) = if requestTarget request = "" then none
        else (originFraming request).bind fun framing =>
          (Lib.Http1.readBody framing body).map fun x => (⟨line, fields, x.1, x.2.1⟩, x.2.2) := by
  obtain ⟨lines, fields, rfl, hl, hf, hte, hcl⟩ := serialized_head h
  refine ⟨⟨utf8 request.method.asStr, utf8 (requestTarget request),
    versionMajorDigit request.version, versionMinorDigit request.version⟩, fields, hte, hcl, ?_⟩
  rw [append_assoc, parseRequest_lines (notMem_requestLine request) hl,
    parseRequestLine_requestLine]
  by_cases ht : requestTarget request = ""
  · simp [ht]
  · simp only [ht, if_false, hf, bodyFraming, hte, hcl, Option.bind_eq_bind,
      Option.bind_some, originFraming]
    refine congrArg _ (funext fun framing => ?_)
    cases Lib.Http1.readBody framing body <;> rfl

lemma forwardsOne_iff_reads (h : serializeRequest request = .ok (serialized, bodyLength))
    (source : List Bytes) : ForwardsOne request serialized bodyLength source ↔
      requestTarget request ≠ "" ∧ ∃ framing octets content, originFraming request = some framing ∧
        Lib.Http1.readBody framing (bodyLength.sent source.flatten) = some (octets, content, []) ∧
        carried request.version octets content = source.flatten := by
  obtain ⟨chunks, hy, hfl⟩ := yields_of_serialized serialized bodyLength source
  obtain ⟨line, fields, hte, hcl, hp⟩ :=
    parseRequest_serialized h (bodyLength.sent source.flatten)
  rw [← hfl] at hp
  constructor
  · rintro ⟨yielded, m, hyi, hm, hc, -⟩
    rw [hyi.unique hy, hp] at hm
    obtain ⟨ht, hm⟩ := Option.ite_none_left_eq_some.mp hm
    obtain ⟨framing, hf, hma⟩ := Option.bind_eq_some_iff.mp hm
    obtain ⟨⟨octets, content, rest⟩, hr, heq⟩ := Option.map_eq_some_iff.mp hma
    cases heq
    exact ⟨ht, framing, octets, content, hf, hr, hc⟩
  · rintro ⟨ht, framing, octets, content, hf, hr, hc⟩
    refine ⟨chunks, ⟨line, fields, octets, content⟩, hy, ?_, hc, ?_⟩
    · simp [hp, ht, hf, hr]
    · rw [hte, hcl]
      exact framingOf_eq_some hf

lemma reads_without_framing (body : Bytes) : (∃ octets content,
      Lib.Http1.readBody (.length 0) (bodyLength.sent body) = some (octets, content, []) ∧
      carried request.version octets content = body) ↔ body = [] := by
  constructor
  · rintro ⟨octets, content, hr, hc⟩
    simp only [Lib.Http1.readBody, Nat.zero_le, if_true, take_zero, Option.some.injEq,
      Prod.mk.injEq] at hr
    obtain ⟨rfl, rfl, -⟩ := hr
    rw [carried_self] at hc
    exact hc.symm
  · rintro rfl
    refine ⟨[], [], ?_, carried_self _ _⟩
    cases bodyLength <;> simp [Lib.Http1.readBody, sent]

lemma reads_length (hk : k ≤ n) (body : Bytes) : (∃ octets content,
      Lib.Http1.readBody (.length n) (body.take k) = some (octets, content, []) ∧
      carried request.version octets content = body) ↔ body.length = n ∧ k = n := by
  constructor
  · rintro ⟨octets, content, hr, hc⟩
    obtain ⟨hle, hr⟩ := Option.ite_none_right_eq_some.mp hr
    simp only [Option.some.injEq, Prod.mk.injEq] at hr
    obtain ⟨rfl, rfl, -⟩ := hr
    rw [carried_self] at hc
    have hl := congrArg length hc
    simp only [length_take] at hle hl
    omega
  · rintro ⟨rfl, rfl⟩
    exact ⟨body, body, by simp [Lib.Http1.readBody], carried_self _ _⟩

lemma reads_chunked (body : Bytes) : (∃ octets content,
      Lib.Http1.readBody .chunked body = some (octets, content, []) ∧
      carried request.version octets content = body) ↔
    request.version ≠ .http2 ∧ request.version ≠ .http3 ∧
      ∃ content, decodeChunked (body.length + 1) body = some (content, []) := by
  constructor
  · rintro ⟨octets, content, hr, hc⟩
    obtain ⟨⟨c, rest⟩, hd, heq⟩ := Option.map_eq_some_iff.mp hr
    simp only [Prod.mk.injEq] at heq
    obtain ⟨-, rfl, rfl⟩ := heq
    have hl := decodeChunked_length hd
    have hne : c ≠ body := fun h => by simp [h] at hl
    refine ⟨?_, ?_, c, hd⟩ <;> intro hv <;>
      exact hne (by simpa [carried, hv] using hc)
  · rintro ⟨h2, h3, content, hd⟩
    refine ⟨body, content, by simp [Lib.Http1.readBody, hd], ?_⟩
    cases hv : request.version <;> simp_all [carried]

lemma exists_framing (hf : framing = some f) :
    (∃ framing' octets content, framing = some framing' ∧
      Lib.Http1.readBody framing' sent = some (octets, content, []) ∧
      carried request.version octets content = body) ↔
    ∃ octets content, Lib.Http1.readBody f sent = some (octets, content, []) ∧
      carried request.version octets content = body := by
  subst hf
  simp

lemma not_exists_framing (hf : framing = none) :
    ¬ ∃ framing' octets content, framing = some framing' ∧
      Lib.Http1.readBody framing' sent = some (octets, content, []) ∧
      carried request.version octets content = body := by
  subst hf
  simp

/-- It must be digits, the body's, and sent. -/
lemma length_case (hv : (toStr v).bind parseU64 = some n) (body : Bytes) :
    (∃ framing octets content,
      framingOf (versionMajorDigit request.version) (versionMinorDigit request.version) []
        [trim v] = some framing ∧ Lib.Http1.readBody framing
        ((finalBodyLength request (some (.determined n))).sent body) = some (octets, content, []) ∧
      carried request.version octets content = body) ↔
    (request.method = .head → body = []) ∧ v.all isDigit ∧ body.length = decimal v := by
  obtain ⟨ht, hd⟩ := accepted_length hv
  rw [ht]
  by_cases hdi : v.all isDigit
  · obtain ⟨hne, rfl⟩ := hd hdi
    have hf : framingOf (versionMajorDigit request.version)
        (versionMinorDigit request.version) [] [v] = some (.length (decimal v)) :=
      if_pos ⟨hne, hdi⟩
    rw [exists_framing hf]
    by_cases hh : request.method = .head
    · simp only [finalBodyLength, hh, if_true, sent, forall_const, hdi, true_and]
      rw [reads_length (Nat.zero_le _)]
      constructor
      · rintro ⟨hb, hz⟩
        rw [← hz] at hb
        exact ⟨length_eq_zero_iff.mp hb, hb.trans hz⟩
      · rintro ⟨rfl, hb⟩
        exact ⟨hb, hb⟩
    · simp only [finalBodyLength, hh, if_false, Option.some_or, Option.getD_some,
        sent, hdi, true_and, false_implies]
      rw [reads_length (Nat.le_refl _)]
      simp
  · have hf : framingOf (versionMajorDigit request.version)
        (versionMinorDigit request.version) [] [v] = none := if_neg fun h => hdi h.2
    exact ⟨fun h => absurd h (not_exists_framing hf), fun h => absurd h.2.1 hdi⟩

/-- The last must be `chunked`, spelled so, in HTTP/1.1. -/
lemma chunked_case (hc : codings ≠ []) {l : Option BodyLength}
    (hch : utf8 "chunked" ∈ codings → l = some .chunked)
    (hn : utf8 "chunked" ∉ codings → l = none) (body : Bytes) : (∃ framing octets content,
      framingOf (versionMajorDigit request.version) (versionMinorDigit request.version)
        (codings.map trim) [] = some framing ∧
      Lib.Http1.readBody framing ((finalBodyLength request l).sent body) =
        some (octets, content, []) ∧ carried request.version octets content = body) ↔
    request.version = .http11 ∧ request.method ≠ .head ∧ utf8 "chunked" ∈ codings ∧
      finalChunked (codings.map trim) ∧
      ∃ content, decodeChunked (body.length + 1) body = some (content, []) := by
  obtain ⟨v, vs, hm⟩ := exists_cons_of_ne_nil (l := codings.map trim) (by simpa using hc)
  by_cases hf : versionMajorDigit request.version = 1 ∧
      versionMinorDigit request.version ≥ 1 ∧ finalChunked (codings.map trim)
  · have hfr : framingOf (versionMajorDigit request.version)
        (versionMinorDigit request.version) (codings.map trim) [] = some .chunked := by
      rw [hm] at hf ⊢
      simp only [framingOf, hf, and_self, if_true]
    rw [exists_framing hfr]
    have hnil : Lib.Http1.readBody .chunked [] = none := rfl
    by_cases hh : request.method = .head
    · simp [finalBodyLength, hh, sent, hnil]
    · by_cases hs : utf8 "chunked" ∈ codings
      · simp only [finalBodyLength, hh, if_false, hch hs, Option.some_or,
          Option.getD_some, sent, hs, hf.2.2, ne_eq, not_false_eq_true,
          true_and]
        rw [reads_chunked]
        cases hv : request.version <;> simp_all [versionMajorDigit, versionMinorDigit]
      · simp only [hs, false_and, and_false, iff_false]
        cases hv : request.version <;>
          simp only [finalBodyLength, hh, if_false, hn hs, hv, Option.none_or,
            Option.getD_some, Option.getD_none, sent, take_zero, hnil]
        · simp
        · simp
        · simp
        · rw [← hv, reads_chunked]
          simp [hv]
        · rw [← hv, reads_chunked]
          simp [hv]
  · have hfr : framingOf (versionMajorDigit request.version)
        (versionMinorDigit request.version) (codings.map trim) [] = none := by
      rw [hm] at hf ⊢
      simp only [framingOf, hf, if_false]
    constructor
    · exact fun h => absurd h (not_exists_framing hfr)
    · rintro ⟨hv, -, -, hfi, -⟩
      exact absurd ⟨by rw [hv]; rfl, by rw [hv]; exact Nat.le_refl 1, hfi⟩ hf

/-- **Framing.** The condition is exact, for every request and body in any chunks. -/
theorem forwardsOne_iff {request : RequestHeaders} {serialized : Bytes} {bodyLength : BodyLength}
    (h : serializeRequest request = .ok (serialized, bodyLength)) (source : List Bytes) :
    ForwardsOne request serialized bodyLength source ↔ Framable request source.flatten := by
  rw [forwardsOne_iff_reads h]
  obtain ⟨l, rfl, hc, hn⟩ := serialized_bodyLength h
  refine and_congr_right fun _ => ?_
  simp only [originFraming]
  generalize headerValues "transfer-encoding" request.headers = codings at hc hn ⊢
  generalize headerValues "content-length" request.headers = lengths at hn ⊢
  cases codings with
  | nil =>
    rcases hn (by simp) with ⟨rfl, rfl⟩ | ⟨v, n, rfl, hv, rfl⟩
    · have hf : framingOf (versionMajorDigit request.version)
          (versionMinorDigit request.version) (map trim []) (map trim []) =
          some (.length 0) := rfl
      rw [exists_framing hf, reads_without_framing]
      simp
    · rw [map_nil, map_singleton, length_case hv]
      simp
  | cons =>
    cases lengths with
    | nil =>
      rw [map_nil, chunked_case (by simp) hc]
      · simp
      · intro hs
        rcases hn hs with ⟨-, hl⟩ | ⟨v, n, hv, -⟩
        · exact hl
        · cases hv
    | cons => simp [framingOf]

lemma eq_ok_of_toOption {ε α : Type} {x : Except ε α} {a : α} (h : x.toOption = some a) :
    x = .ok a := by
  cases x <;> cases h
  rfl

/-- `POST http://example.com/` over HTTP/2. -/
def upload (headers : List Header) : RequestHeaders :=
  { method := .post, version := .http2, headers
    uri := .root { asStr := "example.com", host := "example.com", portU16 := none } }

def uploadHead : Bytes := utf8 "POST / HTTP/1.1\r\nhost: example.com\r\n\r\n"

/-- With a length it is forwarded as one request. -/
theorem uploadWithLength_forwardsOne : ∃ serialized bodyLength,
      serializeRequest (upload [{ name := "content-length", value := utf8 "2" }]) =
        .ok (serialized, bodyLength) ∧
      ForwardsOne (upload [{ name := "content-length", value := utf8 "2" }]) serialized bodyLength
        [utf8 "h", utf8 "i"] := by
  have hs : serializeRequest (upload [{ name := "content-length", value := utf8 "2" }]) =
      .ok (utf8 "POST / HTTP/1.1\r\ncontent-length: 2\r\nhost: example.com\r\n\r\n",
        .determined 2) := eq_ok_of_toOption (by decide +kernel)
  refine ⟨_, _, hs, (forwardsOne_iff hs _).mpr ⟨by decide +kernel, ?_⟩⟩
  exact .inr (.inl ⟨by decide +kernel, by simp [upload], utf8 "2", by decide +kernel⟩)

/-- The origin takes the body for another request. -/
theorem uploadWithoutLength_not_forwardsOne :
    ∃ serialized bodyLength, serializeRequest (upload []) = .ok (serialized, bodyLength) ∧
      ¬ ForwardsOne (upload []) serialized bodyLength [utf8 "h", utf8 "i"] := by
  have hs : serializeRequest (upload []) = .ok (uploadHead, .chunked) :=
    eq_ok_of_toOption (by decide +kernel)
  refine ⟨_, _, hs, ?_⟩
  rintro ⟨yielded, m, hy, hm, -⟩
  obtain ⟨chunks, hyi, hf⟩ := yields_of_serialized uploadHead .chunked [utf8 "h", utf8 "i"]
  rw [hy.unique hyi, hf] at hm
  have hr : (parseRequest (uploadHead ++ chunked.sent [utf8 "h", utf8 "i"].flatten)).map
      Prod.snd = some (utf8 "hi") := by decide +kernel
  rw [hm, Option.map_some, Option.some.injEq] at hr
  have hne : ([] : Bytes) ≠ utf8 "hi" := by decide +kernel
  exact hne hr

end

end TrustTunnel.HttpForwardedStream
