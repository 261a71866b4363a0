import TrustTunnel.Authentication
import TrustTunnel.Pipe

/-!
# Forwarded requests (`http_forwarded_stream.rs`)

`serializeRequest` writes the head and decides how much of the body follows;
`ForwardedStreamSource` yields both.
-/

namespace TrustTunnel.HttpForwardedStream

open Io Http Authentication List
open Pipe (Data)
open Lib.Http1 (utf8 isDigit decimal crlf)

inductive BodyLength where
  | determined (n : Nat)
  | chunked
  deriving DecidableEq

/-! ## The head -/

section

variable {headers : List Header} {targetHost : Authority} {s s' : Serializing}

def versionMajorDigit : Version → Nat
  | .http09 => 0
  | _ => 1

def versionMinorDigit : Version → Nat
  | .http09 => 0
  | .http10 => 0
  | .http11 => 1
  | .http2 => 1
  | .http3 => 1

/-- `str::parse::<u64>`; a sign may come first. -/
def parseU64 (s : String) : Option Nat :=
  let digits := if (utf8 s).head? = some 43 then (utf8 s).tail else utf8 s
  if digits ≠ [] ∧ digits.all isDigit ∧ decimal digits < 2 ^ 64 then some (decimal digits)
  else none

def requestTarget (request : RequestHeaders) : String :=
  if request.method ≠ .options then request.uri.pathAndQuery.getD request.uri.path else "*"

def requestLine (request : RequestHeaders) : Bytes :=
  utf8 request.method.asStr ++ utf8 " " ++ utf8 (requestTarget request) ++ utf8 " HTTP/"
    ++ utf8 (toString (versionMajorDigit request.version)) ++ utf8 "."
    ++ utf8 (toString (versionMinorDigit request.version))

def fieldLine (name : String) (value : Bytes) : Bytes := utf8 name ++ utf8 ": " ++ value

structure Serializing where
  serialized : Bytes
  hostInserted : Bool
  bodyLength : Option BodyLength

def nextBodyLength (bodyLength : Option BodyLength) (h : Header) :
    Except IoError (Option BodyLength) :=
  if h.name = "content-length" then
    match bodyLength with
    | none =>
      match (toStr h.value).bind parseU64 with
      | none => .error (.other "Invalid Content-Length header value")
      | some n => .ok (some (.determined n))
    | some (.determined _) => .error (.other "Request has multiple Content-Length headers")
    | some .chunked => .ok bodyLength
  else if h.name = "transfer-encoding" ∧ h.value = utf8 "chunked" then .ok (some .chunked)
  else .ok bodyLength

def onHeader (targetHost : Authority) (s : Serializing) (h : Header) :
    Except IoError Serializing :=
  if h.name = "proxy-authorization" ∨ h.name = "proxy-connection" then .ok s
  else if h.name = "host" then
    if s.hostInserted then .error (.other "Request has multiple Host headers")
    else .ok { s with
      hostInserted := true
      serialized := s.serialized ++ fieldLine "host" (utf8 targetHost.asStr) ++ crlf }
  else
    match nextBodyLength s.bodyLength h with
    | .error e => .error e
    | .ok bodyLength => .ok { s with
        bodyLength, serialized := s.serialized ++ fieldLine h.name h.value ++ crlf }

def onHeaders (targetHost : Authority) : Serializing → List Header → Except IoError Serializing
  | s, [] => .ok s
  | s, h :: headers =>
    match onHeader targetHost s h with
    | .error e => .error e
    | .ok s => onHeaders targetHost s headers

/-- The length of a body whose headers say `bodyLength`. -/
def finalBodyLength (request : RequestHeaders) (bodyLength : Option BodyLength) : BodyLength :=
  if request.method = .head then .determined 0
  else
    (bodyLength.or (match request.version with
      -- no header tells the origin so
      | .http2 | .http3 => some .chunked
      | _ => none)).getD (.determined 0)

/-- `serialize_request`, without the dump in its error text. -/
def serializeRequest (request : RequestHeaders) : Except IoError (Bytes × BodyLength) :=
  match request.uri.authority with
  | none => .error (.other "Request URI lacks host name: ")
  | some targetHost =>
    match onHeaders targetHost ⟨requestLine request ++ crlf, false, none⟩ request.headers with
    | .error e => .error e
    | .ok s =>
      let host := if s.hostInserted then [] else fieldLine "host" (utf8 targetHost.asStr) ++ crlf
      .ok (s.serialized ++ host ++ crlf, finalBodyLength request s.bodyLength)

def headerLine (targetHost : Authority) (h : Header) : Option Bytes :=
  if h.name = "proxy-authorization" ∨ h.name = "proxy-connection" then none
  else if h.name = "host" then some (fieldLine "host" (utf8 targetHost.asStr))
  else some (fieldLine h.name h.value)

def headerValues (name : String) (headers : List Header) : List Bytes :=
  (headers.filter (fun h => h.name == name)).map Header.value

lemma notMem_headerValues_of_cons
    (hv : v ∉ headerValues name (h :: headers)) : v ∉ headerValues name headers := by
  intro hm
  apply hv
  by_cases hn : h.name = name
  · simpa [headerValues, hn] using .inr (by simpa [headerValues] using hm)
  · simpa [headerValues, hn] using hm

lemma onHeader_serialized (hs : onHeader targetHost s h = .ok s') :
    s'.serialized = s.serialized ++ (headerLine targetHost h).toList.flatMap (fun l =>
      l ++ crlf) := by
  unfold onHeader at hs
  unfold headerLine
  split at hs
  · cases hs
    simp [*]
  · split at hs
    · split at hs <;> cases hs
      simp [*]
    · split at hs <;> cases hs
      simp [*]

lemma onHeaders_serialized (hs : onHeaders targetHost s headers = .ok s') :
    s'.serialized = s.serialized ++
      (headers.filterMap (headerLine targetHost)).flatMap (fun l => l ++ crlf) := by
  induction headers generalizing s with
  | nil =>
    cases hs
    simp
  | cons h headers ih =>
    unfold onHeaders at hs
    split at hs
    · cases hs
    · rename_i hs1
      rw [ih hs, onHeader_serialized hs1]
      cases hl : headerLine targetHost h <;> simp [hl]

inductive Effect (h : Header) : Option BodyLength → Option BodyLength → Prop
  | none (bodyLength : Option BodyLength) (hlength : h.name ≠ "content-length")
      (hcoding : ¬ (h.name = "transfer-encoding" ∧ h.value = utf8 "chunked")) :
      Effect h bodyLength bodyLength
  | length (n : Nat) (hlength : h.name = "content-length")
      (hvalue : (toStr h.value).bind parseU64 = some n) : Effect h .none (some (.determined n))
  | ignored (hlength : h.name = "content-length") : Effect h (some .chunked) (some .chunked)
  | chunked (bodyLength : Option BodyLength) (hcoding : h.name = "transfer-encoding")
      (hvalue : h.value = utf8 "chunked") : Effect h bodyLength (some .chunked)

lemma nextBodyLength_effect
    (hs : nextBodyLength bodyLength h = .ok bodyLength') : Effect h bodyLength bodyLength' := by
  unfold nextBodyLength at hs
  split at hs
  · rename_i hl
    split at hs
    · split at hs <;> cases hs
      rename_i n hv
      exact .length n hl hv
    · cases hs
    · cases hs
      exact .ignored hl
  · rename_i hl
    split at hs
    · rename_i hc
      cases hs
      exact .chunked bodyLength hc.1 hc.2
    · rename_i hc
      cases hs
      exact .none bodyLength hl hc

lemma onHeader_effect (hs : onHeader targetHost s h = .ok s') :
    Effect h s.bodyLength s'.bodyLength := by
  unfold onHeader at hs
  split at hs
  · rename_i hp
    cases hs
    refine .none _ ?_ ?_ <;> rcases hp with h | h <;> simp [h]
  · split at hs
    · rename_i hh
      split at hs <;> cases hs
      exact .none _ (by simp [hh]) (by simp [hh])
    · split at hs <;> cases hs
      rename_i hn
      exact nextBodyLength_effect hn

lemma onHeaders_chunked (hs : onHeaders targetHost s headers = .ok s')
    (hc : s.bodyLength = some .chunked ∨
      utf8 "chunked" ∈ headerValues "transfer-encoding" headers) :
    s'.bodyLength = some .chunked := by
  induction headers generalizing s with
  | nil =>
    cases hs
    exact hc.resolve_right (by simp [headerValues])
  | cons h headers ih =>
    unfold onHeaders at hs
    split at hs
    · cases hs
    · rename_i s1 hs1
      refine ih hs ?_
      have he := onHeader_effect hs1
      generalize s.bodyLength = l, s1.bodyLength = l1 at he hc ⊢
      cases he with
      | none _ hl hco =>
        refine hc.imp id fun hm => ?_
        by_cases hn : h.name = "transfer-encoding"
        · have hva : ¬ h.value = utf8 "chunked" := fun hv => hco ⟨hn, hv⟩
          simpa [headerValues, hn, Ne.symm hva] using hm
        · simpa [headerValues, hn] using hm
      | length n hl =>
        have hm := hc.resolve_left (by simp)
        exact .inr (by simpa [headerValues, hl] using hm)
      | ignored | chunked => exact .inl rfl

lemma onHeaders_determined (hs : onHeaders targetHost s headers = .ok s')
    (hc : utf8 "chunked" ∉ headerValues "transfer-encoding" headers)
    (hn : s.bodyLength = some (.determined n)) :
    headerValues "content-length" headers = [] ∧ s'.bodyLength = some (.determined n) := by
  induction headers generalizing s with
  | nil =>
    cases hs
    exact ⟨rfl, hn⟩
  | cons h headers ih =>
    unfold onHeaders at hs
    split at hs
    · cases hs
    · rename_i s1 hs1
      have he := onHeader_effect hs1
      rw [hn] at he
      generalize hl1 : s1.bodyLength = l1 at he
      cases he with
      | none _ hl =>
        obtain ⟨hv, hb⟩ := ih hs (notMem_headerValues_of_cons hc) hl1
        exact ⟨by simpa [headerValues, hl] using hv, hb⟩
      | chunked _ hna hva => exact absurd (by simp [headerValues, hna, hva]) hc

lemma onHeaders_none (hs : onHeaders targetHost s headers = .ok s')
    (hc : utf8 "chunked" ∉ headerValues "transfer-encoding" headers) (hn : s.bodyLength = none) :
    (headerValues "content-length" headers = [] ∧ s'.bodyLength = none) ∨
      ∃ v n, headerValues "content-length" headers = [v] ∧ (toStr v).bind parseU64 = some n ∧
        s'.bodyLength = some (.determined n) := by
  induction headers generalizing s with
  | nil =>
    cases hs
    exact .inl ⟨rfl, hn⟩
  | cons h headers ih =>
    unfold onHeaders at hs
    split at hs
    · cases hs
    · rename_i s1 hs1
      have hr := notMem_headerValues_of_cons hc
      have he := onHeader_effect hs1
      rw [hn] at he
      generalize hl1 : s1.bodyLength = l1 at he
      cases he with
      | none _ hl =>
        have := ih hs hr hl1
        simpa [headerValues, hl] using this
      | length n hl hva =>
        obtain ⟨hv, hb⟩ := onHeaders_determined hs hr hl1
        refine .inr ⟨h.value, n, ?_, hva, hb⟩
        simpa [headerValues, hl] using hv
      | chunked _ hna hva => exact absurd (by simp [headerValues, hna, hva]) hc

end

/-! ## The source -/

inductive SourceState where
  | wantSendRequest (serializedRequest : Bytes) (bodyLength : BodyLength)
  | transferringBody (bodyLength : BodyLength) (sentBytes : Nat)
  | done

/-- `skipConsumeBytes` are the bytes that were not the client's. -/
structure ForwardedStreamSource where
  state : SourceState
  skipConsumeBytes : Nat

/-- `read_body`, with what the client's source answers. -/
def readBody (bodyLength : BodyLength) (sentBytes : Nat) : Data → Data × SourceState
  | .chunk bytes =>
    match bodyLength with
    | .determined n =>
      if sentBytes < n then
        let toSend := min bytes.length (n - sentBytes)
        (.chunk (bytes.take toSend), .transferringBody bodyLength (sentBytes + toSend))
      else (.eof, .done)
    | .chunked => (.chunk bytes, .transferringBody bodyLength (sentBytes + bytes.length))
  | .eof => (.eof, .done)

/-- `read`, of a client's source with these chunks to give. -/
def ForwardedStreamSource.read (s : ForwardedStreamSource) (source : List Bytes) :
    Data × ForwardedStreamSource × List Bytes :=
  match s.state with
  | .wantSendRequest serializedRequest bodyLength =>
    (.chunk serializedRequest,
      { skipConsumeBytes := serializedRequest.length
        state := match bodyLength with
          | .determined 0 => .done
          | _ => .transferringBody bodyLength 0 }, source)
  | .transferringBody bodyLength sentBytes =>
    match source with
    | [] =>
      let (data, state) := readBody bodyLength sentBytes .eof
      (data, { s with state }, [])
    | bytes :: source =>
      let (data, state) := readBody bodyLength sentBytes (.chunk bytes)
      (data, { s with state }, source)
  | .done => (.eof, s, source)

/-- The chunks `read` returns up to the end. -/
inductive Yields : ForwardedStreamSource → List Bytes → List Bytes → Prop
  | eof {s s' : ForwardedStreamSource} {source source' : List Bytes}
      (h : s.read source = (.eof, s', source')) : Yields s source []
  | chunk {s s' : ForwardedStreamSource} {source source' : List Bytes} {bytes : Bytes}
      {chunks : List Bytes} (h : s.read source = (.chunk bytes, s', source'))
      (hrest : Yields s' source' chunks) : Yields s source (bytes :: chunks)

/-- `into_forwarded`: the source at its start. -/
def intoForwarded (serializedRequest : Bytes) (bodyLength : BodyLength) : ForwardedStreamSource :=
  ⟨.wantSendRequest serializedRequest bodyLength, 0⟩

lemma Yields.unique
    (h : Yields s source chunks) (h' : Yields s source chunks') : chunks = chunks' := by
  induction h generalizing chunks' with
  | eof h =>
    cases h' with
    | eof => rfl
    | chunk h1 =>
      rw [h] at h1
      cases h1
  | chunk h _ ih =>
    cases h' with
    | eof h1 =>
      rw [h] at h1
      cases h1
    | chunk h1 hr =>
      rw [h] at h1
      cases h1
      rw [ih hr]

def BodyLength.sent (body : Bytes) : BodyLength → Bytes
  | .determined n => body.take n
  | .chunked => body

/-- By induction on the chunks, for any number of bytes sent before. -/
lemma exists_yields_determined (n sentBytes skip : Nat) (source : List Bytes) :
    ∃ chunks, Yields ⟨.transferringBody (.determined n) sentBytes, skip⟩ source chunks ∧
      chunks.flatten = source.flatten.take (n - sentBytes) := by
  induction source generalizing sentBytes with
  | nil => exact ⟨[], .eof rfl, by simp⟩
  | cons bytes source ih =>
    by_cases hs : sentBytes < n
    · obtain ⟨chunks, hy, hf⟩ := ih (sentBytes + min bytes.length (n - sentBytes))
      refine ⟨bytes.take (min bytes.length (n - sentBytes)) :: chunks,
        .chunk (by simp [ForwardedStreamSource.read, readBody, hs]) hy, ?_⟩
      have hl : n - (sentBytes + min bytes.length (n - sentBytes)) =
          n - sentBytes - bytes.length := by omega
      rw [flatten_cons, flatten_cons, hf, hl, take_append]
      congr 1
      rcases Nat.le_total bytes.length (n - sentBytes) with hle | hle
      · rw [Nat.min_eq_left hle, take_length, take_of_length_le hle]
      · rw [Nat.min_eq_right hle]
    · have hr : ForwardedStreamSource.read
          ⟨.transferringBody (.determined n) sentBytes, skip⟩ (bytes :: source) =
          (.eof, ⟨.done, skip⟩, source) := by
        simp [ForwardedStreamSource.read, readBody, hs]
      refine ⟨[], .eof hr, ?_⟩
      simp [Nat.sub_eq_zero_of_le (Nat.le_of_not_lt hs)]

lemma exists_yields_chunked (sentBytes skip : Nat) (source : List Bytes) :
    ∃ chunks, Yields ⟨.transferringBody .chunked sentBytes, skip⟩ source chunks ∧
      chunks.flatten = source.flatten := by
  induction source generalizing sentBytes with
  | nil => exact ⟨[], .eof rfl, rfl⟩
  | cons bytes source ih =>
    obtain ⟨chunks, hy, hf⟩ := ih (sentBytes + bytes.length)
    exact ⟨bytes :: chunks, .chunk rfl hy, by simp [hf]⟩

/-- The head and the part of the body that is sent, then the end. -/
lemma yields_of_serialized (serializedRequest : Bytes) (bodyLength : BodyLength)
    (source : List Bytes) :
    ∃ chunks, Yields (intoForwarded serializedRequest bodyLength) source chunks ∧
      chunks.flatten = serializedRequest ++ bodyLength.sent source.flatten := by
  have hb : ∃ chunks, Yields (intoForwarded serializedRequest bodyLength |>.read source).2.1
      source chunks ∧ chunks.flatten = bodyLength.sent source.flatten := by
    match bodyLength with
    | .determined 0 => exact ⟨[], .eof rfl, by simp [BodyLength.sent]⟩
    | .determined (n + 1) => exact exists_yields_determined (n + 1) 0 _ source
    | .chunked => exact exists_yields_chunked 0 _ source
  obtain ⟨chunks, hy, hf⟩ := hb
  exact ⟨serializedRequest :: chunks, .chunk rfl hy, by rw [flatten_cons, hf]⟩

end TrustTunnel.HttpForwardedStream
