import TrustTunnel.Truncation

/-!
# Reverse-proxied responses that break off

Each kind of body has a loop of its own, which differ in what they do when the server closes.
-/

namespace TrustTunnel.ReverseProxy

open Io Http Lib Recorder List Option Decoder
open Lib.Http1 (utf8)
open HttpForwardedStream (ResponseHeaders Httparse)
open Truncation (IsChunked HasLength)

/-! ## Responses -/

inductive Body where
  | chunked (chunks : List Chunk) (last : SizeLine)
  | fixed (bytes : Bytes)

structure Response (P : Httparse) where
  head : Head P
  has_body : head.response.code ≠ 204 ∧ head.response.code ≠ 304
  body : Body
  framed : match body with
    | .chunked _ last => IsChunked head ∧ last.size = 0
    | .fixed bytes => HasLength head bytes.length

def Body.bytes : Body → Bytes
  | .chunked chunks last => bodyBytes chunks last
  | .fixed bytes => bytes

section

variable {P : Httparse}

def Response.bytes (r : Response P) : Bytes := r.head.bytes ++ r.body.bytes

lemma Response.framed_chunked {r : Response P} {chunks : List Chunk} {last : SizeLine}
    (h : r.body = .chunked chunks last) : IsChunked r.head ∧ last.size = 0 := by
  have hf := r.framed
  rwa [h] at hf

lemma Response.framed_fixed {r : Response P} {bytes : Bytes} (h : r.body = .fixed bytes) :
    HasLength r.head bytes.length := by
  have hf := r.framed
  rwa [h] at hf

end

/-! ## The server closes -/

def Stream.close (version : Version) (s : Stream Recorder) : Stream Recorder :=
  (s.onUpstreamEof calls version).getD s

/-- No end of stream, but a failure or word of one. -/
structure Noticed (version : Version) (s : Stream Recorder) : Prop where
  no_eof : s.client.eofs = 0
  told : (∃ e, s.phase = .returned (.error e)) ∨ s.client.responses = [(badGateway version, true)]

section

variable (version : Version) {s : Stream Recorder}

lemma noticed_failed (hp : s.phase = .returned (.error e))
    (he : s.client.eofs = 0) : Noticed version (s.close version) := by
  have hc : s.close version = s := by
    simp [Stream.close, Stream.onUpstreamEof, hp]
  rw [hc]
  exact ⟨he, .inl ⟨e, hp⟩⟩

lemma noticed_waiting (hp : s.phase = .waitingResponse buffer)
    (hc : s.client = .new) : Noticed version (s.close version) := by
  simp only [Stream.close, Stream.onUpstreamEof, hp, getD_some, hc]
  exact ⟨rfl, .inr rfl⟩

lemma noticed_decoding (hp : s.phase = .decoding d buffer) (he : s.client.eofs = 0) :
    Noticed version (s.close version) := by
  simp only [Stream.close, Stream.onUpstreamEof, hp, getD_some]
  exact ⟨he, .inl ⟨_, rfl⟩⟩

lemma noticed_buffering {response : ResponseHeaders} {body : Bytes} {remaining : Nat}
    (hp : s.phase = .buffering response body remaining) (he : s.client.eofs = 0) :
    Noticed version (s.close version) := by
  simp only [Stream.close, Stream.onUpstreamEof, hp, getD_some]
  exact ⟨he, .inl ⟨_, rfl⟩⟩

lemma not_noticed_fixedSize (hp : s.phase = .fixedSize remaining) :
    ¬ Noticed version (s.close version) := by
  rintro ⟨hno, -⟩
  simp only [Stream.close, Stream.onUpstreamEof, hp, getD_some] at hno
  exact Nat.succ_ne_zero _ hno

lemma not_noticed_piping {upload : Bool} (hp : s.phase = .piping upload true) :
    ¬ Noticed version (s.close version) := by
  rintro ⟨hno, -⟩
  have hc : (s.close version).client.eofs = s.client.eofs + 1 := by
    simp only [Stream.close, Stream.onUpstreamEof, hp, calls, getD_some, Stream.settlePipe]
    split <;> rfl
  rw [hc] at hno
  exact Nat.succ_ne_zero _ hno

end

/-! ## The loops -/

section

variable (P : Httparse) (protocol : Protocol) (version : Version)

section

variable {s : Stream Recorder} {remaining : Nat} {segments : List Bytes}
  {response : ResponseHeaders}

/-- By induction on the segments. -/
lemma receive_fixedSize (hp : s.phase = .fixedSize remaining)
    (hlen : segments.flatten.length < remaining) :
    ∃ n, (s.receive calls P protocol version segments).phase = .fixedSize n := by
  induction segments generalizing s remaining with
  | nil => exact ⟨remaining, hp⟩
  | cons segment segments ih =>
    rw [flatten_cons, length_append] at hlen
    have hl : 0 < remaining - min segment.length remaining := by omega
    simp only [Stream.receive, Stream.onUpstreamChunk, hp, calls, Stream.passOn, gt_iff_lt,
      if_pos hl]
    exact ih rfl (by omega)

/-- By induction on the segments. -/
lemma receive_buffering (hp : s.phase = .buffering response body remaining)
    (hlen : segments.flatten.length < remaining) :
    (s.receive calls P protocol version segments).client = s.client ∧
      ∃ body' n, (s.receive calls P protocol version segments).phase =
        .buffering response body' n := by
  induction segments generalizing s body remaining with
  | nil => exact ⟨rfl, body, remaining, hp⟩
  | cons segment segments ih =>
    rw [flatten_cons, length_append] at hlen
    have hl : 0 < remaining - min segment.length remaining := by omega
    simp only [Stream.receive, Stream.onUpstreamChunk, hp, Stream.buffer, gt_iff_lt, if_pos hl]
    exact ih rfl (by omega)

lemma eofs_step (h : step calls d buffer = some (d', buffer')) :
    d'.client.eofs = d.client.eofs := by
  unfold step at h
  split at h
  · obtain ⟨x, _, hx⟩ := map_eq_some_iff.mp h
    cases hx
    rfl
  · obtain ⟨-, ⟨⟩⟩ := ite_none_left_eq_some.mp h
    unfold onData
    split
    · simp only [sendWith, calls]
      split <;> rfl
    · rfl
  · cases h
  · cases h

lemma eofs_read (d : Decoder Recorder) (buffer : Bytes) :
    (Buffered.read (step calls) d buffer).1.client.eofs = d.client.eofs := by
  have hs : ∀ {d1 d2 : Decoder Recorder} {buffer buffer' : Bytes},
      d1.client.eofs = d.client.eofs → step calls d1 buffer = some (d2, buffer') →
        d2.client.eofs = d.client.eofs :=
    fun hd h => (eofs_step h).trans hd
  exact Buffered.read_invariant hs rfl buffer

structure Decoding (s : Stream Recorder) : Prop where
  no_eof : s.client.eofs = 0
  phase : (∃ e, s.phase = .returned (.error e)) ∨ ∃ d buffer, s.phase = .decoding d buffer

lemma Decoding.noticed (h : Decoding s) : Noticed version (s.close version) := by
  rcases h.phase with ⟨e, hp⟩ | ⟨d, buffer, hp⟩
  · exact noticed_failed version hp h.no_eof
  · exact noticed_decoding version hp h.no_eof

/-- By induction on the segments. -/
lemma receive_decode_part (hsi : last.size = 0) (hmiss : missing ≠ [])
    (hflat : (t :: segments).flatten ++ missing = bodyBytes chunks last) :
    Decoding ((s.decode calls (.holding response .line []) t).receive calls P
      protocol version segments) := by
  induction segments generalizing t with
  | nil =>
    rw [flatten_cons, flatten_nil, append_nil] at hflat
    have hs := stage_ne_last_of_part response hsi hflat.symm hmiss
    have heo := eofs_read (.holding response .line []) t
    simp only [Stream.receive, Stream.decode, Stream.onDecoded]
    split
    · exact ⟨heo, .inr ⟨_, _, rfl⟩⟩
    · exact ⟨heo, .inr ⟨_, _, rfl⟩⟩
    · exact ⟨heo, .inl ⟨_, rfl⟩⟩
    · rename_i hl
      exact absurd hl hs
  | cons segment segments ih =>
    have hp : bodyBytes chunks last = t ++ ((segment :: segments).flatten ++ missing) := by
      rw [← hflat, flatten_cons, append_assoc]
    have hs := stage_ne_last_of_part response hsi hp (by simp [hmiss])
    by_cases hf : ∃ e, (Buffered.read (step calls)
        (.holding response .line []) t).1.stage = .failed e
    · obtain ⟨e, he⟩ := hf
      have hr : (s.decode calls (.holding response .line []) t).phase = .returned (.error e) := by
        simp only [Stream.decode, Stream.onDecoded, he]
        rfl
      have hc : (s.decode calls (.holding response .line []) t).client.eofs = 0 := by
        simp only [Stream.decode, Stream.onDecoded, he]
        exact eofs_read (.holding response .line []) t
      rw [receive_returned _ _ _ _ hr]
      exact ⟨hc, .inl ⟨e, hr⟩⟩
    · rw [receive_decode _ _ _ _ (fun e => ⟨hs, fun he => hf ⟨e, he⟩⟩)]
      exact ih (by simpa using hflat)

end

end

/-! ## Whole responses -/

section

variable {P : Httparse} (h : Head P) {n : Nat} (hlen : HasLength h n) (protocol : Protocol)
  (version : Version)

include hlen

lemma contentLength_hasLength :
    contentLength (stripResponse protocol (h.decoded version)).headers =
      if n < 2 ^ 64 then some n else none := by
  obtain ⟨-, v, hva, hv, hd⟩ := hlen
  rw [contentLength, getText, getHeader_stripResponse _ _ _ (by decide), hva, ← hd]
  exact (Truncation.parse_digits hv.1 hv.2).2

lemma isChunked_hasLength : isChunked (h.decoded version).headers = false := by
  rw [isChunked, getText, getHeader_decoded, hlen.no_coding]
  rfl

end

section

variable {P : Httparse} (protocol : Protocol) (version : Version)

/-- It is waited on or refused, by induction on the segments. -/
lemma receive_head_part (h : Head P) {s : Stream Recorder} {v : Bytes} {segments : List Bytes}
    (hp : (v :: segments).flatten <+: h.bytes)
    (hlen : (v :: segments).flatten.length < h.bytes.length) :
    (∃ e, (s.readHead calls P protocol version v).receive calls P protocol version
        segments = s.finish (s.client, .error e)) ∨
      ∃ buffer, (s.readHead calls P protocol version v).receive calls P protocol
        version segments = { s with phase := .waitingResponse buffer } := by
  have hd : ∀ v, v <+: h.bytes → v.length < h.bytes.length →
      (∃ e, decodeResponse P version v = .error e) ∨
        decodeResponse P version v = .ok (.incomplete v) := by
    intro v hv hlt
    by_cases hh : h.response.headers.length ≤ maxHeadersNum
    · rw [decodeResponse_part h version hh hv hlt]
      split
      · exact .inr rfl
      · exact .inl ⟨_, rfl⟩
    · exact (decodeResponse_tooMany h version (Nat.lt_of_not_le hh)).2 v hv hlt
  induction segments generalizing v with
  | nil =>
    rw [flatten_cons, flatten_nil, append_nil] at hp hlen
    rcases hd v hp hlen with he | hm
    · exact .inl (receive_invalid version calls protocol he [])
    · exact .inr ⟨v, by simp only [Stream.receive, Stream.readHead, hm]⟩
  | cons segment segments ih =>
    have hv : v <+: h.bytes := (prefix_append v _).trans hp
    have hlt : v.length < h.bytes.length :=
      Nat.lt_of_le_of_lt (prefix_append v _).length_le hlen
    rcases hd v hv hlt with he | hm
    · exact .inl (receive_invalid version calls protocol he _)
    · rw [receive_incomplete version calls protocol hm]
      exact ih (by simpa using hp) (by simpa using hlen)

/-- The coding is recognised, or the body is buffered. -/
def Response.Guarded (r : Response P) : Prop :=
  match r.body with
  | .chunked _ _ => isChunked (r.head.decoded .http11).headers = true
  | .fixed bytes => protocol = .http3 ∧ bytes.length ≤ h3BufferedBodyLimit

variable (P) in
def afterClose (written unsent : Bytes) (segments : List Bytes) : Stream Recorder :=
  ((Stream.sent written unsent).receive calls P protocol version segments).close version

section

variable (r : Response P) {t missing : Bytes} {segments : List Bytes}
  (hflat : (t :: segments).flatten ++ missing = r.body.bytes) (hmiss : missing ≠ [])
  (written unsent : Bytes)

include hflat hmiss

lemma noticed_chunked_iff {protocol : Protocol} (hp : protocol ≠ .http1)
    {chunks : List Chunk} {last : SizeLine} (hc : r.body = .chunked chunks last) :
    Noticed version ((((Stream.sent written unsent).onResponse calls protocol
        (r.head.decoded version) t).receive calls P protocol version segments).close version) ↔
      isChunked (r.head.decoded version).headers := by
  obtain ⟨hf, hs⟩ := Response.framed_chunked hc
  have hlen : contentLength (stripResponse protocol (r.head.decoded version)).headers = none := by
    rw [contentLength, getText, getHeader_stripResponse _ _ _ (by decide), hf.no_length]
    rfl
  rw [hc] at hflat
  cases hr : isChunked (r.head.decoded version).headers with
  | true =>
    rw [onResponse_recognised r.head hlen _ _ _ hp hr]
    exact iff_of_true (Decoding.noticed version
      (receive_decode_part P protocol version hs hmiss hflat)) rfl
  | false =>
    have hpi := onResponse_unrecognised r.head hlen written unsent t hr
    exact iff_of_false (not_noticed_piping version (receive_piping hpi protocol version segments))
      Bool.false_ne_true

lemma noticed_fixed_iff {bytes : Bytes} (hca : r.body = .fixed bytes) :
    Noticed version ((((Stream.sent written unsent).onResponse calls protocol
        (r.head.decoded version) t).receive calls P protocol version segments).close version) ↔
      protocol = .http3 ∧ bytes.length ≤ h3BufferedBodyLimit := by
  have hfr := Response.framed_fixed hca
  have hlen := contentLength_hasLength r.head hfr protocol version
  have hc := isChunked_hasLength r.head hfr version
  have hby := congrArg length hflat
  have hpos := length_pos_iff.mpr hmiss
  rw [hca] at hby
  simp only [Body.bytes, flatten_cons, length_append] at hby
  have hl : 0 < bytes.length - t.length := by omega
  have hs : segments.flatten.length < bytes.length - t.length := by omega
  by_cases hg : protocol = .http3 ∧ bytes.length ≤ h3BufferedBodyLimit
  · have hf : bytes.length < 2 ^ 64 := Nat.lt_of_le_of_lt hg.2 (by decide)
    rw [if_pos hf] at hlen
    have hp : (Stream.sent written unsent).onResponse calls protocol
        (r.head.decoded version) t = { Stream.sent written unsent with
          phase := .buffering (stripResponse protocol (r.head.decoded version)) t
            (bytes.length - t.length) } := by
      have hsm : protocol = .http3 ∧ (some bytes.length).any (fun n => n ≤ h3BufferedBodyLimit) :=
        ⟨hg.1, by simpa using hg.2⟩
      simp only [Stream.onResponse, hlen]
      rw [if_pos hsm]
      simp only [Stream.buffer, getD_some, if_pos hl]
    rw [hp]
    obtain ⟨hcl, body', n, hb⟩ := receive_buffering P protocol version
      (s := { Stream.sent written unsent with
        phase := .buffering (stripResponse protocol (r.head.decoded version)) t
          (bytes.length - t.length) }) rfl hs
    exact iff_of_true (noticed_buffering version hb (by rw [hcl]; rfl)) hg
  · refine iff_of_false ?_ hg
    by_cases hf : bytes.length < 2 ^ 64
    · rw [if_pos hf] at hlen
      have hp : ((Stream.sent written unsent).onResponse calls protocol
          (r.head.decoded version) t).phase = .fixedSize (bytes.length - t.length) := by
        have hle : t.length ≤ bytes.length := by omega
        simp [Stream.onResponse, hlen, hg, hc, sendWith, calls, hle, Stream.passOn, hl]
      obtain ⟨n, hn⟩ := receive_fixedSize P protocol version hp hs
      exact not_noticed_fixedSize version hn
    · rw [if_neg hf] at hlen
      have hp := onResponse_unrecognised r.head hlen written unsent t hc
      exact not_noticed_piping version (receive_piping hp protocol version segments)

end

/-- **Responses that break off** are noticed exactly if the head is bad or the body guarded. -/
lemma noticed_iff (r : Response P) {protocol : Protocol} (hpr : protocol ≠ .http1)
    (written unsent : Bytes) {segments : List Bytes} {missing : Bytes}
    (hflat : segments.flatten ++ missing = r.bytes) (hmiss : missing ≠ []) :
    Noticed version (afterClose P protocol version written unsent segments) ↔
      segments.flatten.length < r.head.bytes.length ∨ ¬ r.head.Fits segments ∨
        r.Guarded protocol := by
  rw [afterClose]
  by_cases hs : segments.flatten.length < r.head.bytes.length
  · refine iff_of_true ?_ (.inl hs)
    have hp := prefix_of_prefix_length_le ⟨missing, hflat⟩ (prefix_append _ _) (Nat.le_of_lt hs)
    cases segments with
    | nil =>
      have hw : (Stream.sent written unsent).phase = .waitingResponse [] := rfl
      exact noticed_waiting version hw rfl
    | cons v segments =>
      change Noticed version ((((Stream.sent written unsent).readHead calls P protocol version
        v).receive calls P protocol version segments).close version)
      rcases receive_head_part protocol version r.head (s := Stream.sent written unsent) hp hs with
        ⟨e, he⟩ | ⟨buffer, hb⟩
      · rw [he]
        exact noticed_failed version rfl rfl
      · rw [hb]
        exact noticed_waiting version rfl rfl
  · obtain ⟨x, hx⟩ : r.head.bytes <+: segments.flatten :=
      prefix_of_prefix_length_le ⟨_, rfl⟩ ⟨missing, hflat⟩ (Nat.le_of_not_lt hs)
    obtain ⟨hco, hfa⟩ := receive_sent r.head protocol version written unsent hx.symm
    rw [or_iff_right hs]
    by_cases hf : r.head.Fits segments
    · rw [or_iff_right (not_not_intro hf)]
      obtain ⟨t, segments', hr, rfl, -⟩ := hco hf
      have hbo : (t :: segments').flatten ++ missing = r.body.bytes := by
        rw [← hx, Response.bytes, append_assoc] at hflat
        exact append_cancel_left hflat
      rw [hr]
      unfold Response.Guarded
      cases hc : r.body with
      | chunked =>
        exact noticed_chunked_iff version r hbo hmiss written unsent hpr hc
      | fixed =>
        exact noticed_fixed_iff protocol version r hbo hmiss written unsent hc
    · obtain ⟨e, he⟩ := hfa hf
      rw [he]
      exact iff_of_true (noticed_failed version rfl rfl) (.inl hf)

end

/-- **Truncation**, on either path. -/
theorem truncation_iff (P : Httparse) :
    (∀ (r : Truncation.Response P) (method : Method) (version : Version) (schedule : Nat → Nat)
      (segments : List Bytes) (missing : Bytes), method ≠ .head →
      (version = .http2 ∨ version = .http3) → (∀ n, r.bytes.length ≤ schedule n) →
      (∀ s ∈ segments, s ≠ []) → segments.flatten ++ missing = r.bytes → missing ≠ [] →
      (Truncation.Spared P (.intoForwarded method version (.new schedule)) segments ↔
        ¬ Truncation.Hidden r segments)) ∧
    (∀ (r : Response P) (protocol : Protocol) (version : Version) (written unsent : Bytes)
      (segments : List Bytes) (missing : Bytes), protocol ≠ .http1 →
      segments.flatten ++ missing = r.bytes → missing ≠ [] →
      (Noticed version (afterClose P protocol version written unsent segments) ↔
        segments.flatten.length < r.head.bytes.length ∨ ¬ r.head.Fits segments ∨
          r.Guarded protocol)) := by
  constructor
  · intro r method version schedule segments missing hm hv hs hne hflat hmiss
    exact Truncation.spared_iff hv hm r hs hne hflat hmiss
  · intro r protocol version written unsent segments missing hp hflat hmiss
    exact noticed_iff version r hp written unsent hflat hmiss

/-! ## A response -/

open HttpForwardedStream (scanner headBytes reads_scanner Reads)

def helloLines : List Bytes := [utf8 "HTTP/1.1 200 OK", utf8 "Content-Length: 5"]

lemma reads_helloLines :
    Reads scanner (headBytes helloLines) ⟨200, [⟨"Content-Length", utf8 "5"⟩]⟩ := by
  have hr := reads_scanner helloLines [⟨"Content-Length", utf8 "5"⟩] (by decide +kernel)
    (by decide +kernel) (by decide +kernel)
  have hcode : HttpForwardedStream.scanCode (helloLines.headD []) = 200 := by decide +kernel
  rwa [hcode] at hr

def helloHead : Head scanner where
  bytes := headBytes helloLines
  response := ⟨200, [⟨"Content-Length", utf8 "5"⟩]⟩
  ne_nil := by decide +kernel
  reads := reads_helloLines
  status_valid := by decide +kernel
  headers_valid := by decide +kernel

lemma hasLength_helloHead : HasLength helloHead 5 :=
  ⟨by decide +kernel, utf8 "5", by decide +kernel, by decide +kernel, by decide +kernel⟩

lemma no_intermediates :
    ∀ h ∈ ([] : List (HttpForwardedStream.Head scanner)), h.response.code < 200 := by
  simp

def helloForwarded : Truncation.Response scanner where
  intermediates := []
  intermediate_status := no_intermediates
  head := helloHead
  has_body := by decide +kernel
  names_valid := by decide +kernel
  body := .fixed (utf8 "hello")
  framed := hasLength_helloHead

def hello : Response scanner where
  head := helloHead
  has_body := by decide +kernel
  body := .fixed (utf8 "hello")
  framed := hasLength_helloHead

def heSegments : List Bytes := [utf8 "HTTP/1.1 200 OK\r\nContent-Length: 5\r\n\r\nhe"]

/-- In the head, and in a body that is buffered, it is noticed. -/
theorem hello_told : Truncation.Spared scanner (.intoForwarded .get .http2 (.new fun _ => 100))
        [utf8 "HTTP/1.1 200 OK\r\n"] ∧
      Noticed .http3 (afterClose scanner .http3 .http3 [] [] heSegments) := by
  constructor
  · refine ((truncation_iff scanner).1 helloForwarded .get .http2 (fun _ => 100) _
      (utf8 "Content-Length: 5\r\n\r\nhello") (by decide) (.inl rfl) (fun _ => by decide +kernel)
      (by decide +kernel) (by decide +kernel) (by decide +kernel)).mpr fun h => ?_
    exact absurd h.heads (by decide +kernel)
  · exact ((truncation_iff scanner).2 hello .http3 .http3 [] [] _ (utf8 "llo") (by decide)
      (by decide +kernel) (by decide +kernel)).mpr (.inr (.inr ⟨rfl, by decide +kernel⟩))

/-- Two of the five bytes, and an end of the stream, on either path. -/
theorem hello_ended : heSegments.flatten ++ utf8 "llo" = hello.bytes ∧
      HttpForwardedStream.Delivers scanner (.intoForwarded .get .http2 (.new fun _ =>
        100)) heSegments
        (utf8 "he") ∧
      (afterClose scanner .http2 .http2 [] [] heSegments).client.delivered = utf8 "he" ∧
      (afterClose scanner .http2 .http2 [] [] heSegments).client.eofs = 1 := by
  refine ⟨by decide +kernel, ?_, by decide +kernel, by decide +kernel⟩
  exact HttpForwardedStream.delivers_of_drive 4 (by decide +kernel)

end TrustTunnel.ReverseProxy
