import TrustTunnel.ReverseProxyTruncation

/-!
# Bodies of fixed length through the reverse proxy

The loops stop at the end of the body, but what came with the head was passed on before.
-/

namespace TrustTunnel.ReverseProxy

open Io Http Recorder List
open Lib.Http1 (utf8)
open Lib.Segments (Boundary)
open HttpForwardedStream (ResponseHeaders Httparse)
open Truncation (HasLength)

/-- One response, this body and one end, and the future has returned. -/
structure Passed (response : ResponseHeaders) (body : Bytes) (s : Stream Recorder) : Prop where
  returned : s.phase = .returned (.ok ())
  client : s.client = ⟨[(response, false)], body, 1⟩

/-! ## The loops -/

section

variable (P : Httparse) (protocol : Protocol) (version : Version) {response : ResponseHeaders}

section

variable {s : Stream Recorder} {body : Bytes} {remaining : Nat} {segments : List Bytes}

lemma passed_receive (h : Passed response body s) (segments : List Bytes) :
    Passed response body (s.receive calls P protocol version segments) := by
  rw [receive_returned _ _ _ _ h.returned]
  exact h

lemma take_flatten_cons (segment : Bytes) (segments : List Bytes) (remaining : Nat) :
    (segment :: segments).flatten.take remaining = segment.take (min segment.length remaining) ++
        segments.flatten.take (remaining - min segment.length remaining) := by
  rw [flatten_cons, take_append]
  rcases Nat.le_total segment.length remaining with hle | hle
  · rw [Nat.min_eq_left hle, take_of_length_le hle, take_length]
  · rw [Nat.min_eq_right hle, Nat.sub_self, Nat.sub_eq_zero_of_le hle]

lemma passed_buffer (hs : s.client = .new) (body : Bytes) :
    Passed response body (s.buffer calls response body 0) := by
  simp only [Stream.buffer, gt_iff_lt, Nat.lt_irrefl, if_false, hs]
  exact ⟨rfl, rfl⟩

lemma passed_passOn (hs : s.client = .given response body) :
    Passed response body (s.passOn calls 0) := by
  simp only [Stream.passOn, gt_iff_lt, Nat.lt_irrefl, if_false, hs]
  exact ⟨rfl, rfl⟩

/-- **Rule for bodies of known size.** `Q` says of a stream what it was given and how many bytes
are missing. -/
lemma receive_all {Q : Bytes → Nat → Stream Recorder → Prop}
    (hdone : ∀ body s, Q body 0 s → Passed response body s)
    (hmore : ∀ body n s segment, Q body n s → n ≠ 0 →
      ∃ s', s.onUpstreamChunk calls P protocol version segment = some s' ∧
        Q (body ++ segment.take (min segment.length n)) (n - min segment.length n) s')
    (hs : Q body remaining s) (hlen : remaining ≤ segments.flatten.length) :
    Passed response (body ++ segments.flatten.take remaining)
      (s.receive calls P protocol version segments) := by
  induction segments generalizing s body remaining with
  | nil =>
    obtain rfl := Nat.le_zero.mp hlen
    rw [take_zero, append_nil]
    exact hdone body s hs
  | cons segment segments ih =>
    by_cases hz : remaining = 0
    · subst hz
      rw [take_zero, append_nil]
      exact passed_receive P protocol version (hdone body s hs) (segment :: segments)
    · rw [flatten_cons, length_append] at hlen
      rw [take_flatten_cons, ← append_assoc]
      obtain ⟨s', hs', hq⟩ := hmore body remaining s segment hs hz
      rw [Stream.receive, hs']
      exact ih hq (by omega)

lemma receive_buffer_all (hs : s.client = .new) (hlen : remaining ≤ segments.flatten.length) :
    Passed response (body ++ segments.flatten.take remaining)
      ((s.buffer calls response body remaining).receive calls P protocol version segments) := by
  refine receive_all P protocol version
    (Q := fun body n t => ∃ s, s.client = .new ∧ t = s.buffer calls response body n) ?_ ?_
    ⟨s, hs, rfl⟩ hlen
  · rintro body _ ⟨s, hs, rfl⟩
    exact passed_buffer hs body
  · rintro body n _ segment ⟨s, hs, rfl⟩ hn
    have hw : s.buffer calls response body n = { s with phase := .buffering response body n } := by
      simp [Stream.buffer, Nat.pos_of_ne_zero hn]
    rw [hw]
    exact ⟨_, rfl, { s with phase := .buffering response body n }, hs, rfl⟩

lemma receive_passOn_all (hs : s.client = .given response body)
    (hlen : remaining ≤ segments.flatten.length) :
    Passed response (body ++ segments.flatten.take remaining)
      ((s.passOn calls remaining).receive calls P protocol version segments) := by
  refine receive_all P protocol version
    (Q := fun body n t => ∃ s, s.client = .given response body ∧ t = s.passOn calls n) ?_ ?_
    ⟨s, hs, rfl⟩ hlen
  · rintro body _ ⟨s, hs, rfl⟩
    exact passed_passOn hs
  · rintro body n _ segment ⟨s, hs, rfl⟩ hn
    have hw : s.passOn calls n = { s with phase := .fixedSize n } := by
      simp [Stream.passOn, Nat.pos_of_ne_zero hn]
    have hc : (calls.writeAll s.client (segment.take (min segment.length n))).1 =
        .given response (body ++ segment.take (min segment.length n)) := by
      rw [hs]
      rfl
    rw [hw]
    exact ⟨_, rfl, _, hc, rfl⟩

end

end

/-! ## Whole responses -/

section

variable {P : Httparse} (h : Head P) {n : Nat} (hlen : HasLength h n) (protocol : Protocol)
  (version : Version)

include hlen

lemma passed_onResponse_iff (written unsent t : Bytes)
    (hfl : (t :: segments).flatten = body) (hbod : n ≤ body.length) :
    Passed (stripResponse protocol (h.decoded version)) (body.take n)
        (((Stream.sent written unsent).onResponse calls protocol (h.decoded version) t).receive
          calls P protocol version segments) ↔ n < 2 ^ 64 ∧ t.length ≤ n := by
  have hk := contentLength_hasLength h hlen protocol version
  have hc := isChunked_hasLength h hlen version
  have ht : t.length ≤ n → body.take n = t ++ segments.flatten.take (n - t.length) := by
    intro hle
    rw [← hfl, flatten_cons, take_append, take_of_length_le hle]
  have hr : n - t.length ≤ segments.flatten.length := by
    rw [← hfl, flatten_cons, length_append] at hbod
    omega
  by_cases hf : n < 2 ^ 64
  · rw [if_pos hf] at hk
    rw [and_iff_right hf]
    by_cases hs : protocol = .http3 ∧ (some n).any (fun n => n ≤ h3BufferedBodyLimit)
    · have hb : (Stream.sent written unsent).onResponse calls protocol
          (h.decoded version) t = (Stream.sent written unsent).buffer calls
            (stripResponse protocol (h.decoded version)) t (n - t.length) := by
        simp only [Stream.onResponse, hk]
        rw [if_pos hs]
        rfl
      rw [hb]
      by_cases hle : t.length ≤ n
      · rw [ht hle]
        exact iff_of_true (receive_buffer_all P protocol version rfl hr) hle
      · -- more than the body was buffered, and is sent
        refine iff_of_false (fun hp => ?_) hle
        have hz : n - t.length = 0 := Nat.sub_eq_zero_of_le (Nat.le_of_not_le hle)
        rw [hz] at hp
        have hsen : Passed (stripResponse protocol (h.decoded version)) t
            ((Stream.sent written unsent).buffer calls
              (stripResponse protocol (h.decoded version)) t 0) := passed_buffer rfl t
        have ha := passed_receive P protocol version hsen segments
        have hsa : body.take n = t := congrArg delivered (hp.client.symm.trans ha.client)
        have := congrArg length hsa
        rw [length_take] at this
        omega
    · have hse : (Stream.sent written unsent).onResponse calls protocol
          (h.decoded version) t = if t.length ≤ n then
              Stream.passOn calls { Stream.sent written unsent with
                client := .given (stripResponse protocol (h.decoded version)) t } (n - t.length)
            else { Stream.sent written unsent with
              phase := .piping true true
              client := .given (stripResponse protocol (h.decoded version)) t } := by
        simp only [Stream.onResponse, hk, hc]
        rw [if_neg hs]
        simp [sendWith, calls, given, Stream.sent, new]
      rw [hse]
      by_cases hle : t.length ≤ n
      · rw [if_pos hle, ht hle]
        exact iff_of_true (receive_passOn_all P protocol version rfl hr) hle
      · rw [if_neg hle]
        refine iff_of_false (fun hp => ?_) hle
        have hph := hp.returned
        rw [receive_piping rfl] at hph
        cases hph
  · rw [if_neg hf] at hk
    refine iff_of_false (fun hp => ?_) (fun hbo => hf hbo.1)
    have hph := hp.returned
    rw [receive_piping (onResponse_unrecognised h hk written unsent t hc)] at hph
    cases hph

/-- **Bodies of fixed length** are passed on if and only if the head fits, the length fits a
word, and the head's segment does not go over the body. -/
theorem passed_iff (written unsent body : Bytes) {segments : List Bytes}
    (hflatten : segments.flatten = h.bytes ++ body) (hbody : n ≤ body.length) :
    Passed (stripResponse protocol (h.decoded version)) (body.take n)
        ((Stream.sent written unsent).receive calls P protocol version segments) ↔
      h.Fits segments ∧ n < 2 ^ 64 ∧ ∃ x, Boundary segments (h.bytes ++ x) ∧ x.length ≤ n := by
  obtain ⟨hco, hfa⟩ := receive_sent h protocol version written unsent hflatten
  by_cases hf : h.Fits segments
  · obtain ⟨t, segments', hr, hre, hcu, hc⟩ := hco hf
    rw [hr, passed_onResponse_iff h hlen protocol version written unsent t hre hbody,
      and_iff_right hf]
    refine and_congr_right fun _ => ⟨fun hle => ?_, ?_⟩
    · refine ⟨t, ?_, hle⟩
      by_cases hn : t = []
      · rw [hn, append_nil]
        exact hcu.mp hn
      · exact (hc t hn).mpr ⟨[t], by simp, by simp⟩
    · rintro ⟨x, hx, hle⟩
      by_cases hn : x = []
      · rw [hn, append_nil] at hx
        rw [hcu.mpr hx]
        exact Nat.zero_le n
      · obtain ⟨y, rfl, -⟩ := (Lib.Segments.boundary_cons hn).mp ((hc x hn).mp hx)
        rw [length_append] at hle
        omega
  · refine iff_of_false (fun hpa => ?_) (fun ha => hf ha.1)
    obtain ⟨e, he⟩ := hfa hf
    have hp := hpa.returned
    rw [he] at hp
    cases hp

end

open HttpForwardedStream (scanner)

def helloParts : List Bytes :=
  [utf8 "HTTP/1.1 200 OK\r\nContent-Len", utf8 "gth: 5\r\n\r\nhel", utf8 "lo, next"]

theorem helloParts_passed : Passed (stripResponse .http2 (helloHead.decoded .http2)) (utf8 "hello")
        ((Stream.sent [] []).receive calls scanner .http2 .http2 helloParts) ∧
      Passed (stripResponse .http3 (helloHead.decoded .http3)) (utf8 "hello")
        ((Stream.sent [] []).receive calls scanner .http3 .http3 helloParts) := by
  have hs : helloHead.Fits helloParts := by
    refine ⟨by decide +kernel, fun x _ hx => ?_⟩
    have hh : helloHead.bytes.length < maxRawHeadersSize := by decide +kernel
    exact Nat.lt_trans hx hh
  refine ⟨?_, ?_⟩
  · exact (passed_iff helloHead hasLength_helloHead .http2 .http2 [] [] (utf8 "hello, next")
      (by decide +kernel) (by decide +kernel)).mpr
        ⟨hs, by decide, utf8 "hel", by decide +kernel, by decide +kernel⟩
  · exact (passed_iff helloHead hasLength_helloHead .http3 .http3 [] [] (utf8 "hello, next")
      (by decide +kernel) (by decide +kernel)).mpr
        ⟨hs, by decide, utf8 "hel", by decide +kernel, by decide +kernel⟩

/-- One byte more in the head's segment. -/
theorem surplus_passed : ((Stream.sent [] []).receive calls scanner .http2 .http2
        [helloHead.bytes ++ utf8 "hello!"]).client =
      ⟨[(stripResponse .http2 (helloHead.decoded .http2), false)], utf8 "hello!", 0⟩ ∧
    ((Stream.sent [] []).receive calls scanner .http3 .http3
        [helloHead.bytes ++ utf8 "hello!"]).client =
      ⟨[(stripResponse .http3 (helloHead.decoded .http3), false)], utf8 "hello!", 1⟩ ∧
    (¬ Passed (stripResponse .http2 (helloHead.decoded .http2)) (utf8 "hello")
        ((Stream.sent [] []).receive calls scanner .http2 .http2
          [helloHead.bytes ++ utf8 "hello!"])) ∧
    ¬ Passed (stripResponse .http3 (helloHead.decoded .http3)) (utf8 "hello")
        ((Stream.sent [] []).receive calls scanner .http3 .http3
          [helloHead.bytes ++ utf8 "hello!"]) := by
  have htw : ((Stream.sent [] []).receive calls scanner .http2 .http2
      [helloHead.bytes ++ utf8 "hello!"]).client =
        ⟨[(stripResponse .http2 (helloHead.decoded .http2), false)], utf8 "hello!", 0⟩ := by
    decide +kernel
  have ht : ((Stream.sent [] []).receive calls scanner .http3 .http3
      [helloHead.bytes ++ utf8 "hello!"]).client =
        ⟨[(stripResponse .http3 (helloHead.decoded .http3), false)], utf8 "hello!", 1⟩ := by
    decide +kernel
  refine ⟨htw, ht, fun h => ?_, fun h => ?_⟩
  · have he := congrArg eofs (htw.symm.trans h.client)
    cases he
  · have hd := congrArg (fun c => c.delivered.length) (ht.symm.trans h.client)
    revert hd
    decide +kernel

end TrustTunnel.ReverseProxy
