import TrustTunnel.ReverseProxyResponse

/-!
# Forwarded responses that break off

`ForwardedStreamSink::eof` does not look at what is missing when the server closes.
-/

namespace TrustTunnel.Truncation

open Io Http HttpForwardedStream HttpForwardedStream.Conversion List ForwardedStreamSink ParsedHeader Text
open Lib.Keyed (keyed keyed_cons keyed_eq_nil)
open Pipe (Ends ends_nil ends_refused ends_sent ends_unsent)
open Lib.Http1 (utf8 crlf isDigit decimal finalChunked)
open Lib.Segments

/-! ## Responses -/

section

variable {P : Httparse} (h : ReverseProxy.Head P)

structure IsChunked : Prop where
  no_length : h.values "content-length" = []
  final : finalChunked (h.values "transfer-encoding") = true

/-- The body has `n` bytes. -/
structure HasLength (n : Nat) : Prop where
  no_coding : h.values "transfer-encoding" = []
  length : ∃ v, h.values "content-length" = [v] ∧ (v ≠ [] ∧ v.all isDigit = true) ∧ decimal v = n

lemma ne_of_values_eq_nil {name : String} (hv : h.values name = []) :
    ∀ x ∈ h.response.headers, toAsciiLowercase x.name ≠ name := by
  intro x hx hn
  have hm : x.value ∈ h.values name :=
    mem_map.mpr ⟨x, mem_filter.mpr ⟨hx, by simp [hn]⟩, rfl⟩
  rw [hv] at hm
  cases hm

end

inductive Body (P : Httparse) where
  | chunked (chunks : List (Chunk P)) (last : SizeLine P)
  | fixed (bytes : Bytes)

structure Response (P : Httparse) where
  intermediates : List (Head P)
  intermediate_status : ∀ h ∈ intermediates, h.response.code < 200
  head : ReverseProxy.Head P
  has_body : head.response.code ≠ 204 ∧ head.response.code ≠ 304
  names_valid : ∀ h ∈ head.response.headers, isToken (trimEnd h.name) = true
  body : Body P
  framed : match body with
    | .chunked _ last => IsChunked head ∧ last.size = 0
    | .fixed bytes => HasLength head bytes.length

section

variable {P : Httparse}

lemma Response.framed_chunked {r : Response P} {last : SizeLine P}
    (h : r.body = .chunked chunks last) : IsChunked r.head ∧ last.size = 0 := by
  have hf := r.framed
  rwa [h] at hf

lemma Response.framed_fixed {r : Response P} {bytes : Bytes} (h : r.body = .fixed bytes) :
    HasLength r.head bytes.length := by
  have hf := r.framed
  rwa [h] at hf

def Body.bytes : Body P → Bytes
  | .chunked chunks last => chunks.flatMap (fun c => c.items.flatMap Item.elems) ++ last.bytes
  | .fixed bytes => bytes

def headsBytes (intermediates : List (Head P)) (head : ReverseProxy.Head P) : Bytes :=
  intermediates.flatMap Head.bytes ++ head.bytes

def Response.bytes (r : Response P) : Bytes := headsBytes r.intermediates r.head ++ r.body.bytes

/-! ## The framing that is found -/

/-- Whether an earlier `Connection` header names the length. -/
def lengthDropped (dropHeaders : List String) : List ParsedHeader → Bool
  | [] => false
  | h :: headers =>
    if toAsciiLowercase h.name = "content-length" then decide ("content-length" ∈ dropHeaders)
    else if toAsciiLowercase h.name ∉ dropHeaders ∧
        toAsciiLowercase h.name = "connection" then
      lengthDropped (dropHeaders ++ connectionOptions h.value) headers
    else lengthDropped dropHeaders headers

def Response.found (r : Response P) : Option BodyLength :=
  match r.body with
  | .chunked _ _ => if recognises hopHeaders r.head.response.headers then some .chunked else none
  | .fixed bytes =>
    if lengthDropped hopHeaders r.head.response.headers then none else some (.determined bytes.length)

structure Response.Convertible (r : Response P) : Prop where
  headers_le : r.head.response.headers.length ≤ 128
  length : match r.body with
    | .chunked _ _ => True
    | .fixed bytes =>
      lengthDropped hopHeaders r.head.response.headers = true ∨ bytes.length < 2 ^ 64

lemma utf8_charOf (hd : v.all isDigit) :
    utf8 (String.ofList (v.map ReverseProxy.charOf)) = v := by
  rw [TrustTunnel.Text.utf8_eq_flatMap, String.toList_ofList, flatMap_map]
  induction v with
  | nil => rfl
  | cons b v ih =>
    rw [all_cons, Bool.and_eq_true] at hd
    have hb : b.toNat < 58 := by
      have := hd.1
      simp only [isDigit, Bool.and_eq_true, decide_eq_true_eq, UInt8.le_iff_toNat_le] at this
      exact Nat.lt_succ_of_le this.2
    have hc : (ReverseProxy.charOf b).toNat = b.toNat := by
      have hv : b.toNat.isValidChar := .inl (by omega)
      rw [ReverseProxy.charOf, Char.ofNat, dif_pos hv]
      rfl
    rw [flatMap_cons, ih hd.2, TrustTunnel.Text.utf8EncodeChar_ascii (by omega), hc,
      UInt8.ofNat_toNat]
    rfl

lemma parse_digits (hne : v ≠ []) (hd : v.all isDigit) :
    (fromUtf8 v).bind parseU64 = (if decimal v < 2 ^ 64 then some (decimal v) else none) ∧
      (Authentication.toStr v).bind parseU64 =
        if decimal v < 2 ^ 64 then some (decimal v) else none := by
  have hu := utf8_charOf hd
  have ht : String.fromUTF8? ⟨v.toArray⟩ = some (String.ofList (v.map ReverseProxy.charOf)) := by
    have := Lib.Http1.fromUTF8_utf8 (String.ofList (v.map ReverseProxy.charOf))
    rwa [hu] at this
  have hv : v.all (fun b => (32 ≤ b && b < 127) || b == 9) := by
    rw [all_eq_true] at hd ⊢
    intro b hb
    have := hd b hb
    simp only [isDigit, Bool.and_eq_true, decide_eq_true_eq, UInt8.le_iff_toNat_le] at this
    have hl : (32 : UInt8) ≤ b := UInt8.le_iff_toNat_le.mpr (Nat.le_trans (by decide) this.1)
    have hh : b < (127 : UInt8) := UInt8.lt_iff_toNat_lt.mpr (Nat.lt_of_le_of_lt this.2 (by decide))
    simp [hl, hh]
  have hs : v.head? ≠ some 43 := by
    intro hhe
    have := all_eq_true.mp hd 43 (mem_of_mem_head? hhe)
    exact absurd this (by decide)
  have hp : parseU64 (String.ofList (v.map ReverseProxy.charOf)) =
      if decimal v < 2 ^ 64 then some (decimal v) else none := by
    simp [parseU64, hu, if_neg hs, hne, hd]
  exact ⟨by rw [fromUtf8, ht, Option.bind_some, hp],
    by rw [Authentication.toStr, if_pos hv, ht, Option.bind_some, hp]⟩

lemma recognises_of_no_coding (h : ∀ x ∈ headers, toAsciiLowercase x.name ≠ "transfer-encoding")
    (dropHeaders : List String) : recognises dropHeaders headers = false := by
  induction headers generalizing dropHeaders with
  | nil => rfl
  | cons x headers ih =>
    have hr := fun y hy => h y (mem_cons_of_mem x hy)
    unfold recognises
    split_ifs with hdrop hconn hc
    · exact ih hr _
    · exact ih hr _
    · exact absurd hc (h x mem_cons_self)
    · exact ih hr _

/-- The length that is looked at.  By induction on the headers. -/
lemma head?_kept_length
    (hco : ∀ x ∈ headers, x.key ≠ "transfer-encoding") (dropHeaders : List String) :
    (keyed key "content-length" (kept dropHeaders headers)).head? =
      if lengthDropped dropHeaders headers then none
      else (keyed key "content-length" headers).head? := by
  induction headers generalizing dropHeaders with
  | nil => rfl
  | cons x headers ih =>
    have ih := ih fun y hy => hco y (mem_cons_of_mem x hy)
    have hx := hco x mem_cons_self
    by_cases hn : x.key = "content-length"
    · rw [lengthDropped, if_pos hn, keyed_cons, if_pos hn]
      by_cases hd : "content-length" ∈ dropHeaders
      · rw [keyed_kept_of_dropped hd, decide_eq_true hd]
        rfl
      · have hk : x.key ∉ dropHeaders ∧ x.key ≠ "connection" ∧ x.key ≠ "transfer-encoding" :=
          ⟨hn.symm ▸ hd, fun h => absurd (hn.symm.trans h) (by decide), hx⟩
        rw [kept, if_pos hk, keyed_cons, if_pos hn, decide_eq_false hd]
        rfl
    · -- another header only adds to the names
      have hr : keyed key "content-length" (kept dropHeaders (x :: headers)) =
          keyed key "content-length" (kept (dropStep dropHeaders x) headers) := by
        rw [kept]
        split_ifs
        · rw [keyed_cons, if_neg hn]
        · rfl
      have hdr : lengthDropped dropHeaders (x :: headers) =
          lengthDropped (dropStep dropHeaders x) headers := by
        rw [lengthDropped, if_neg hn, dropStep, if_neg hx]
        by_cases hd : x.key ∈ dropHeaders
        · rw [if_pos hd, if_neg fun h => h.1 hd]
        by_cases hc : x.key = "connection"
        · rw [if_neg hd, if_pos hc, if_pos ⟨hd, hc⟩]
        · rw [if_neg hd, if_neg hc, if_neg fun h => hc h.2]
      rw [hr, hdr, ih, keyed_cons, if_neg hn]

/-- What is made of a length of `n`. -/
def lengthFound (headers : List ParsedHeader) (n : Nat) : Except IoError (Option BodyLength) :=
  if lengthDropped hopHeaders headers then .ok none
  else if n < 2 ^ 64 then .ok (some (.determined n))
  else .error (.other "Invalid Content-Length header value: ")

section

variable {h : ReverseProxy.Head P} {n : Nat}

lemma foundLength_length (hl : HasLength h n) :
    foundLength none (kept hopHeaders h.response.headers) = lengthFound h.response.headers n := by
  obtain ⟨hc, v, hva, hv, rfl⟩ := hl
  obtain ⟨x, hx, rfl⟩ : ∃ x, keyed key "content-length" h.response.headers = [x] ∧
      x.value = v := map_eq_singleton_iff.mp hva
  have hh := head?_kept_length (ne_of_values_eq_nil h hc) hopHeaders
  rw [hx, head?_cons] at hh
  rw [foundLength, hh, lengthFound]
  cases lengthDropped hopHeaders h.response.headers with
  | true => rfl
  | false =>
    simp only [Bool.false_eq_true, if_false, lengthOf, (parse_digits hv.1 hv.2).1]
    by_cases hf : decimal x.value < 2 ^ 64
    · rw [if_pos hf, if_pos hf]
    · rw [if_neg hf, if_neg hf]

lemma convertResponse_length (hl : HasLength h n)
    (hn : ∀ x ∈ h.response.headers, isToken (trimEnd x.name)) {method : Method}
    (hb : isBodiless method h.response.code = false) (version : Version) :
    convertResponse method version h.response = (lengthFound h.response.headers n).map fun l =>
        (⟨version, h.response.code, (kept hopHeaders h.response.headers).map trimmed⟩, l) := by
  have hc := ne_of_values_eq_nil h hl.no_coding
  rw [convertResponse_eq method (fun x hx hna => absurd hna (hc x hx)) h.status_range
    (fun x hx => ⟨hn x hx, (h.headers_valid x hx).2⟩), foundLength_length hl]
  simp [finalLength, hb, recognises_of_no_coding hc]

end

section

variable {version : Version} (hver : version = .http2 ∨ version = .http3)

include hver

/-- **The framing that is found.** -/
lemma convertResponse_response (r : Response P) {method : Method} (hmeth : method ≠ .head) :
    (r.Convertible → ∃ converted : ResponseHeaders, converted.status = r.head.response.code ∧
      convertResponse method version r.head.response = .ok (converted, r.found)) ∧
    (r.head.response.headers.length ≤ 128 → ¬ r.Convertible →
      ∃ e, convertResponse method version r.head.response = .error e) := by
  have hb := isBodiless_eq_false hmeth ⟨r.head.status_valid.1, r.has_body⟩
  cases hc : r.body with
  | chunked =>
    refine ⟨fun _ => ?_, fun hle hn => absurd ⟨hle, by rw [hc]; trivial⟩ hn⟩
    have hl := ne_of_values_eq_nil r.head (Response.framed_chunked hc).1.no_length
    rw [convertResponse_eq method (fun _ _ _ => hver) r.head.status_range
      (fun x hx => ⟨r.names_valid x hx, (r.head.headers_valid x hx).2⟩),
      foundLength_of_nil (keyed_eq_nil fun x hx => hl x (mem_kept hx).1) none]
    refine ⟨⟨version, r.head.response.code, (kept hopHeaders r.head.response.headers).map trimmed⟩,
      rfl,
      ?_⟩
    simp [Except.map, finalLength, hb, Response.found, hc]
  | fixed bytes =>
    rw [convertResponse_length (Response.framed_fixed hc) r.names_valid hb version,
      lengthFound, Response.found, hc]
    by_cases hr : lengthDropped hopHeaders r.head.response.headers ∨ bytes.length < 2 ^ 64
    · refine ⟨fun _ => ?_, fun hle hn => absurd ⟨hle, by rw [hc]; exact hr⟩ hn⟩
      cases hd : lengthDropped hopHeaders r.head.response.headers with
      | true => exact ⟨⟨version, r.head.response.code, _⟩, rfl, rfl⟩
      | false =>
        rw [hd] at hr
        rw [if_pos (hr.resolve_left Bool.false_ne_true)]
        exact ⟨⟨version, r.head.response.code, _⟩, rfl, rfl⟩
    · refine ⟨fun hco => absurd ?_ hr, fun _ _ => ?_⟩
      · have hl := hco.length
        rwa [hc] at hl
      · rw [not_or] at hr
        rw [if_neg hr.1, if_neg hr.2]
        exact ⟨_, rfl⟩

end

/-! ## Ends of the client's stream -/

variable (P) in
/-- After the close or a failure, `given` tells whether the client got an end. -/
def Ended (given : Prop) (f : ForwardedStreamSink ClientStream) (segments : List Bytes) : Prop :=
  Ends (sinkCalls P) (fun f' _ => f'.client.eofs ≠ 0 ↔ given) f segments

variable {given : Prop}

lemma ended_idle {client : ClientStream} (he : client.eofs = 0)
    (segments : List Bytes) : Ended P given ⟨.idle, fake, client⟩ segments ↔ ¬ given := by
  cases segments with
  | nil =>
    have heo : (sinkCalls P).eof ⟨.idle, fake, client⟩ () = (⟨.idle, fake, client⟩, .ok ()) := rfl
    rw [Ended, ends_nil heo]
    simp [he]
  | cons bytes =>
    have hw : (sinkCalls P).write ⟨.idle, fake, client⟩ bytes () =
      (⟨.idle, fake, client⟩, .error (.other "Invalid state")) := rfl
    rw [Ended, ends_refused hw]
    simp [he]

/-- The client is told that the gateway failed. By induction on the segments. -/
lemma ended_waiting {client : ClientStream} (heo : client.eofs = 0)
    (h : ∀ x, Boundary segments x → ∀ pos response,
      parseWithin P (buffer ++ x) headersBufferSizes = .complete pos response →
        ∃ e, convertResponse method version response = .error e) (fake : Bool) :
    Ended P given ⟨.waitingResponse buffer method version, fake, client⟩ segments ↔ ¬ given := by
  have hba : ∀ status, (ClientStream.calls.sendBadResponse client status ()).1.eofs = 0 :=
    fun _ => heo
  induction segments generalizing buffer with
  | nil =>
    rw [Ended, ends_nil rfl]
    exact iff_false_left (not_not_intro (hba badGateway))
  | cons bytes segments ih =>
    have hb : Boundary (bytes :: segments) bytes := ⟨[bytes], by simp, by simp⟩
    -- the sink fails, unless it waits for more
    have hf : ∀ e, (sinkCalls P).write ⟨.waitingResponse buffer method version, fake, client⟩
        bytes () = (⟨.idle, fake, (ClientStream.calls.sendBadResponse client badGateway ()).1⟩,
          .error e) →
        (Ended P given ⟨.waitingResponse buffer method version, fake, client⟩ (bytes :: segments) ↔
          ¬ given) := by
      intro e hw
      rw [Ended, ends_refused hw]
      simp [hba badGateway]
    cases hp : parseWithin P (buffer ++ bytes) headersBufferSizes with
    | needMore =>
      have hw : (sinkCalls P).write ⟨.waitingResponse buffer method version, fake, client⟩
          bytes () = (⟨.waitingResponse (buffer ++ bytes) method version, fake, client⟩,
            .ok []) := by
        simp [sinkCalls, calls, write, onResponseHeadersChunk, hp]
      rw [Ended, ends_sent hw]
      refine ih fun x hx pos response hc => ?_
      rw [append_assoc] at hc
      refine h (bytes ++ x) ?_ pos response hc
      obtain ⟨A, hA, rfl⟩ := hx
      exact ⟨bytes :: A, cons_prefix_cons.mpr ⟨rfl, hA⟩, rfl⟩
    | complete pos response =>
      obtain ⟨e, he⟩ := h bytes hb pos response hp
      refine hf e ?_
      simp [sinkCalls, calls, write, onResponseHeadersChunk, hp, he]
    | tooManyHeaders =>
      refine hf (.other "Failed to parse response: too many headers") ?_
      simp [sinkCalls, calls, write, onResponseHeadersChunk, hp]
    | invalid text =>
      refine hf (.other ("Failed to parse response: " ++ text)) ?_
      simp [sinkCalls, calls, write, onResponseHeadersChunk, hp]

/-! ## Bodies that are passed on as they are -/

lemma write_nonEncoded (sentBytes : Nat) {client : ClientStream}
    (data : Bytes) (hs : data.length ≤ client.schedule client.writes)
    (hl : ∀ n ∈ bodyLength, sentBytes + data.length < n) (fake : Bool) :
    ∃ client', (sinkCalls P).write ⟨.transferringBodyNonEncoded bodyLength sentBytes, fake, client⟩
        data () =
      (⟨.transferringBodyNonEncoded bodyLength (sentBytes + data.length), fake, client'⟩, .ok []) ∧
      client'.schedule = client.schedule := by
  have hno : ¬ some (sentBytes + data.length) = bodyLength := fun h =>
    absurd (hl _ h.symm) (Nat.lt_irrefl _)
  have hse : ∀ n ∈ bodyLength, ¬ n ≤ sentBytes ∧ min data.length (n - sentBytes) = data.length := by
    intro n hn
    have := hl n hn
    omega
  by_cases he : data = []
  · subst he
    refine ⟨client, ?_, rfl⟩
    cases bodyLength with
    | none =>
      simp [sinkCalls, calls, write, onNonEncodedChunk]
    | some n =>
      simp [sinkCalls, calls, write, onNonEncodedChunk, (hse n rfl).1]
  · have hp : data.length ≠ 0 := fun h => he (length_eq_zero_iff.mp h)
    refine ⟨client.accept data, ?_, rfl⟩
    cases bodyLength with
    | none =>
      simp [sinkCalls, calls, write, onNonEncodedChunk, ClientStream.calls, ClientStream.accept, he,
        take_of_length_le hs, drop_of_length_le hs]
    | some n =>
      simp only [sinkCalls, calls, write,
        onNonEncodedChunk, ClientStream.calls, ClientStream.accept,
        (hse n rfl).1, (hse n rfl).2, if_false, if_neg hp, take_length,
        take_of_length_le hs, drop_of_length_le hs, length_nil,
        Nat.sub_zero, if_neg hno, drop_length]

/-- It is ended with the connection. By induction on the segments. -/
lemma ended_nonEncoded {client : ClientStream}
    {segments : List Bytes} (hs : ∀ n, segments.flatten.length ≤ client.schedule n)
    (hl : ∀ n ∈ bodyLength, sentBytes + segments.flatten.length < n) (fake : Bool) :
    Ended P given ⟨.transferringBodyNonEncoded bodyLength sentBytes, fake, client⟩ segments ↔
      given := by
  induction segments generalizing sentBytes client with
  | nil =>
    rw [Ended, ends_nil rfl]
    exact iff_true_left (Nat.succ_ne_zero _)
  | cons bytes segments ih =>
    simp only [flatten_cons, length_append] at hs hl
    obtain ⟨client', hw, hc'⟩ := write_nonEncoded (P := P) sentBytes bytes
      (Nat.le_trans (Nat.le_add_right _ _) (hs client.writes))
      (fun n hn => by have := hl n hn; omega) fake
    rw [Ended, ends_sent hw]
    refine ih (fun n => ?_) (fun n hn => ?_)
    · rw [hc']
      exact Nat.le_trans (Nat.le_add_left _ _) (hs n)
    · have := hl n hn
      omega

/-! ## Chunked bodies -/

section

variable {st : Bytes → SinkState} {next : SinkState} {client client' : ClientStream}

/-- A part of an item is buffered.  By induction on the segments. -/
lemma Awaits.ended_part (h : Awaits P b st next client client' false)
    (he : ∀ buffer fake, Ended P given ⟨st buffer, fake, client⟩ [] ↔ given)
      (hp : (buffer ++ segments.flatten) <+: b)
    (hl : (buffer ++ segments.flatten).length < b.length) (fake : Bool) :
    Ended P given ⟨st buffer, fake, client⟩ segments ↔ given := by
  induction segments generalizing buffer with
  | nil => exact he buffer fake
  | cons bytes segments ih =>
    rw [flatten_cons, ← append_assoc] at hp hl
    have hpa : buffer ++ bytes <+: b := (prefix_append _ _).trans hp
    have hs : (buffer ++ bytes).length < b.length :=
      Nat.lt_of_le_of_lt (prefix_append _ _).length_le hl
    rw [Ended, ends_sent (h.more fake buffer bytes hpa hs)]
    exact ih hp hl

lemma Awaits.ended_iff (item : Item UInt8) (hk : item.kind = .free)
    (h : Awaits P item.elems st next client client' false)
    (he : ∀ buffer fake, Ended P given ⟨st buffer, fake, client⟩ [] ↔ given)
      (hi : ∀ i ∈ items, i.kind ≠ .closing)
    (hne : ∀ s ∈ segments, s ≠ []) (hf : segments.flatten ++ missing = item.elems ++ rest)
    (hn : ∀ left, (∀ s ∈ left, s ≠ []) → left.flatten ++ missing = rest → ∀ fake,
      (Ended P given ⟨next, fake, client'⟩ left ↔ (Respects left items ↔ given))) (fake : Bool) :
    Ended P given ⟨st [], fake, client⟩ segments ↔ (Respects segments (item :: items) ↔ given) := by
  obtain ⟨hp, hs⟩ | ⟨bytes, segments, left, rfl, hc, hl, hleft_ne⟩ :=
    cut_or_consumes item.ne_nil hne hf
  · have hr : Respects segments (item :: items) := by
      refine ⟨?_, respectsFrom_of_length_le (Nat.le_of_lt hs) hi⟩
      simp [Item.Respected, hk]
    exact (Awaits.ended_part h he hp hs fake).trans (iff_true_left hr).symm
  · rw [hc.respects_free hk]
    rw [← nil_append bytes] at hc
    exact h.ends hc (length_pos_iff.mpr item.ne_nil) (fun h => by cases h)
      (hn left hleft_ne hl) fake

end

section

variable {client : ClientStream} {segments : List Bytes} {missing : Bytes}

/-- When it is cut, the client's stream gets no end. -/
lemma ended_data (item : Item UInt8) (hk : item.kind = .whole) (he : client.eofs = 0)
    (hsc : item.elems.length ≤ client.schedule client.writes)
    (hit : ∀ i ∈ items, i.kind ≠ .closing) (hne : ∀ s ∈ segments, s ≠ [])
    (hf : segments.flatten ++ missing = item.elems ++ rest)
    (hn : ∀ left, (∀ s ∈ left, s ≠ []) → left.flatten ++ missing = rest → ∀ fake,
      (Ended P given ⟨.waitingChunkSuffix [] false, fake, client.accept item.elems⟩ left ↔
        (Respects left items ↔ given))) (fake : Bool) :
    Ended P given ⟨.transferringBodyChunked item.elems.length, fake, client⟩ segments ↔
      (Respects segments (item :: items) ↔ given) := by
  cases segments with
  | nil =>
    have hr : Respects [] (item :: items) := by
      refine respectsFrom_of_length_le (Nat.zero_le _) fun i hi => ?_
      rcases mem_cons.mp hi with rfl | hi
      · simp [hk]
      · exact hit i hi
    rw [Ended, ends_nil rfl, iff_true_left hr]
    exact iff_true_left (Nat.succ_ne_zero _)
  | cons bytes segments =>
    have hb := hne bytes mem_cons_self
    have hse := fun s hs => hne s (mem_cons_of_mem bytes hs)
    have hp : bytes <+: item.elems ++ rest :=
      ⟨segments.flatten ++ missing, by rw [← hf, flatten_cons, append_assoc]⟩
    by_cases hc : bytes.length < item.elems.length
    · obtain ⟨y, hy⟩ := prefix_of_prefix_length_le hp (prefix_append _ _)
        (Nat.le_of_lt hc)
      have hy_ne : y ≠ [] := by
        rintro rfl
        rw [← hy, append_nil] at hc
        exact Nat.lt_irrefl _ hc
      have hc' := not_respects_whole hk hy.symm hb hy_ne segments items
      rw [iff_false_left hc']
      obtain ⟨left, hw⟩ := write_cut_data (P := P) client hb hc fake
      have he' : (client.accept (bytes.take (client.schedule client.writes))).eofs = 0 := he
      by_cases hl : left = []
      · subst hl
        rw [Ended, ends_sent hw]
        exact ended_idle he' segments
      · rw [Ended, ends_unsent hw hl rfl]
        exact ended_idle he' (left :: segments)
    · obtain ⟨t, rfl⟩ := prefix_of_prefix_length_le (prefix_append _ _) hp
        (Nat.le_of_not_lt hc)
      have hl : (t :: segments).flatten ++ missing = rest := by
        rw [flatten_cons, append_assoc, append_assoc] at hf
        rw [flatten_cons, append_assoc]
        exact append_cancel_left hf
      have hw := write_data (P := P) hsc fake t item.ne_nil
      rw [respects_whole hk]
      by_cases ht : t = []
      · subst ht
        rw [Ended, ends_sent hw, respects_nil_cons]
        exact hn segments hse hl true
      · rw [Ended, ends_unsent hw ht rfl]
        exact hn (t :: segments) (by simpa [ht] using hse) hl false

lemma kind_bodyItems (chunks : List (Chunk P)) (last : SizeLine P) :
    ∀ i ∈ bodyItems chunks last, i.kind ≠ .closing := by
  intro i hi
  rcases mem_append.mp hi with hi | hi
  · obtain ⟨c, _, hi⟩ := mem_flatMap.mp hi
    simp only [Chunk.items, mem_cons, not_mem_nil, or_false] at hi
    rcases hi with rfl | rfl | rfl <;> exact fun h => by cases h
  · simp only [mem_cons, not_mem_nil, or_false] at hi
    rcases hi with rfl | rfl <;> exact fun h => by cases h

lemma bytes_chunked_cons (c : Chunk P) (chunks : List (Chunk P)) (last : SizeLine P) :
    (Body.chunked (c :: chunks) last).bytes =
      c.line.bytes ++ (c.data ++ (crlf ++ (Body.chunked chunks last).bytes)) := by
  simp [Body.bytes, Chunk.items, SizeLine.item, lineEnd]

/-- **A chunked body that breaks off.**  By induction on the chunks. -/
lemma ended_body {chunks : List (Chunk P)} {last : SizeLine P} (he : client.eofs = 0)
    (ha : Accepts client.schedule client.writes chunks) (hne : ∀ s ∈ segments, s ≠ [])
    (hf : segments.flatten ++ missing = (Body.chunked chunks last).bytes)
    (hm : missing ≠ []) (fake : Bool) :
    Ended P given ⟨.waitingChunkPrefix [], fake, client⟩ segments ↔
      (Respects segments (bodyItems chunks last) ↔ given) := by
  have heo : ∀ (client : ClientStream) (buffer : Bytes) (fake : Bool),
      Ended P given ⟨.waitingChunkPrefix buffer, fake, client⟩ [] ↔ given := by
    intro client buffer fake
    rw [Ended, ends_nil rfl]
    exact iff_true_left (Nat.succ_ne_zero _)
  induction chunks generalizing client segments fake with
  | nil =>
    have hle := congrArg length hf
    have hpos := length_pos_iff.mpr hm
    simp only [Body.bytes, flatMap_nil, nil_append, length_append] at hf hle
    have hr : Respects segments (bodyItems [] last) := by
      refine ⟨trivial, respectsFrom_of_length_le ?_ fun i hi => ?_⟩
      · simp only [SizeLine.item, nil_append]
        omega
      · exact kind_bodyItems [] last i (mem_cons_of_mem _ hi)
    rw [iff_true_left hr]
    exact Awaits.ended_part (awaits_sizeLine last client) (heo client) ⟨missing, hf⟩
      (by rw [nil_append]; omega) fake
  | cons c chunks ih =>
    have hsi : c.line.size ≠ 0 := by
      rw [c.size_eq]
      exact Nat.ne_of_gt (length_pos_iff.mpr c.data_ne_nil)
    have hli := awaits_sizeLine c.line client
    rw [if_neg hsi, c.size_eq] at hli
    have he' : (client.accept c.data).eofs = 0 := he
    have ha' : Accepts (client.accept c.data).schedule (client.accept c.data).writes chunks :=
      ha.2
    have hs : ∀ (client : ClientStream) (buffer : Bytes) (fake : Bool),
        Ended P given ⟨.waitingChunkSuffix buffer false, fake, client⟩ [] ↔ given := by
      intro client buffer fake
      rw [Ended, ends_nil rfl]
      exact iff_true_left (Nat.succ_ne_zero _)
    have hit := kind_bodyItems (c :: chunks) last
    rw [bodyItems_cons, Chunk.items, cons_append, cons_append, cons_append, nil_append] at hit ⊢
    have hitems1 := fun i hi => hit i (mem_cons_of_mem _ hi)
    have hitems2 := fun i hi => hitems1 i (mem_cons_of_mem _ hi)
    rw [bytes_chunked_cons] at hf
    refine Awaits.ended_iff c.line.item rfl hli (heo client) hitems1 hne hf
      (fun left hleft_ne hl fake => ?_) fake
    refine ended_data ⟨.whole, c.data, c.data_ne_nil⟩ rfl he ha.1 hitems2 hleft_ne hl
      (fun left2 hleft_ne₂ hleft2 fake => ?_) fake
    refine Awaits.ended_iff lineEnd rfl (awaits_lineEnd (client.accept c.data) false)
      (hs (client.accept c.data)) (kind_bodyItems chunks last) hleft_ne₂ hleft2
      (fun left3 hleft_ne₃ hleft3 fake => ?_) fake
    exact ih he' ha' hleft_ne₃ hleft3 fake

end

/-! ## Whole responses -/

def Response.bodyItems (r : Response P) : List (Item UInt8) :=
  match r.body with
  | .chunked chunks last =>
    if recognises hopHeaders r.head.response.headers then HttpForwardedStream.bodyItems chunks last
    else []
  | .fixed _ => []

def Response.itemsAfter (r : Response P) (intermediates : List (Head P)) : List (Item UInt8) :=
  intermediates.map (Head.item · .closing) ++ ⟨.free, r.head.bytes, r.head.ne_nil⟩ :: r.bodyItems

/-- The heads can be converted, intermediate ones end segments, and no chunk's data is cut. -/
structure Hidden (r : Response P) (segments : List Bytes) : Prop where
  heads : (headsBytes r.intermediates r.head).length ≤ segments.flatten.length
  convertible : r.Convertible
  uncut : Respects segments (r.itemsAfter r.intermediates)

lemma parseWithin_ne_complete
    (h : ∀ size ∈ sizes, ∀ pos response, P.parseResponse size x ≠ .complete pos response)
    (pos : Nat) (response : ParsedResponse) : parseWithin P x sizes ≠ .complete pos response := by
  induction sizes with
  | nil => exact fun h => by cases h
  | cons size sizes ih =>
    have hs := h size mem_cons_self
    unfold parseWithin
    split
    · exact ih fun n hn => h n (mem_cons_of_mem size hn)
    · exact hs pos response

lemma parseWithin_tooMany (h : Reads P bytes response) (hmany : 128 < response.headers.length)
    (hx : x <+: bytes ++ rest) (pos : Nat) (parsed : ParsedResponse) :
    parseWithin P x headersBufferSizes ≠ .complete pos parsed := by
  refine parseWithin_ne_complete (fun size hsi pos parsed hc => ?_) pos parsed
  have hr : size < response.headers.length := by
    simp only [headersBufferSizes, mem_cons, not_mem_nil, or_false] at hsi
    omega
  by_cases hs : x.length < bytes.length
  · have hp := prefix_of_prefix_length_le hx (prefix_append _ _) (Nat.le_of_lt hs)
    rcases h.needMore size x hp hs with hm | ⟨-, hm⟩
    · rw [hm] at hc
      cases hc
    · rw [hm] at hc
      cases hc
  · obtain ⟨y, rfl⟩ := prefix_of_prefix_length_le (prefix_append _ _) hx
      (Nat.le_of_not_lt hs)
    rw [h.tooMany size y hr] at hc
    cases hc

lemma accepts_of_length_le
    (h : ∀ n, (Body.chunked chunks last).bytes.length ≤ schedule n) (n : Nat) :
    Accepts schedule n chunks := by
  induction chunks generalizing n with
  | nil => trivial
  | cons c chunks ih =>
    simp only [bytes_chunked_cons, length_append] at h
    refine ⟨?_, ih (fun m => ?_) (n + 1)⟩
    · have := h n
      omega
    · have := h m
      omega

lemma ended_found (r : Response P) {client : ClientStream} (he : client.eofs = 0)
    (hs : ∀ n, r.body.bytes.length ≤ client.schedule n) {segments : List Bytes}
      (hne : ∀ s ∈ segments, s ≠ [])
    (hf : segments.flatten ++ missing = r.body.bytes) (hm : missing ≠ []) (fake : Bool) :
    Ended P given ⟨transferring r.found, fake, client⟩ segments ↔
      (Respects segments r.bodyItems ↔ given) := by
  have hl := congrArg length hf
  have hpos := length_pos_iff.mpr hm
  rw [length_append] at hl
  have hse : ∀ n, segments.flatten.length ≤ client.schedule n := by
    intro n
    have := hs n
    omega
  unfold Response.found Response.bodyItems
  cases hc : r.body with
  | chunked =>
    rw [hc] at hf hs
    cases recognises hopHeaders r.head.response.headers with
    | true => exact ended_body he (accepts_of_length_le hs _) hne hf hm fake
    | false => exact (ended_nonEncoded hse (by simp) fake).trans (iff_true_left trivial).symm
  | fixed bytes =>
    rw [hc] at hl
    have hb : (Body.fixed (P := P) bytes).bytes = bytes := rfl
    rw [hb] at hl
    cases lengthDropped hopHeaders r.head.response.headers with
    | true => exact (ended_nonEncoded hse (by simp) fake).trans (iff_true_left trivial).symm
    | false =>
      refine (ended_nonEncoded hse (fun n hn => ?_) fake).trans (iff_true_left trivial).symm
      cases hn
      omega

section

variable {version : Version} (hver : version = .http2 ∨ version = .http3) {method : Method}
  (hmeth : method ≠ .head) (r : Response P)

include hver hmeth

section

variable {client : ClientStream} {segments : List Bytes} {missing : Bytes}

lemma ended_head (he : client.eofs = 0)
    (hf : segments.flatten ++ missing = r.head.bytes ++ r.body.bytes)
    (h : ¬ (r.head.bytes.length ≤ segments.flatten.length ∧ r.Convertible)) (fake : Bool) :
    Ended P given ⟨.waitingResponse [] method version, fake, client⟩ segments ↔ ¬ given := by
  refine ended_waiting he (fun x hx pos response hco => ?_) fake
  rw [nil_append] at hco
  have hp : x <+: r.head.bytes ++ r.body.bytes := hx.prefix_flatten.trans ⟨missing, hf⟩
  by_cases hle : r.head.response.headers.length ≤ 128
  · by_cases hs : x.length < r.head.bytes.length
    · have hpa := prefix_of_prefix_length_le hp (prefix_append _ _) (Nat.le_of_lt hs)
      rw [parseWithin_needMore r.head.reads hle hpa hs] at hco
      cases hco
    · obtain ⟨y, rfl⟩ := prefix_of_prefix_length_le (prefix_append _ _) hp
        (Nat.le_of_not_lt hs)
      rw [parseWithin_complete r.head.reads hle y] at hco
      cases hco
      refine (convertResponse_response hver r hmeth).2 hle fun hc =>
        h ⟨?_, hc⟩
      exact ((prefix_append _ _).trans hx.prefix_flatten).length_le
  · exact absurd hco
      (parseWithin_tooMany r.head.reads (Nat.lt_of_not_le hle) hp pos response)

lemma ended_final (he : client.eofs = 0)
    (hs : ∀ n, r.body.bytes.length ≤ client.schedule n) (hne : ∀ s ∈ segments, s ≠ [])
    (hf : segments.flatten ++ missing = r.head.bytes ++ r.body.bytes)
    (hm : missing ≠ []) (fake : Bool) :
    Ended P given ⟨.waitingResponse [] method version, fake, client⟩ segments ↔
      ((r.head.bytes.length ≤ segments.flatten.length ∧ r.Convertible) ∧
        Respects segments (r.itemsAfter []) ↔ given) := by
  by_cases h : r.head.bytes.length ≤ segments.flatten.length ∧ r.Convertible
  · rw [and_iff_right h]
    obtain ⟨converted, hst, hco⟩ := (convertResponse_response hver r hmeth).1 h.2
    have ha := awaits_converted r.head.reads h.2.headers_le hco (hst ▸ r.head.status_valid.1) client
    obtain ⟨-, hsh⟩ | ⟨bytes, segments, left, rfl, hc, hl, hleft_ne⟩ :=
      cut_or_consumes r.head.ne_nil hne hf
    · exact absurd h.1 (Nat.not_le_of_lt hsh)
    have hi : Consumes (Item.elems ⟨.free, r.head.bytes, r.head.ne_nil⟩) (bytes :: segments) left :=
      hc
    rw [Response.itemsAfter, map_nil, nil_append, hi.respects_free rfl]
    rw [← nil_append bytes] at hc
    have he' : (client.respond converted).eofs = 0 := he
    exact ha.ends hc (length_pos_iff.mpr r.head.ne_nil) (fun h => by cases h)
      (ended_found r he' hs hleft_ne hl hm) fake
  · have hn : ¬ ((r.head.bytes.length ≤ segments.flatten.length ∧ r.Convertible) ∧
        Respects segments (r.itemsAfter [])) := fun h' => h h'.1
    exact (ended_head hver hmeth r he hf h fake).trans (iff_false_left hn).symm

/-- By induction on the intermediate responses. -/
lemma ended_heads (hi : ∀ h ∈ intermediates, h.response.code < 200) (he : client.eofs = 0)
    (hs : ∀ n, r.body.bytes.length ≤ client.schedule n) (hne : ∀ s ∈ segments, s ≠ [])
    (hf : segments.flatten ++ missing = headsBytes intermediates r.head ++ r.body.bytes)
    (hm : missing ≠ []) :
    Ended P given ⟨.waitingResponse [] method version, false, client⟩ segments ↔
      (((headsBytes intermediates r.head).length ≤ segments.flatten.length ∧ r.Convertible) ∧
        Respects segments (r.itemsAfter intermediates) ↔ given) := by
  induction intermediates generalizing client segments with
  | nil => exact ended_final hver hmeth r he hs hne hf hm false
  | cons h intermediates ih =>
    have hh : headsBytes (h :: intermediates) r.head =
        h.bytes ++ headsBytes intermediates r.head := by
      simp [headsBytes]
    rw [hh, append_assoc] at hf
    rw [hh, length_append]
    obtain ⟨hp, hsh⟩ | ⟨bytes, segments, left, rfl, hc, hl, hleft_ne⟩ :=
      cut_or_consumes h.ne_nil hne hf
    · -- it breaks off in an intermediate head
      have hn : ¬ ((h.bytes.length + (headsBytes intermediates r.head).length ≤
          segments.flatten.length ∧ r.Convertible) ∧
          Respects segments (r.itemsAfter (h :: intermediates))) := fun h' => by omega
      refine Iff.trans ?_ (iff_false_left hn).symm
      refine ended_waiting he (fun x hx pos response hco => ?_) false
      have hx_lt := Nat.lt_of_le_of_lt hx.prefix_flatten.length_le hsh
      rw [nil_append, parseWithin_needMore h.reads h.headers_le (hx.prefix_flatten.trans hp) hx_lt]
        at hco
      cases hco
    · have hle : h.bytes.length + (headsBytes intermediates r.head).length ≤
          (bytes :: segments).flatten.length ↔
          (headsBytes intermediates r.head).length ≤ left.flatten.length := by
        rw [hc.flatten, length_append]
        omega
      rw [hle, Response.itemsAfter, map_cons, cons_append]
      rw [← nil_append bytes] at hc
      refine ends_intermediate hver h method client (hi h mem_cons_self)
        (F := fun p => p ↔ given) hc
        (fun _ _ => by simp [ClientStream.respond, he]) fun converted => ?_
      have he' : (client.respond converted).eofs = 0 := he
      exact ih (fun y hy => hi y (mem_cons_of_mem h hy)) he' hs hleft_ne hl

/-- **Forwarded responses that break off** get an end exactly if the truncation is hidden. -/
lemma ended_iff (hs : ∀ n, r.bytes.length ≤ schedule n)
    (hne : ∀ s ∈ segments, s ≠ []) (hf : segments.flatten ++ missing = r.bytes)
    (hm : missing ≠ []) : Ended P given (.intoForwarded method version (.new schedule)) segments ↔
      (Hidden r segments ↔ given) := by
  have hb : ∀ n, r.body.bytes.length ≤ schedule n := by
    intro n
    refine Nat.le_trans ?_ (hs n)
    rw [Response.bytes, length_append]
    exact Nat.le_add_left _ _
  have hhi : ((headsBytes r.intermediates r.head).length ≤ segments.flatten.length ∧
      r.Convertible) ∧ Respects segments (r.itemsAfter r.intermediates) ↔ Hidden r segments :=
    ⟨fun ⟨⟨hh, hc⟩, hu⟩ => ⟨hh, hc, hu⟩, fun ⟨hh, hc, hu⟩ => ⟨⟨hh, hc⟩, hu⟩⟩
  have he : (ClientStream.new schedule).eofs = 0 := rfl
  rw [← hhi]
  exact ended_heads hver hmeth r r.intermediate_status he hb hne hf hm

end

variable (P) in
def Spared (f : ForwardedStreamSink ClientStream) (segments : List Bytes) : Prop :=
  Ends (sinkCalls P) (fun f' _ => f'.client.eofs = 0) f segments

lemma spared_iff (hsc : ∀ n, r.bytes.length ≤ schedule n) (hne : ∀ s ∈ segments, s ≠ [])
    (hf : segments.flatten ++ missing = r.bytes) (hm : missing ≠ []) :
    Spared P (.intoForwarded method version (.new schedule)) segments ↔ ¬ Hidden r segments := by
  have hs : Spared P (.intoForwarded method version (.new schedule)) segments ↔
      Ended P False (.intoForwarded method version (.new schedule)) segments := by
    simp [Spared, Ended]
  rw [hs, ended_iff hver hmeth r hsc hne hf hm, iff_false]

end

end

end TrustTunnel.Truncation
