import TrustTunnel.ForwardedResponse
import TrustTunnel.Lib.Segments

/-!
# Chunked bodies to HTTP/2 and HTTP/3 clients

A response is a list of items (`Origin`), given to `ForwardedStreamSink` in segments; the client
accepts as much of each write as its schedule says (`ClientStream`).
-/

namespace TrustTunnel.HttpForwardedStream

open Io Http ForwardedStreamSink List Text
open Pipe (Drives Ends SinkCalls ends_iff_drives ends_refused ends_sent ends_unsent)
open Lib.Http1 (utf8 crlf)
open Lib.Segments

/-! ## The client -/

/-- A client that accepts `schedule n` bytes of its write number `n`. -/
structure ClientStream where
  schedule : Nat → Nat
  writes : Nat
  delivered : Bytes
  eofs : Nat
  responses : List ResponseHeaders

def ClientStream.new (schedule : Nat → Nat) : ClientStream := ⟨schedule, 0, [], 0, []⟩

def ClientStream.calls : RespondCalls ClientStream Unit where
  write c data _ :=
    ({ c with writes := c.writes + 1, delivered := c.delivered ++ data.take (c.schedule c.writes) },
      .ok (data.drop (c.schedule c.writes)))
  eof c _ := ({ c with eofs := c.eofs + 1 }, .ok ())
  waitWritable c _ := (c, .ok ())
  flush c _ := (c, .ok ())
  sendIntermediateResponse c r _ := ({ c with responses := c.responses ++ [r] }, .ok ())
  sendResponse c r _ _ := ({ c with responses := c.responses ++ [r] }, .ok ())
  sendBadResponse c status _ :=
    ({ c with responses := c.responses ++ [⟨.http11, status, []⟩] }, .ok ())

/-! ## The origin -/

/-- The size line of a chunk: the parser wants more until its end, and then finds the size. -/
structure SizeLine (P : Httparse) where
  line : Bytes
  size : Nat
  no_cr : 13 ∉ line
  chunkSize_eq : Lib.Http1.chunkSize line = some size
  complete : ∀ rest,
    P.parseChunkSize (line ++ crlf ++ rest) = .complete (line ++ crlf).length size
  needMore : ∀ p, p <+: line ++ crlf → p.length < (line ++ crlf).length →
    P.parseChunkSize p = .needMore

structure Chunk (P : Httparse) where
  line : SizeLine P
  data : Bytes
  data_ne_nil : data ≠ []
  size_eq : line.size = data.length

/-- The parser wants more until the end, unless the headers exceed the room, and finds this head. -/
structure Reads (P : Httparse) (bytes : Bytes) (response : ParsedResponse) : Prop where
  complete : ∀ room rest, response.headers.length ≤ room →
    P.parseResponse room (bytes ++ rest) = .complete bytes.length response
  tooMany : ∀ room rest, room < response.headers.length →
    P.parseResponse room (bytes ++ rest) = .tooManyHeaders
  needMore : ∀ room p, p <+: bytes → p.length < bytes.length →
    P.parseResponse room p = .needMore ∨
      room < response.headers.length ∧ P.parseResponse room p = .tooManyHeaders

/-- A head without a length. -/
structure Head (P : Httparse) where
  bytes : Bytes
  response : ParsedResponse
  ne_nil : bytes ≠ []
  reads : Reads P bytes response
  headers_le : response.headers.length ≤ 128
  status_valid : 100 ≤ response.code ∧ response.code ≤ 999
  headers_valid : ∀ h ∈ response.headers,
    isToken (trimEnd h.name) = true ∧ isHeaderValue h.value = true
  no_length : ∀ h ∈ response.headers, toAsciiLowercase h.name ≠ "content-length"

def Head.codings {P : Httparse} (h : Head P) : List Bytes :=
  (h.response.headers.filter
    (fun h => toAsciiLowercase h.name == "transfer-encoding")).map ParsedHeader.value

/-- A chunked response without trailers, after any intermediate ones. -/
structure Origin (P : Httparse) where
  intermediates : List (Head P)
  intermediate_status : ∀ h ∈ intermediates, h.response.code < 200
  final : Head P
  final_status : 200 ≤ final.response.code ∧ final.response.code ≠ 204 ∧
    final.response.code ≠ 304
  chunked : Lib.Http1.codings final.codings = [utf8 "chunked"]
  chunks : List (Chunk P)
  last : SizeLine P
  last_size : last.size = 0

section

variable {P : Httparse}

def Head.item (h : Head P) (kind : Kind) : Item UInt8 := ⟨kind, h.bytes, h.ne_nil⟩

def SizeLine.bytes (l : SizeLine P) : Bytes := l.line ++ crlf

lemma SizeLine.ne_nil (l : SizeLine P) : l.bytes ≠ [] := by simp [SizeLine.bytes, crlf]

def SizeLine.item (l : SizeLine P) : Item UInt8 := ⟨.free, l.bytes, l.ne_nil⟩

def lineEnd : Item UInt8 := ⟨.free, crlf, by decide⟩

def Chunk.items (c : Chunk P) : List (Item UInt8) :=
  [c.line.item, ⟨.whole, c.data, c.data_ne_nil⟩, lineEnd]

def bodyItems (chunks : List (Chunk P)) (last : SizeLine P) : List (Item UInt8) :=
  chunks.flatMap Chunk.items ++ [last.item, lineEnd]

def Origin.items (o : Origin P) : List (Item UInt8) :=
  o.intermediates.map (Head.item · .closing) ++ o.final.item .free :: bodyItems o.chunks o.last

def Origin.bytes (o : Origin P) : Bytes := o.items.flatMap Item.elems

def Origin.body (o : Origin P) : Bytes := o.chunks.flatMap Chunk.data

lemma bodyItems_cons (c : Chunk P) (chunks : List (Chunk P)) (last : SizeLine P) :
    bodyItems (c :: chunks) last = c.items ++ bodyItems chunks last := by
  simp [bodyItems]

/-- The first transfer coding no earlier `Connection` header names is spelled `chunked`. -/
def recognises (dropHeaders : List String) : List ParsedHeader → Bool
  | [] => false
  | h :: headers =>
    if toAsciiLowercase h.name ∈ dropHeaders then recognises dropHeaders headers
    else if toAsciiLowercase h.name = "connection" then
      recognises (dropHeaders ++ connectionOptions h.value) headers
    else if toAsciiLowercase h.name = "transfer-encoding" then h.value == utf8 "chunked"
    else recognises dropHeaders headers

/-! ## Driving the sink -/

variable (P) in
def sinkCalls : SinkCalls (ForwardedStreamSink ClientStream) Unit :=
  calls ClientStream.calls P

variable (P) in
def Delivers (f : ForwardedStreamSink ClientStream) (segments : List Bytes) (body : Bytes) : Prop :=
  ∃ f', Drives (sinkCalls P) f segments f' ∧ f'.client.delivered = body ∧ f'.client.eofs = 1

lemma delivers_iff_ends : Delivers P f segments body ↔ Ends (sinkCalls P)
      (fun f' r => r = .ok () ∧ f'.client.delivered = body ∧ f'.client.eofs = 1) f segments :=
  ends_iff_drives.symm

section

variable {f f1 f2 : ForwardedStreamSink ClientStream} {bytes rest body : Bytes}
  {segments : List Bytes} {e : IoError}

lemma delivers_sent (hw : (sinkCalls P).write f bytes () = (f1, .ok [])) :
    Delivers P f (bytes :: segments) body ↔ Delivers P f1 segments body := by
  rw [delivers_iff_ends, delivers_iff_ends, ends_sent hw]

lemma delivers_unsent (hw : (sinkCalls P).write f bytes () = (f1, .ok rest))
    (hne : rest ≠ []) (hwa : (sinkCalls P).waitWritable f1 () = (f2, .ok ())) :
    Delivers P f (bytes :: segments) body ↔ Delivers P f2 (rest :: segments) body := by
  rw [delivers_iff_ends, delivers_iff_ends, ends_unsent hw hne hwa]

lemma not_delivers_of_write (hw : (sinkCalls P).write f bytes () = (f1, .error e)) :
    ¬ Delivers P f (bytes :: segments) body := by
  rw [delivers_iff_ends, ends_refused hw]
  exact fun h => by cases h.1

end

lemma delivers_idle (fake : Bool) (client : ClientStream) (body : Bytes) :
    Delivers P ⟨.idle, fake, client⟩ [] body ↔ client.delivered = body ∧ client.eofs = 1 := by
  constructor
  · rintro ⟨f', hd, hf'⟩
    cases hd with
    | eof h =>
      cases h
      exact hf'
  · intro h
    exact ⟨_, .eof rfl, h⟩

lemma not_delivers_idle {fake : Bool} {client : ClientStream} {segments : List Bytes}
    (hs : segments ≠ []) (body : Bytes) : ¬ Delivers P ⟨.idle, fake, client⟩ segments body := by
  cases segments with
  | nil => exact absurd rfl hs
  | cons => exact not_delivers_of_write rfl

/-! ## Items that may be cut -/

section

variable {st : Bytes → SinkState} {next : SinkState} {client client' : ClientStream} {ended : Bool}
  {segments : List Bytes}

/-- The states `st buffer` wait for the bytes `b` and go on in `next`, giving back what followed. -/
structure Awaits (P : Httparse) (b : Bytes) (st : Bytes → SinkState) (next : SinkState)
    (client client' : ClientStream) (ended : Bool) : Prop where
  more : ∀ fake buffer bytes, (buffer ++ bytes) <+: b → (buffer ++ bytes).length < b.length →
    (sinkCalls P).write ⟨st buffer, fake, client⟩ bytes () =
      (⟨st (buffer ++ bytes), fake, client⟩, .ok [])
  complete : ∀ fake buffer bytes rest, buffer ++ bytes = b ++ rest → buffer.length < b.length →
    (ended = true → rest = []) → ∃ fake', (sinkCalls P).write ⟨st buffer, fake, client⟩ bytes () =
      (⟨next, fake', client'⟩, .ok rest)
  ready : ended = false → ∀ fake, ∃ fake',
    (sinkCalls P).waitWritable ⟨next, fake, client'⟩ () = (⟨next, fake', client'⟩, .ok ())

/-- By induction on the segments that `b` takes. -/
lemma Awaits.ends (h : Awaits P b st next client client' ended)
    (hc : Consumes b ((buffer ++ bytes) :: segments) left)
    (hb : buffer.length < b.length) (he : ended → left = [])
    (hnext : ∀ fake, Ends (sinkCalls P) Q ⟨next, fake, client'⟩ left ↔ R) (fake : Bool) :
    Ends (sinkCalls P) Q ⟨st buffer, fake, client⟩ (bytes :: segments) ↔ R := by
  -- what is buffered counts as part of the first segment
  generalize hw : (buffer ++ bytes) :: segments = w at hc
  induction hc generalizing buffer bytes segments fake with
  | all =>
    cases hw
    obtain ⟨fake', hwr⟩ := h.complete fake buffer bytes [] (by simp) hb (fun _ => rfl)
    rw [← hnext fake', ends_sent hwr]
  | @rest t ht segments' =>
    simp only [cons.injEq] at hw
    obtain ⟨hby, rfl⟩ := hw
    have hg : ended = false := by
      by_contra hen
      exact absurd (he (by simpa using hen)) (by simp)
    obtain ⟨fake', hwr⟩ := h.complete fake buffer bytes t hby hb (by simp [hg])
    obtain ⟨fake2, hwa⟩ := h.ready hg fake'
    rw [← hnext fake2, ends_unsent hwr ht hwa]
  | @more v s segments' left' hv hr ih =>
    simp only [cons.injEq] at hw
    obtain ⟨rfl, rfl⟩ := hw
    have hp := (Consumes.more hv hr).prefix_of_length (Nat.le_of_lt hv)
    have hwr := h.more fake buffer bytes hp hv
    rw [← ih hv he hnext fake rfl, ends_sent hwr]

lemma awaits_sizeLine (line : SizeLine P) (client : ClientStream) :
    Awaits P line.bytes .waitingChunkPrefix
      (if line.size = 0 then .waitingChunkSuffix [] true else .transferringBodyChunked line.size)
      client client false where
  more fake buffer bytes hp hl := by
    simp [sinkCalls, calls, write, onEncodedChunkPrefix, line.needMore _ hp hl]
  complete fake buffer bytes rest hb _ _ := by
    have hc : P.parseChunkSize (line.bytes ++ rest) = .complete line.bytes.length line.size :=
      line.complete rest
    refine ⟨!rest.isEmpty, ?_⟩
    simp [sinkCalls, calls, write, onEncodedChunkPrefix, hb, hc]
  ready _ fake := by
    by_cases hs : line.size = 0 <;> cases fake <;> simp only [hs, if_true, if_false] <;>
      exact ⟨false, rfl⟩

lemma awaits_lineEnd (client : ClientStream) (terminatingChunk : Bool) :
    Awaits P crlf (fun buffer => .waitingChunkSuffix buffer terminatingChunk)
      (if terminatingChunk then .idle else .waitingChunkPrefix []) client
      (if terminatingChunk then { client with eofs := client.eofs + 1 } else client)
      terminatingChunk where
  more fake buffer bytes hp hl := by
    rw [length_append] at hl
    have ht : min bytes.length (crlf.length - buffer.length) = bytes.length := by omega
    simp [sinkCalls, calls, write, onEncodedChunkSuffix, ht, hp, hl]
  complete fake buffer bytes rest hb hbu he := by
    have hl := congrArg length hb
    simp only [length_append] at hl
    have ht : min bytes.length (crlf.length - buffer.length) =
        crlf.length - buffer.length := by omega
    have hta : buffer ++ bytes.take (crlf.length - buffer.length) = crlf := by
      have := congrArg (take crlf.length) hb
      rwa [take_left, take_append, take_of_length_le (Nat.le_of_lt hbu)] at this
    have hd : bytes.drop (crlf.length - buffer.length) = rest := by
      have := congrArg (drop crlf.length) hb
      rwa [drop_left, drop_append, drop_of_length_le (Nat.le_of_lt hbu), nil_append] at this
    refine ⟨fake, ?_⟩
    simp only [sinkCalls, calls, write, onEncodedChunkSuffix, ht, hta, hd, prefix_refl,
      not_true_eq_false, if_false, Nat.lt_irrefl]
    cases terminatingChunk with
    | false => rfl
    | true => simp [ClientStream.calls, he]
  ready hg fake := by
    subst hg
    cases fake <;> exact ⟨false, rfl⟩

/-- What is left to deliver and to respect once the item is read. -/
lemma Awaits.delivers_iff_respects (item : Item UInt8) (hkind : item.kind = .free) (rest : Bytes)
    (h : Awaits P item.elems st next client client' ended) (hne : ∀ s ∈ segments, s ≠ [])
    (hf : segments.flatten = item.elems ++ rest) (he : ended → rest = [])
    (hnext : ∀ left, (∀ s ∈ left, s ≠ []) → left.flatten = rest → ∀ fake,
      (Delivers P ⟨next, fake, client'⟩ left body ↔ A ∧ Respects left items)) (fake : Bool) :
    Delivers P ⟨st [], fake, client⟩ segments body ↔ A ∧ Respects segments (item :: items) := by
  obtain ⟨bytes, segments, left, rfl, hc, hl, hleft_ne⟩ :=
    exists_consumes item.ne_nil hne hf
  have hem : ended → left = [] := fun hen =>
    eq_nil_of_flatten hleft_ne (hl.trans (he hen))
  rw [hc.respects_free hkind]
  rw [← nil_append bytes] at hc
  simp only [delivers_iff_ends] at hnext ⊢
  exact h.ends hc (length_pos_iff.mpr item.ne_nil) hem (hnext left hleft_ne hl) fake

end

/-! ## The data of a chunk -/

section

variable {client : ClientStream} {data bytes : Bytes} {size : Nat}

def ClientStream.accept (c : ClientStream) (data : Bytes) : ClientStream :=
  { c with writes := c.writes + 1, delivered := c.delivered ++ data }

lemma write_data (hs : data.length ≤ client.schedule client.writes) (fake : Bool)
    (rest : Bytes) (hd : data ≠ []) :
    (sinkCalls P).write ⟨.transferringBodyChunked data.length, fake, client⟩ (data ++ rest) () =
      (⟨.waitingChunkSuffix [] false, true, client.accept data⟩, .ok rest) := by
  have htoSend : min (data ++ rest).length data.length = data.length := by
    rw [length_append]
    omega
  have he : (data ++ rest).isEmpty = false := by simp [hd]
  simp [sinkCalls, calls, write, onEncodedChunk, ClientStream.calls, take_of_length_le hs,
    drop_of_length_le hs, he, ClientStream.accept]

lemma write_cut_data (client : ClientStream) (hb : bytes ≠ []) (hlen : bytes.length < size)
    (fake : Bool) :
    ∃ rest, (sinkCalls P).write ⟨.transferringBodyChunked size, fake, client⟩ bytes () =
      (⟨.idle, true, client.accept (bytes.take (client.schedule client.writes))⟩, .ok rest) := by
  have ht : min bytes.length size = bytes.length := by omega
  have hr : size - bytes.length > 0 := by omega
  have he : bytes.isEmpty = false := by simp [hb]
  refine ⟨bytes.drop (bytes.length - (bytes.drop (client.schedule client.writes)).length), ?_⟩
  simp [sinkCalls, calls, write, onEncodedChunk, ClientStream.calls, ClientStream.accept, ht,
    hr, he]

lemma not_delivers_cut_data (hb : bytes ≠ []) (hl : bytes.length < size) (hs : segments ≠ [])
    (fake : Bool) (body : Bytes) :
    ¬ Delivers P ⟨.transferringBodyChunked size, fake, client⟩ (bytes :: segments) body := by
  obtain ⟨rest, hw⟩ := write_cut_data (P := P) client hb hl fake
  by_cases hr : rest = []
  · subst hr
    rw [delivers_sent hw]
    exact not_delivers_idle hs body
  · rw [delivers_unsent hw hr rfl]
    exact not_delivers_idle (cons_ne_nil _ _) body

/-- Data the client refuses counts as sent: it is given back. -/
lemma write_refused_data (hs : client.schedule client.writes < data.length) (fake : Bool)
    (rest : Bytes) :
    (sinkCalls P).write ⟨.transferringBodyChunked data.length, fake, client⟩ (data ++ rest) () =
      (⟨.waitingChunkSuffix [] false, true,
          client.accept (data.take (client.schedule client.writes))⟩,
        .ok (data.drop (client.schedule client.writes) ++ rest)) := by
  have htoSend : min (data ++ rest).length data.length = data.length := by
    rw [length_append]
    omega
  have he : (data ++ rest).isEmpty = false := by
    cases data with
    | nil => simp at hs
    | cons => rfl
  have hse : data.length - (data.length - client.schedule client.writes) =
      client.schedule client.writes := by omega
  simp [sinkCalls, calls, write, onEncodedChunk, ClientStream.calls, ClientStream.accept, hse, he,
    drop_append_of_le_length (Nat.le_of_lt hs)]

lemma write_invalid_suffix (hb : b ≠ 13) (terminatingChunk fake : Bool)
    (client : ClientStream) (rest : Bytes) :
    (sinkCalls P).write ⟨.waitingChunkSuffix [] terminatingChunk, fake, client⟩ (b :: rest) () =
      (⟨.idle, fake, client⟩, .error (.other "Invalid encoded chunk suffix")) := by
  have hi : ¬ (b :: rest).take (min (b :: rest).length 2) <+: crlf := by
    have ht : min (b :: rest).length 2 = min rest.length 1 + 1 := by
      simp only [length_cons]
      omega
    rw [ht, take_succ_cons, crlf, cons_prefix_cons]
    exact fun h => hb h.1
  exact if_pos hi

lemma not_delivers_refused_data (hs : client.schedule client.writes < data.length)
    (hclear : data[client.schedule client.writes]? ≠ some 13) (fake : Bool) (rest : Bytes)
    (segments : List Bytes) (body : Bytes) :
    ¬ Delivers P ⟨.transferringBodyChunked data.length, fake, client⟩ ((data ++ rest) :: segments)
      body := by
  have hw := write_refused_data (P := P) hs fake rest
  rw [drop_eq_getElem_cons hs] at hw
  have hb : data[client.schedule client.writes] ≠ 13 := by
    rwa [getElem?_eq_getElem hs, ne_eq, Option.some.injEq] at hclear
  rw [delivers_unsent hw (cons_ne_nil _ _) rfl]
  exact not_delivers_of_write (write_invalid_suffix hb false false _ _)

end

section

variable (item : Item UInt8) (hkind : item.kind = .whole) {client : ClientStream}
  (hclear : client.schedule client.writes < item.elems.length →
    item.elems[client.schedule client.writes]? ≠ some 13)
  {items : List (Item UInt8)} {segments : List Bytes} {body rest : Bytes} {A : Prop}
  (hnext : item.elems.length ≤ client.schedule client.writes → ∀ left, (∀ s ∈ left, s ≠ []) →
    left.flatten = rest → ∀ fake,
    (Delivers P ⟨.waitingChunkSuffix [] false, fake, client.accept item.elems⟩ left body ↔
      A ∧ Respects left items))

include hkind hclear hnext

lemma delivers_uncut_data (hse : ∀ s ∈ segments, s ≠ [])
    (hf : (t :: segments).flatten = rest) (fake : Bool) :
    Delivers P ⟨.transferringBodyChunked item.elems.length, fake, client⟩
        ((item.elems ++ t) :: segments) body ↔
      (item.elems.length ≤ client.schedule client.writes ∧ A) ∧
        Respects ((item.elems ++ t) :: segments) (item :: items) := by
  by_cases hs : item.elems.length ≤ client.schedule client.writes
  · have hw := write_data (P := P) hs fake t item.ne_nil
    rw [respects_whole hkind, and_iff_right hs]
    by_cases ht : t = []
    · subst ht
      rw [delivers_sent hw, respects_nil_cons]
      exact hnext hs segments hse hf true
    · rw [delivers_unsent hw ht rfl]
      exact hnext hs (t :: segments) (by simpa [ht] using hse) hf false
  · have hr := Nat.lt_of_not_le hs
    exact iff_of_false (not_delivers_refused_data hr (hclear hr) fake t segments body)
      fun h => hs h.1.1

/-- The data must not be cut, and be accepted in one write. -/
lemma delivers_data (hne : ∀ s ∈ segments, s ≠ [])
    (hf : segments.flatten = item.elems ++ rest) (fake : Bool) :
    Delivers P ⟨.transferringBodyChunked item.elems.length, fake, client⟩ segments body ↔
      (item.elems.length ≤ client.schedule client.writes ∧ A) ∧
        Respects segments (item :: items) := by
  cases segments with
  | nil => exact absurd (append_eq_nil_iff.mp hf.symm).1 item.ne_nil
  | cons bytes segments =>
    have hb := hne bytes mem_cons_self
    rcases cut_or_whole hf with ⟨y, hy, hy_ne, hsegments_ne⟩ | ⟨t, rfl, hl⟩
    · have hle : bytes.length < item.elems.length := by
        have := length_pos_iff.mpr hy_ne
        rw [hy, length_append]
        omega
      exact iff_of_false (not_delivers_cut_data hb hle hsegments_ne fake body)
        fun h => not_respects_whole hkind hy hb hy_ne segments items h.2
    · exact delivers_uncut_data item hkind hclear hnext
        (fun s hs => hne s (mem_cons_of_mem _ hs)) hl fake

end

/-! ## The body -/

def Accepts (schedule : Nat → Nat) : Nat → List (Chunk P) → Prop
  | _, [] => True
  | n, c :: chunks => c.data.length ≤ schedule n ∧ Accepts schedule (n + 1) chunks

/-- The first refused byte is no carriage return. -/
def RefusesClearly (schedule : Nat → Nat) : Nat → List (Chunk P) → Prop
  | _, [] => True
  | n, c :: chunks => (schedule n < c.data.length → c.data[schedule n]? ≠ some 13) ∧
      (c.data.length ≤ schedule n → RefusesClearly schedule (n + 1) chunks)

/-- By induction on the chunks. -/
lemma delivers_body {chunks : List (Chunk P)} {last : SizeLine P} (hla : last.size = 0)
    {client : ClientStream} (hclear : RefusesClearly client.schedule client.writes chunks)
    (hb : client.delivered ++ chunks.flatMap Chunk.data = body) (he : client.eofs = 0)
    {segments : List Bytes} (hne : ∀ s ∈ segments, s ≠ [])
    (hf : segments.flatten = (bodyItems chunks last).flatMap Item.elems) (fake : Bool) :
    Delivers P ⟨.waitingChunkPrefix [], fake, client⟩ segments body ↔
      Accepts client.schedule client.writes chunks ∧ Respects segments (bodyItems chunks last) := by
  induction chunks generalizing client segments fake with
  | nil =>
    have hli := awaits_sizeLine last client
    rw [if_pos hla] at hli
    refine Awaits.delivers_iff_respects last.item rfl crlf hli hne
      (by simpa [bodyItems, lineEnd, SizeLine.item] using hf) (by simp)
      (fun left hleft_ne hl fake => ?_) fake
    refine Awaits.delivers_iff_respects lineEnd rfl [] (awaits_lineEnd client true) hleft_ne
      (by simpa [lineEnd] using hl) (fun _ => rfl)
      (fun left2 hleft_ne₂ hleft2 fake => ?_) fake
    obtain rfl := eq_nil_of_flatten hleft_ne₂ hleft2
    have hd : client.delivered = body ∧ client.eofs + 1 = 1 :=
      ⟨by simpa using hb, by rw [he]⟩
    exact iff_of_true ((delivers_idle fake _ body).mpr hd) ⟨trivial, trivial⟩
  | cons c chunks ih =>
    have hsi : c.line.size ≠ 0 := by
      rw [c.size_eq]
      exact Nat.ne_of_gt (length_pos_iff.mpr c.data_ne_nil)
    have hli := awaits_sizeLine c.line client
    rw [if_neg hsi, c.size_eq] at hli
    refine Awaits.delivers_iff_respects c.line.item rfl
      (c.data ++ (crlf ++ (bodyItems chunks last).flatMap Item.elems)) hli hne
      (by simpa [bodyItems, Chunk.items, lineEnd, SizeLine.item] using hf) (by simp)
      (fun left hleft_ne hl fake => ?_) fake
    refine delivers_data ⟨.whole, c.data, c.data_ne_nil⟩ rfl hclear.1
      (fun hs left2 hleft_ne₂ hleft2 fake => ?_) hleft_ne hl fake
    refine Awaits.delivers_iff_respects lineEnd rfl _ (awaits_lineEnd (client.accept c.data) false)
      hleft_ne₂ hleft2 (by simp) (fun left3 hleft_ne₃ hleft3 fake => ?_) fake
    have hb' : (client.accept c.data).delivered ++ chunks.flatMap Chunk.data = body := by
      simpa [ClientStream.accept] using hb
    have hclear' : RefusesClearly (client.accept c.data).schedule (client.accept c.data).writes
        chunks := hclear.2 hs
    exact ih hclear' hb' he hleft_ne₃ hleft3 fake

end

end TrustTunnel.HttpForwardedStream
