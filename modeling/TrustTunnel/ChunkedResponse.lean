import TrustTunnel.ResponseConversion

/-!
# Chunked responses to HTTP/2 and HTTP/3 clients

`convert_response` decides how the body is framed (`convertResponse_head`).
-/

namespace TrustTunnel.HttpForwardedStream

open Io Http ForwardedStreamSink List Lib.Http1 Chunk
open Pipe (Drives Ends ends_sent ends_unready)
open Conversion
open Lib.Http1 (utf8 crlf)
open Lib.Keyed (keyed_eq_nil)
open Lib.Segments

/-! ## The framing of the body -/

lemma convertResponse_head
    (hversion : version = .http2 ∨ version = .http3) (h : Head P) (method : Method) :
    ∃ r : ResponseHeaders, r.status = h.response.code ∧
      convertResponse method version h.response = .ok (r,
        if isBodiless method h.response.code then some (.determined 0)
        else if recognises hopHeaders h.response.headers then some .chunked else none) := by
  have hn : foundLength none (kept hopHeaders h.response.headers) = .ok none :=
    foundLength_of_nil (keyed_eq_nil fun x hx => h.no_length x (mem_kept hx).1) none
  rw [convertResponse_eq method (fun _ _ _ => hversion) h.status_valid h.headers_valid, hn]
  exact ⟨_, rfl, rfl⟩

/-! ## The head -/

section

variable {P : Httparse}

section

variable {bytes : Bytes} {response : ParsedResponse} (h : Reads P bytes response)

include h

lemma parseWithin_complete (hle : response.headers.length ≤ 128) (rest : Bytes) :
    parseWithin P (bytes ++ rest) headersBufferSizes = .complete bytes.length response := by
  have ht : ∀ size sizes, (size < response.headers.length →
      parseWithin P (bytes ++ rest) sizes = .complete bytes.length response) →
      parseWithin P (bytes ++ rest) (size :: sizes) = .complete bytes.length response := by
    intro size sizes hn
    by_cases hs : response.headers.length ≤ size
    · simp [parseWithin, h.complete size rest hs]
    · have hs' := Nat.lt_of_not_le hs
      simp [parseWithin, h.tooMany size rest hs', hn hs']
  -- in the last try there is room for all headers
  refine ht 32 _ fun _ => ht 64 _ fun _ => ht 128 _ fun h' => ?_
  omega

lemma parseWithin_needMore (hle : response.headers.length ≤ 128) (hp : p <+: bytes)
    (hl : p.length < bytes.length) : parseWithin P p headersBufferSizes = .needMore := by
  have ht : ∀ size sizes, (size < response.headers.length →
      parseWithin P p sizes = .needMore) → parseWithin P p (size :: sizes) = .needMore := by
    intro size sizes hn
    rcases h.needMore size p hp hl with hmo | ⟨hs, hm⟩
    · simp [parseWithin, hmo]
    · simp [parseWithin, hm, hn hs]
  refine ht 32 _ fun _ => ht 64 _ fun _ => ht 128 _ fun h' => ?_
  omega

end

def ClientStream.respond (c : ClientStream) (r : ResponseHeaders) : ClientStream :=
  { c with responses := c.responses ++ [r] }

lemma isBodiless_eq_false (hmethod : method ≠ .head)
    (hcode : 200 ≤ code ∧ code ≠ 204 ∧ code ≠ 304) : isBodiless method code = false := by
  have : ¬ code < 200 := by omega
  simp [isBodiless, hmethod, hcode, this]

def transferring : Option BodyLength → SinkState
  | some .chunked => .waitingChunkPrefix []
  | some (.determined n) => .transferringBodyNonEncoded (some n) 0
  | none => .transferringBodyNonEncoded none 0

lemma awaits_converted (h : Reads P bytes response) (hle : response.headers.length ≤ 128)
    (hc : convertResponse method version response = .ok (r, bodyLength))
    (hstat : 200 ≤ r.status) (client : ClientStream) :
    Awaits P bytes (fun buffer => .waitingResponse buffer method version) (transferring bodyLength)
      client (client.respond r) false := by
  have hfinal : ¬ (100 ≤ r.status ∧ r.status < 200) := by omega
  refine ⟨fun fake buffer more hp hl => ?_, fun fake buffer more rest hm _ _ => ?_,
    fun _ fake => ?_⟩
  · simp [sinkCalls, calls, write, onResponseHeadersChunk, parseWithin_needMore h hle hp hl]
  · refine ⟨!rest.isEmpty, ?_⟩
    simp only [sinkCalls, calls, write, onResponseHeadersChunk, hm, parseWithin_complete h hle, hc,
      hfinal, if_false, drop_left, ClientStream.calls, ClientStream.respond]
    rfl
  · rcases bodyLength with _ | _ | _ <;> cases fake <;> exact ⟨false, rfl⟩

section

variable {version : Version} (hversion : version = .http2 ∨ version = .http3)
  (h : Head P) (method : Method) (client : ClientStream)

lemma write_part_of_head (hp : (buffer ++ bytes) <+: h.bytes)
    (hl : (buffer ++ bytes).length < h.bytes.length) (fake : Bool) :
    (sinkCalls P).write ⟨.waitingResponse buffer method version, fake, client⟩ bytes () =
      (⟨.waitingResponse (buffer ++ bytes) method version, fake, client⟩, .ok []) := by
  simp [sinkCalls, calls, write, onResponseHeadersChunk,
    parseWithin_needMore h.reads h.headers_le hp hl]

include hversion

lemma write_intermediate (hs : h.response.code < 200)
    (hb : buffer ++ bytes = h.bytes ++ rest) (fake : Bool) :
    ∃ r, (sinkCalls P).write ⟨.waitingResponse buffer method version, fake, client⟩ bytes () =
      (⟨.waitingResponse [] method version, fake, client.respond r⟩, .ok rest) := by
  obtain ⟨r, hr, hc⟩ := convertResponse_head hversion h method
  have hi : 100 ≤ r.status ∧ r.status < 200 := by
    rw [hr]
    exact ⟨h.status_valid.1, hs⟩
  refine ⟨r, ?_⟩
  simp [sinkCalls, calls, write, onResponseHeadersChunk, hb,
    parseWithin_complete h.reads h.headers_le, hc, hi, ClientStream.calls,
    ClientStream.respond]

lemma awaits_head (hmethod : method ≠ .head) (hs : 200 ≤ h.response.code ∧
      h.response.code ≠ 204 ∧ h.response.code ≠ 304) :
    ∃ r, Awaits P h.bytes (fun buffer => .waitingResponse buffer method version)
      (if recognises hopHeaders h.response.headers then .waitingChunkPrefix []
        else .transferringBodyNonEncoded none 0) client (client.respond r) false := by
  obtain ⟨r, hr, hc⟩ := convertResponse_head hversion h method
  have hb : isBodiless method h.response.code = false :=
    isBodiless_eq_false hmethod hs
  rw [hb] at hc
  have ha := awaits_converted h.reads h.headers_le hc (hr ▸ hs.1) client
  refine ⟨r, ?_⟩
  cases hre : recognises hopHeaders h.response.headers with
  | true | false => simpa [hre, transferring] using ha

/-- By induction on the segments of the head; `F` is about the rest of the response. -/
lemma ends_intermediate (hs : h.response.code < 200)
    {Q : ForwardedStreamSink ClientStream → Except IoError Unit → Prop} {F : Prop → Prop} {A : Prop}
    {items : List (Item UInt8)} {segments left : List Bytes} {buffer bytes : Bytes}
    (hco : Consumes h.bytes ((buffer ++ bytes) :: segments) left)
    (hi : ∀ r e, Q ⟨.waitingResponse [] method version, false, client.respond r⟩ (.error e) ↔
      F False)
    (hn : ∀ r, Ends (sinkCalls P) Q ⟨.waitingResponse [] method version, false, client.respond r⟩
      left ↔ F (A ∧ Respects left items)) :
    Ends (sinkCalls P) Q ⟨.waitingResponse buffer method version, false,
      client⟩ (bytes :: segments) ↔
      F (A ∧ Respects ((buffer ++ bytes) :: segments) (h.item .closing :: items)) := by
  generalize hw : (buffer ++ bytes) :: segments = w at hco
  induction hco generalizing buffer bytes segments with
  | all =>
    simp only [cons.injEq] at hw
    obtain ⟨hb, rfl⟩ := hw
    have hb' : buffer ++ bytes = h.bytes ++ [] := by rw [hb, append_nil]
    obtain ⟨r, hwr⟩ := write_intermediate hversion h method client hs hb' false
    have hc : Respects (h.bytes :: segments) (h.item .closing :: items) ↔
      Respects segments items := respects_closing (h.item .closing) rfl segments items
    rw [ends_sent hwr, hn r, hc]
  | @rest t ht segments' =>
    simp only [cons.injEq] at hw
    obtain ⟨hb, rfl⟩ := hw
    obtain ⟨r, hwr⟩ := write_intermediate hversion h method client hs hb false
    have hcu : ¬ Respects ((h.bytes ++ t) :: segments) (h.item .closing :: items) :=
      not_respects_closing (h.item .closing) rfl ht segments items
    rw [ends_unready hwr ht rfl, hi r]
    simp [hcu]
  | @more v s segments' left' hv hr ih =>
    simp only [cons.injEq] at hw
    obtain ⟨rfl, rfl⟩ := hw
    have hp := (Consumes.more hv hr).prefix_of_length (Nat.le_of_lt hv)
    rw [ends_sent (write_part_of_head h method client hp hv false), ih hn rfl,
      respects_merge (by simp [Head.item]) hv]

end

/-! ## A body that is not recognised -/

lemma write_unrecognised (sentBytes : Nat) (fake : Bool) (client : ClientStream) (data : Bytes) :
    ∃ sentBytes' client' rest,
      (sinkCalls P).write ⟨.transferringBodyNonEncoded none sentBytes, fake, client⟩ data () =
        (⟨.transferringBodyNonEncoded none sentBytes', fake, client'⟩, .ok rest) ∧
      client'.delivered ++ rest = client.delivered ++ data := by
  by_cases hl : data.length = 0
  · refine ⟨sentBytes, client, data, ?_, rfl⟩
    simp [sinkCalls, calls, write, onNonEncodedChunk, hl]
  · have hr : data.drop (data.length - (data.length - client.schedule client.writes)) =
        data.drop (client.schedule client.writes) := by
      by_cases ha : data.length ≤ client.schedule client.writes
      · rw [drop_of_length_le ha, drop_of_length_le (by omega)]
      · congr 1
        omega
    refine ⟨sentBytes + (data.length - (data.length - client.schedule client.writes)),
      client.accept (data.take (client.schedule client.writes)),
      data.drop (client.schedule client.writes), ?_, ?_⟩
    · simp [sinkCalls, calls, write, onNonEncodedChunk, hl, ClientStream.calls, hr,
        ClientStream.accept]
    · simp [ClientStream.accept]

lemma delivered_of_drives_unrecognised (h : Drives (sinkCalls P) f segments f')
    (hs : f.state = .transferringBodyNonEncoded none sentBytes) :
    f'.client.delivered = f.client.delivered ++ segments.flatten := by
  induction h generalizing sentBytes with
  | @eof f f' he =>
    obtain ⟨state, fake, client⟩ := f
    subst hs
    cases he
    simp
  | @sent f f1 f' bytes segments hw _ ih =>
    obtain ⟨state, fake, client⟩ := f
    subst hs
    obtain ⟨sentBytes', client', rest, hw', hr⟩ :=
      write_unrecognised (P := P) sentBytes fake client bytes
    rw [hw] at hw'
    cases hw'
    rw [ih rfl, flatten_cons, ← append_assoc, ← hr, append_nil]
  | @unsent f f1 f2 f' bytes unsent segments hw _ hwa _ ih =>
    obtain ⟨state, fake, client⟩ := f
    subst hs
    obtain ⟨sentBytes', client', rest, hw', hr⟩ :=
      write_unrecognised (P := P) sentBytes fake client bytes
    rw [hw] at hw'
    cases hw'
    have hf2 : f2 = ⟨.transferringBodyNonEncoded none sentBytes', false, client'⟩ := by
      cases fake <;> cases hwa <;> rfl
    subst hf2
    rw [ih rfl, flatten_cons, flatten_cons, ← append_assoc, ← append_assoc, hr]

lemma length_body_lt (chunks : List (Chunk P)) (last : SizeLine P) :
    (chunks.flatMap data).length < ((bodyItems chunks last).flatMap Item.elems).length := by
  induction chunks with
  | nil =>
    have hlast := length_pos_iff.mpr last.ne_nil
    simp only [bodyItems, SizeLine.item, flatMap_nil, nil_append, flatMap_cons,
      length_append, length_nil]
    omega
  | cons =>
    simp only [bodyItems_cons, items, flatMap_append, flatMap_cons, length_append]
    omega

/-! ## The whole response -/

section

variable {version : Version} (hversion : version = .http2 ∨ version = .http3) {method : Method}
  (hmethod : method ≠ .head) {final : Head P}
  (hfinal : 200 ≤ final.response.code ∧ final.response.code ≠ 204 ∧ final.response.code ≠ 304)
  {chunks : List (Chunk P)} {last : SizeLine P} (hlast : last.size = 0)

include hversion hmethod hfinal hlast

section

variable {client : ClientStream} {segments : List Bytes}

lemma delivers_final (hc : RefusesClearly client.schedule client.writes chunks)
    (hde : client.delivered = []) (he : client.eofs = 0) (hne : ∀ s ∈ segments, s ≠ [])
    (hf : segments.flatten = (final.item .free :: bodyItems chunks last).flatMap Item.elems) :
    Delivers P ⟨.waitingResponse [] method version, false, client⟩ segments (chunks.flatMap data) ↔
      (recognises hopHeaders final.response.headers ∧
        Accepts client.schedule client.writes chunks) ∧
      Respects segments (final.item .free :: bodyItems chunks last) := by
  obtain ⟨r, ha⟩ := awaits_head hversion final method client hmethod hfinal
  refine Awaits.delivers_iff_respects (final.item .free) rfl
    ((bodyItems chunks last).flatMap Item.elems) ha hne hf (by simp)
    (fun left hleft_ne hl fake => ?_) false
  cases hrecog : recognises hopHeaders final.response.headers with
  | true =>
    have hb : (client.respond r).delivered ++ chunks.flatMap data = chunks.flatMap data := by
      simp [ClientStream.respond, hde]
    have hc' : RefusesClearly (client.respond r).schedule (client.respond r).writes chunks :=
      hc
    rw [and_iff_right rfl]
    exact delivers_body hlast hc' hb he hleft_ne hl fake
  | false =>
    -- the framing comes out with the body, which is then too long
    refine iff_of_false ?_ (by simp)
    rintro ⟨f', hd, hb, -⟩
    have hr := delivered_of_drives_unrecognised hd rfl
    have hle := length_body_lt chunks last
    rw [← hl, ← hb, hr, length_append] at hle
    omega

/-- By induction on the intermediate responses. -/
lemma delivers_heads {intermediates : List (Head P)}
    (hi : ∀ h ∈ intermediates, h.response.code < 200)
    (hc : RefusesClearly client.schedule client.writes chunks)
    (hd : client.delivered = []) (he : client.eofs = 0) (hne : ∀ s ∈ segments, s ≠ [])
    (hf : segments.flatten = (intermediates.map (Head.item · .closing) ++ final.item .free ::
        bodyItems chunks last).flatMap Item.elems) :
    Delivers P ⟨.waitingResponse [] method version, false, client⟩ segments (chunks.flatMap data) ↔
      (recognises hopHeaders final.response.headers ∧
        Accepts client.schedule client.writes chunks) ∧
      Respects segments (intermediates.map (Head.item · .closing) ++ final.item .free ::
        bodyItems chunks last) := by
  induction intermediates generalizing client segments with
  | nil => exact delivers_final hversion hmethod hfinal hlast hc hd he hne hf
  | cons h intermediates ih =>
    rw [map_cons, cons_append, flatMap_cons] at hf
    obtain ⟨bytes, segments, left, rfl, hco, hl, hleft_ne⟩ :=
      exists_consumes h.ne_nil hne hf
    rw [← nil_append bytes] at hco
    rw [delivers_iff_ends]
    refine ends_intermediate hversion h method client (hi h mem_cons_self)
      (F := id) hco (fun _ _ => iff_of_false (fun her => by cases her.1) id) fun r => ?_
    rw [← delivers_iff_ends]
    have hc' : RefusesClearly (client.respond r).schedule (client.respond r).writes chunks :=
      hc
    exact ih (fun x hx => hi x (mem_cons_of_mem _ hx)) hc' hd he hleft_ne hl

end

end

lemma Accepts.refusesClearly
    (h : Accepts schedule n chunks) : RefusesClearly schedule n chunks := by
  induction chunks generalizing n with
  | nil => trivial
  | cons c chunks ih => exact ⟨fun hlt => absurd h.1 (Nat.not_le_of_lt hlt), fun _ => ih h.2⟩

/-- The coding is recognised, each chunk accepted in one write and not cut, and every
intermediate head ends a segment. -/
structure Deliverable (o : Origin P) (schedule : Nat → Nat) (segments : List Bytes) : Prop where
  recognised : recognises hopHeaders o.final.response.headers = true
  accepted : Accepts schedule 0 o.chunks
  respected : Respects segments o.items

/-- **What is delivered.** The body and one end if the response is deliverable; else not, unless
refused bytes look like a line end. -/
theorem delivers_iff (o : Origin P) {method : Method} (hmethod : method ≠ .head)
    {version : Version} (hversion : version = .http2 ∨ version = .http3) (schedule : Nat → Nat)
    {segments : List Bytes} (hne : ∀ s ∈ segments, s ≠ [])
      (hsegments : segments.flatten = o.bytes) :
    (Deliverable o schedule segments →
      Delivers P (.intoForwarded method version (.new schedule)) segments o.body) ∧
    (RefusesClearly schedule 0 o.chunks →
      Delivers P (.intoForwarded method version (.new schedule)) segments o.body →
        Deliverable o schedule segments) := by
  let client := ClientStream.new schedule
  have hi := fun hc : RefusesClearly client.schedule client.writes o.chunks =>
    delivers_heads hversion hmethod o.final_status o.last_size o.intermediate_status hc rfl rfl
      hne hsegments
  constructor
  · rintro ⟨hre, ha, hr⟩
    exact (hi ha.refusesClearly).mpr ⟨⟨hre, ha⟩, hr⟩
  · intro hc hd
    obtain ⟨⟨hre, ha⟩, hr⟩ := (hi hc).mp hd
    exact ⟨hre, ha, hr⟩

end

/-! ## A response -/

/-- The loop of `parse_chunk_size`. -/
def scanChunkSize (inSize inExt : Bool) (count size pos : Nat) : Bytes → ChunkSizeStatus
  | [] => .needMore
  | b :: rest =>
    match hexDigit b with
    | some d =>
      if inSize then
        if count > 15 then .invalid
        else scanChunkSize true inExt (count + 1) (size * 16 + d) (pos + 1) rest
      else if inExt then scanChunkSize inSize inExt count size (pos + 1) rest
      else .invalid
    | none =>
      if b = 13 then
        match rest with
        | [] => .needMore
        | c :: _ => if c = 10 then .complete (pos + 2) size else .invalid
      else if b = 59 then scanChunkSize false true count size (pos + 1) rest
      else if inExt ∨ isOws b then scanChunkSize false inExt count size (pos + 1) rest
      else .invalid

def scanHeader (line : Bytes) : Option ParsedHeader :=
  let name := line.takeWhile (fun b => b != 58)
  (parseField line).map fun field =>
    ⟨String.ofList (name.map fun b => Char.ofNat b.toNat), field.value⟩

def scanCode (line : Bytes) : Nat := decimal ((line.drop 9).take 3)

/-- `Response::parse`, for lines that end with CR and LF. -/
def scanResponse (room : Nat) (data : Bytes) : ResponseStatus :=
  match takeLines (data.length + 1) data with
  | none => .needMore
  | some (lines, rest) =>
    match lines.tail.mapM scanHeader with
    | none => .invalid "invalid header name"
    | some headers =>
      if headers.length ≤ room then
        .complete (data.length - rest.length) ⟨scanCode (lines.headD []), headers⟩
      else .tooManyHeaders

def scanner : Httparse := ⟨scanResponse, scanChunkSize true false 0 0 0⟩

def headBytes (lines : List Bytes) : Bytes := lines.flatMap (fun l => l ++ crlf) ++ crlf

lemma scanResponse_headBytes {lines : List Bytes} (hl : ∀ l ∈ lines, l ≠ [] ∧ 13 ∉ l)
    {headers : List ParsedHeader} (hh : lines.tail.mapM scanHeader = some headers)
    (room : Nat) (rest : Bytes) :
    scanResponse room (headBytes lines ++ rest) = if headers.length ≤ room then
        .complete (headBytes lines).length ⟨scanCode (lines.headD []), headers⟩
      else .tooManyHeaders := by
  have hf : lines.length < (headBytes lines ++ rest).length + 1 := by
    have hl : lines.length ≤ (headBytes lines).length := by
      rw [headBytes, length_append]
      exact Nat.le_add_right_of_le (length_le_lines lines)
    rw [length_append]
    omega
  have ht : takeLines ((headBytes lines ++ rest).length + 1) (headBytes lines ++ rest)
      = some (lines, rest) := takeLines_append hl rest hf
  have hle : (headBytes lines ++ rest).length - rest.length = (headBytes lines).length := by
    rw [length_append, Nat.add_sub_cancel]
  simp only [scanResponse, ht, hh, hle]

lemma forall_prefix {b : Bytes} {Q : Bytes → Prop}
    (h : ∀ p ∈ b.inits, p.length < b.length → Q p) (p : Bytes) (hp : p <+: b)
    (hl : p.length < b.length) : Q p :=
  h p ((mem_inits p b).mpr hp) hl

section

variable (lines : List Bytes) (headers : List ParsedHeader)

lemma reads_scanner (hl : ∀ l ∈ lines, l ≠ [] ∧ 13 ∉ l)
    (hh : lines.tail.mapM scanHeader = some headers)
    (hm : ∀ p ∈ (headBytes lines).inits, p.length < (headBytes lines).length →
      takeLines (p.length + 1) p = none) :
    Reads scanner (headBytes lines) ⟨scanCode (lines.headD []), headers⟩ where
  complete room rest hr := by
    simp [scanner, scanResponse_headBytes hl hh, if_pos hr]
  tooMany room rest hr := by
    simp [scanner, scanResponse_headBytes hl hh, if_neg (Nat.not_le_of_lt hr)]
  needMore room p hp hp' := by
    left
    simp [scanner, scanResponse, forall_prefix hm p hp hp']

def headOf (hlines : ∀ l ∈ lines, l ≠ [] ∧ 13 ∉ l)
    (hheaders : lines.tail.mapM scanHeader = some headers)
    (hmore : ∀ p ∈ (headBytes lines).inits, p.length < (headBytes lines).length →
      takeLines (p.length + 1) p = none)
    (hcode : 100 ≤ scanCode (lines.headD []) ∧ scanCode (lines.headD []) ≤ 999)
    (hlen : headers.length ≤ 128)
    (hvalid : ∀ h ∈ headers, (isToken (Text.trimEnd h.name) = true ∧ isHeaderValue h.value = true) ∧
      Text.toAsciiLowercase h.name ≠ "content-length") : Head scanner where
  bytes := headBytes lines
  response := ⟨scanCode (lines.headD []), headers⟩
  ne_nil := by simp [headBytes, crlf]
  reads := reads_scanner lines headers hlines hheaders hmore
  headers_le := hlen
  status_valid := hcode
  headers_valid h hh := (hvalid h hh).1
  no_length h hh := (hvalid h hh).2

end

def sizeLineOf (text : String) (size : Nat) (h : chunkSize (utf8 text) = some size)
    (hcr : 13 ∉ utf8 text)
    (hcompl : ∀ rest, scanner.parseChunkSize (utf8 text ++ crlf ++ rest) =
      .complete (utf8 text ++ crlf).length size)
    (hmore : ∀ p ∈ (utf8 text ++ crlf).inits, p.length < (utf8 text ++ crlf).length →
      scanner.parseChunkSize p = .needMore) : SizeLine scanner :=
  ⟨utf8 text, size, hcr, h, hcompl, forall_prefix hmore⟩

/-- `100 Continue`. -/
def continueHead : Head scanner :=
  headOf [utf8 "HTTP/1.1 100 Continue"] [] (by decide +kernel) (by decide +kernel)
    (by decide +kernel) (by decide +kernel) (by decide +kernel) (by decide +kernel)

def chunkedHead : Head scanner :=
  headOf [utf8 "HTTP/1.1 200 OK", utf8 "Transfer-Encoding: chunked"]
    [⟨"Transfer-Encoding", utf8 "chunked"⟩] (by decide +kernel) (by decide +kernel)
    (by decide +kernel) (by decide +kernel) (by decide +kernel) (by decide +kernel)

def hiChunk : Chunk scanner where
  line := sizeLineOf "2" 2 (by decide +kernel) (by decide +kernel) (fun _ => rfl)
    (by decide +kernel)
  data := utf8 "hi"
  data_ne_nil := by decide +kernel
  size_eq := by decide +kernel

/-- `hi` in one chunk, after an intermediate response. -/
def hiOrigin : Origin scanner where
  intermediates := [continueHead]
  intermediate_status := by decide +kernel
  final := chunkedHead
  final_status := by decide +kernel
  chunked := by decide +kernel
  chunks := [hiChunk]
  last := sizeLineOf "0" 0 (by decide +kernel) (by decide +kernel) (fun _ => rfl)
    (by decide +kernel)
  last_size := rfl

def hiSegments : List Bytes :=
  [utf8 "HTTP/1.1 100 Continue\r\n\r\n", utf8 "HTTP/1.1 200 OK\r\nTransfer-Enc",
    utf8 "oding: chunked\r\n\r\n2", utf8 "\r\nhi\r", utf8 "\n0\r\n\r", utf8 "\n"]

theorem hiSegments_delivered : Deliverable hiOrigin (fun _ => 16384) hiSegments ∧
      Delivers scanner (.intoForwarded .get .http2 (.new fun _ => 16384)) hiSegments
        (utf8 "hi") := by
  have hd : Deliverable hiOrigin (fun _ => 16384) hiSegments :=
    ⟨by decide +kernel, ⟨by decide +kernel, trivial⟩, by decide +kernel⟩
  exact ⟨hd, (delivers_iff hiOrigin (by decide) (.inl rfl) _ (by decide +kernel)
    (by decide +kernel)).1 hd⟩

def cutSegments : List Bytes :=
  [utf8 "HTTP/1.1 100 Continue\r\n\r\n",
    utf8 "HTTP/1.1 200 OK\r\nTransfer-Encoding: chunked\r\n\r\n2\r\nh",
    utf8 "i\r\n0\r\n\r\n"]

theorem cutSegments_not_delivered : cutSegments.flatten = hiOrigin.bytes ∧
      ¬ Delivers scanner (.intoForwarded .get .http2 (.new fun _ => 16384)) cutSegments
        hiOrigin.body := by
  have ha : Accepts (fun _ => 16384) 0 hiOrigin.chunks := ⟨by decide +kernel, trivial⟩
  have hs : cutSegments.flatten = hiOrigin.bytes := by decide +kernel
  refine ⟨hs, fun hd => ?_⟩
  have hc := (delivers_heads (.inl rfl) (by decide) hiOrigin.final_status
    hiOrigin.last_size hiOrigin.intermediate_status ha.refusesClearly rfl rfl
    (by decide +kernel) hs).mp hd
  exact absurd hc.2 (by decide +kernel)

lemma delivers_of_drive (fuel : Nat) (h : (Pipe.drive (sinkCalls P) fuel f segments).map
      (fun f' => (f'.client.delivered, f'.client.eofs)) = some (body, 1)) :
    Delivers P f segments body := by
  obtain ⟨f', hd, hf'⟩ := Option.map_eq_some_iff.mp h
  simp only [Prod.mk.injEq] at hf'
  exact ⟨f', Pipe.drives_of_drive hd, hf'⟩

end TrustTunnel.HttpForwardedStream
