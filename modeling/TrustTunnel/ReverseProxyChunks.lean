import TrustTunnel.ChunkSizes
import TrustTunnel.Lib.Segments

/-!
# Chunked bodies through the reverse proxy

The decoder reads from a buffer, so cuts do not matter; only what follows the last size line is
looked at once.
-/

namespace TrustTunnel.ReverseProxy

open Io Http Lib Buffered List Stage Lib.Http1 Option
open Lib.Http1 (crlf)
open Lib.Segments (Boundary)
open HttpForwardedStream (ResponseHeaders Httparse)

/-! ## The steps of the decoder -/

lemma incremental_step {σ : Type} (C : ClientCalls σ) :
    Buffered.Incremental (Decoder.step C) where
  shorter {d d' buffer buffer'} h := by
    obtain ⟨stage, body, response, client⟩ := d
    cases stage with
    | line =>
      obtain ⟨⟨line, rest⟩, hl, hx⟩ := map_eq_some_iff.mp h
      cases hx
      have := takeLine_length hl
      show rest.length < buffer.length
      omega
    | data =>
      simp only [Decoder.step] at h
      split at h
      · cases h
      · cases h
        rw [length_drop]
        omega
    | last | failed => cases h
  stable {d d' buffer buffer'} h more := by
    obtain ⟨stage, body, response, client⟩ := d
    cases stage with
    | line =>
      obtain ⟨⟨line, rest⟩, hl, hx⟩ := map_eq_some_iff.mp h
      cases hx
      simp [Decoder.step, takeLine_more hl more]
    | data n =>
      simp only [Decoder.step] at h ⊢
      obtain ⟨hlen, ⟨⟩⟩ := ite_none_left_eq_some.mp h
      have hle : n + 2 ≤ buffer.length := Nat.le_of_not_lt hlen
      have hm : ¬ (buffer ++ more).length < n + 2 := by
        rw [length_append]
        omega
      rw [if_neg hm, take_append_of_le_length (Nat.le_of_add_right_le hle),
        drop_append_of_le_length hle]
    | last | failed => cases h

def SizeLine.Readable (l : SizeLine) : Prop :=
  (HttpForwardedStream.Text.fromUtf8 l.line).isSome = true ∧ l.size + 2 < 2 ^ 64

instance (l : SizeLine) : Decidable l.Readable := inferInstanceAs (Decidable (_ ∧ _))

lemma SizeLine.ofLine_eq {l : SizeLine} (h : l.Readable) :
    ofLine l.line = if l.size = 0 then .last else .data l.size := by
  have hd : l.Decodable := ⟨h.1, by have := h.2; omega⟩
  simp only [ofLine, chunkSize_sizeLine, if_pos hd, if_pos h.2]

lemma SizeLine.ofLine_failed {l : SizeLine} (h : ¬ l.Readable) :
    ∃ e, ofLine l.line = .failed e := by
  by_cases hd : l.Decodable
  · have hsize : ¬ l.size + 2 < 2 ^ 64 := fun hlt => h ⟨hd.1, hlt⟩
    have hne : l.size ≠ 0 := by
      intro hz
      rw [hz] at hsize
      exact hsize (by decide)
    refine ⟨panicked, ?_⟩
    simp only [ofLine, chunkSize_sizeLine, if_pos hd, if_neg hsize, if_neg hne]
  · refine ⟨.ofKind .invalidData, ?_⟩
    simp only [ofLine, chunkSize_sizeLine, if_neg hd]

/-! ## The client -/

structure Recorder where
  responses : List (ResponseHeaders × Bool)
  delivered : Bytes
  eofs : Nat
  deriving DecidableEq

def Recorder.new : Recorder := ⟨[], [], 0⟩

def Recorder.calls : ClientCalls Recorder where
  sendResponse c response eof := ({ c with responses := c.responses ++ [(response, eof)] }, .ok ())
  writeAll c data := ({ c with delivered := c.delivered ++ data }, .ok ())
  eof c := ({ c with eofs := c.eofs + 1 }, .ok ())

def Recorder.given (response : ResponseHeaders) (body : Bytes) : Recorder :=
  ⟨[(response, false)], body, 0⟩

def Decoder.holding (response : ResponseHeaders) (stage : Stage) (body : Bytes) : Decoder Recorder :=
  if body.length ≤ h3BufferedBodyLimit then ⟨stage, body, some response, .new⟩
  else ⟨stage, [], none, .given response body⟩

section

variable {response : ResponseHeaders}

lemma stage_holding (stage : Stage) (body : Bytes) :
    (Decoder.holding response stage body).stage = stage := by
  unfold Decoder.holding
  split <;> rfl

lemma holding_withStage (stage stage' : Stage) (body : Bytes) :
    { Decoder.holding response stage body with stage := stage' } =
      Decoder.holding response stage' body := by
  unfold Decoder.holding
  split <;> rfl

lemma onData_holding (stage : Stage) (body data : Bytes) :
    (Decoder.holding response stage body).onData Recorder.calls data =
      Decoder.holding response .line (body ++ data) := by
  unfold Decoder.holding
  by_cases hb : body.length ≤ h3BufferedBodyLimit
  · by_cases hm : (body ++ data).length ≤ h3BufferedBodyLimit
    · simp only [if_pos hb, if_pos hm, Decoder.onData, gt_iff_lt, Nat.not_lt.mpr hm, if_false]
    · simp only [if_pos hb, if_neg hm, Decoder.onData, gt_iff_lt, Nat.lt_of_not_le hm, if_true]
      rfl
  · have hm : ¬ (body ++ data).length ≤ h3BufferedBodyLimit := by
      rw [length_append]
      omega
    simp only [if_neg hb, if_neg hm]
    rfl

end

/-! ## Chunks -/

structure Chunk where
  line : SizeLine
  data : Bytes
  data_ne_nil : data ≠ []
  size_eq : line.size = data.length

def SizeLine.bytes (l : SizeLine) : Bytes := l.line ++ crlf

def Chunk.bytes (c : Chunk) : Bytes := c.line.bytes ++ (c.data ++ crlf)

section

variable {response : ResponseHeaders}

lemma read_takeLine {buffer line rest : Bytes} (h : takeLine buffer = some (line, rest))
    (body : Bytes) : read (Decoder.step Recorder.calls) (.holding response .line body) buffer =
      read (Decoder.step Recorder.calls) (.holding response (ofLine line) body) rest := by
  apply read_of_step (incremental_step _)
  simp [Decoder.step, stage_holding, h, holding_withStage]

lemma read_take (h : n + 2 ≤ buffer.length) (body : Bytes) :
    read (Decoder.step Recorder.calls) (.holding response (.data n) body) buffer =
      read (Decoder.step Recorder.calls) (.holding response .line (body ++ buffer.take n))
        (buffer.drop (n + 2)) := by
  apply read_of_step (incremental_step _)
  simp [Decoder.step, stage_holding, if_neg (Nat.not_lt.mpr h), onData_holding]

lemma read_line (l : SizeLine) (body rest : Bytes) :
    read (Decoder.step Recorder.calls) (.holding response .line body) (l.bytes ++ rest) =
      read (Decoder.step Recorder.calls) (.holding response (ofLine l.line) body) rest :=
  read_takeLine (takeLine_append l.no_cr rest) body

lemma read_data (data body rest : Bytes) :
    read (Decoder.step Recorder.calls) (.holding response (.data data.length) body)
        (data ++ crlf ++ rest) =
      read (Decoder.step Recorder.calls) (.holding response .line (body ++ data)) rest := by
  have hl : data.length + 2 ≤ (data ++ crlf ++ rest).length := by
    simp [crlf]
  have hd : (data ++ crlf ++ rest).drop (data.length + 2) = rest :=
    drop_left' (by simp [crlf])
  have ht : (data ++ crlf ++ rest).take data.length = data := by
    rw [append_assoc, take_left]
  rw [read_take hl, ht, hd]

lemma read_chunk {c : Chunk} (h : c.line.Readable) (body rest : Bytes) :
    read (Decoder.step Recorder.calls) (.holding response .line body) (c.bytes ++ rest) =
      read (Decoder.step Recorder.calls) (.holding response .line (body ++ c.data)) rest := by
  have hne : c.line.size ≠ 0 := by
    rw [c.size_eq]
    exact Nat.ne_of_gt (length_pos_iff.mpr c.data_ne_nil)
  rw [Chunk.bytes, append_assoc, read_line, SizeLine.ofLine_eq h, if_neg hne, c.size_eq, read_data]

/-- By induction on the chunks. -/
lemma read_chunks {chunks : List Chunk} (h : ∀ c ∈ chunks, c.line.Readable) (body rest : Bytes) :
    read (Decoder.step Recorder.calls) (.holding response .line body)
        (chunks.flatMap Chunk.bytes ++ rest) = read (Decoder.step Recorder.calls)
        (.holding response .line (body ++ chunks.flatMap Chunk.data)) rest := by
  induction chunks generalizing body with
  | nil => simp
  | cons c chunks ih =>
    have hc := h c mem_cons_self
    have ht := fun x hx => h x (mem_cons_of_mem c hx)
    rw [flatMap_cons, append_assoc, read_chunk hc, ih ht, flatMap_cons, append_assoc]

lemma read_failed (response : ResponseHeaders) {l : SizeLine} (h : ¬ l.Readable)
    (body rest : Bytes) : ∃ e, read (Decoder.step Recorder.calls) (.holding response .line body)
      (l.bytes ++ rest) = (.holding response (.failed e) body, rest) := by
  obtain ⟨e, he⟩ := SizeLine.ofLine_failed h
  refine ⟨e, ?_⟩
  rw [read_line, he, read_of_none (by simp only [Decoder.step, stage_holding])]

lemma read_last {l : SizeLine} (h : l.Readable) (hsize : l.size = 0) (body rest : Bytes) :
    read (Decoder.step Recorder.calls) (.holding response .line body) (l.bytes ++ rest) =
      (.holding response .last body, rest) := by
  rw [read_line, SizeLine.ofLine_eq h, if_pos hsize,
    read_of_none (by simp only [Decoder.step, stage_holding])]

/-- By induction on the chunks, to the first bad line. -/
lemma read_chunks_failed (response : ResponseHeaders) {chunks : List Chunk} {last : SizeLine}
    (h : ¬ ((∀ c ∈ chunks, c.line.Readable) ∧ last.Readable)) (body rest : Bytes) :
    ∃ e, (read (Decoder.step Recorder.calls) (.holding response .line body)
      (chunks.flatMap Chunk.bytes ++ (last.bytes ++ rest))).1.stage = .failed e := by
  induction chunks generalizing body with
  | nil =>
    obtain ⟨e, he⟩ := read_failed response (fun hl : last.Readable => h ⟨by simp, hl⟩) body rest
    exact ⟨e, by rw [flatMap_nil, nil_append, he, stage_holding]⟩
  | cons c chunks ih =>
    rw [flatMap_cons, append_assoc]
    by_cases hc : c.line.Readable
    · rw [read_chunk hc]
      refine ih (fun hr => h ⟨?_, hr.2⟩) (body ++ c.data)
      intro x hx
      rcases mem_cons.mp hx with rfl | hx
      · exact hc
      · exact hr.1 x hx
    · rw [Chunk.bytes, append_assoc]
      obtain ⟨e, he⟩ := read_failed response hc body
        (c.data ++ crlf ++ (chunks.flatMap Chunk.bytes ++ (last.bytes ++ rest)))
      exact ⟨e, by rw [he, stage_holding]⟩

end

/-! ## Receiving segments -/

section

variable {σ : Type} (C : ClientCalls σ) (P : Httparse) (protocol : Protocol) (version : Version)

/-- The segments, until the future has returned. -/
def Stream.receive (s : Stream σ) : List Bytes → Stream σ
  | [] => s
  | segment :: segments =>
    match s.onUpstreamChunk C P protocol version segment with
    | none => s
    | some s' => receive s' segments

lemma receive_returned {s : Stream σ} {result : Except IoError Unit}
    (h : s.phase = .returned result) (segments : List Bytes) :
    s.receive C P protocol version segments = s := by
  cases segments with
  | nil => rfl
  | cons => simp [Stream.receive, Stream.onUpstreamChunk, h]

lemma onDecoded_congr {s s' : Stream σ} (hw : s.written = s'.written)
    (hu : s.unsent = s'.unsent) (d : Decoder σ) (buffer : Bytes) :
    s.onDecoded C d buffer = s'.onDecoded C d buffer := by
  obtain ⟨phase, client, written, unsent⟩ := s
  obtain ⟨phase', client', written', unsent'⟩ := s'
  cases hw
  cases hu
  unfold Stream.onDecoded Stream.skipTrailers Stream.finish
  rfl

lemma receive_decode {s : Stream σ} {d : Decoder σ} {buffer : Bytes}
    (hs : ∀ e, (read (Decoder.step C) d buffer).1.stage ≠ .last ∧
      (read (Decoder.step C) d buffer).1.stage ≠ .failed e)
    (segment : Bytes) (segments : List Bytes) :
    (s.decode C d buffer).receive C P protocol version (segment :: segments) =
      (s.decode C d (buffer ++ segment)).receive C P protocol version segments := by
  have hp : s.decode C d buffer = { s with
      phase := .decoding (read (Decoder.step C) d buffer).1 (read (Decoder.step C) d buffer).2
      client := (read (Decoder.step C) d buffer).1.client } := by
    unfold Stream.decode Stream.onDecoded
    simp only
    split
    · rfl
    · rfl
    · rename_i e he
      exact absurd he (hs e).2
    · rename_i hlast
      exact absurd hlast (hs panicked).1
  have hr := read_append (incremental_step C) d buffer segment
  rw [hp, Stream.receive]
  simp only [Stream.onUpstreamChunk]
  congr 1
  simp only [Stream.decode, hr]
  exact onDecoded_congr C rfl rfl _ _

end

/-! ## The end of a body -/

section

variable {σ : Type} (P : Httparse) (protocol : Protocol) (version : Version) (C : ClientCalls σ)

section

variable {s : Stream σ} {d : Decoder σ} {r : Bytes} {segments trailers : List Bytes}

lemma receive_skipTrailers (h : crlf ++ crlf <:+: (r :: segments).flatten) :
    (s.skipTrailers C d r).receive C P protocol version segments = s.finish (d.finish C) := by
  induction segments generalizing s r with
  | nil =>
    rw [flatten_cons, flatten_nil, append_nil] at h
    rw [Stream.skipTrailers, if_pos h]
    rfl
  | cons segment segments ih =>
    by_cases hr : crlf ++ crlf <:+: r
    · rw [Stream.skipTrailers, if_pos hr]
      exact receive_returned C P protocol version rfl _
    · rw [Stream.skipTrailers, if_neg hr]
      exact ih (by simpa using h)

lemma receive_skipTrailers_waits (h : ¬ crlf ++ crlf <:+: (r :: segments).flatten) :
    ((s.skipTrailers C d r).receive C P protocol version segments).phase =
      .skippingTrailers d (r :: segments).flatten := by
  induction segments generalizing s r with
  | nil =>
    rw [flatten_cons, flatten_nil, append_nil] at h ⊢
    rw [Stream.skipTrailers, if_neg h]
    rfl
  | cons segment segments ih =>
    have hr : ¬ crlf ++ crlf <:+: r := fun hr => h (hr.trans (prefix_append r _).isInfix)
    have hre : ((r ++ segment) :: segments).flatten = (r :: segment :: segments).flatten := by simp
    rw [Stream.skipTrailers, if_neg hr, ← hre]
    exact ih (hre ▸ h)

def tailBytes (trailers : List Bytes) : Bytes := trailers.flatMap (fun l => l ++ crlf) ++ crlf

lemma infix_tailBytes (h : trailers ≠ []) : crlf ++ crlf <:+: tailBytes trailers := by
  obtain ⟨trailers, l, rfl⟩ := eq_nil_or_concat trailers |>.resolve_left h
  refine ⟨trailers.flatMap (fun l => l ++ crlf) ++ l, [], ?_⟩
  simp [tailBytes]

lemma not_infix_crlf : ¬ crlf ++ crlf <:+: crlf := by decide

lemma receive_last_trailers (s : Stream σ) (hs : d.stage = .last) (ht : trailers ≠ [])
    (hf : (r :: segments).flatten = tailBytes trailers) :
    (s.onDecoded C d r).receive C P protocol version segments = s.finish (d.finish C) := by
  simp only [Stream.onDecoded, hs]
  split
  · exact receive_returned C P protocol version rfl _
  · exact receive_skipTrailers P protocol version C (hf ▸ infix_tailBytes ht)

lemma receive_last (s : Stream σ) (hs : d.stage = .last) (hf : (r :: segments).flatten = crlf) :
    (crlf <+: r → (s.onDecoded C d r).receive C P protocol version segments =
      s.finish (d.finish C)) ∧
    (¬ crlf <+: r → ∃ buffer, ((s.onDecoded C d r).receive C P protocol version segments).phase =
      .skippingTrailers d buffer) := by
  simp only [Stream.onDecoded, hs]
  constructor
  · intro hr
    rw [if_pos hr]
    exact receive_returned C P protocol version rfl _
  · intro hr
    rw [if_neg hr]
    exact ⟨_, receive_skipTrailers_waits P protocol version C (hf ▸ not_infix_crlf)⟩

end

end

/-! ## A whole body -/

section

variable (P : Httparse) (protocol : Protocol) (version : Version) (response : ResponseHeaders)
  {chunks : List Chunk} {last : SizeLine}

def bodyBytes (chunks : List Chunk) (last : SizeLine) : Bytes :=
  chunks.flatMap Chunk.bytes ++ last.bytes

lemma bodyBytes_ne_nil (chunks : List Chunk) (last : SizeLine) : bodyBytes chunks last ≠ [] := by
  simp [bodyBytes, SizeLine.bytes, crlf]

lemma read_body (hchunks : ∀ c ∈ chunks, c.line.Readable) (hlast : last.Readable)
    (hsize : last.size = 0) (rest : Bytes) :
    read (Decoder.step Recorder.calls) (.holding response .line [])
        (bodyBytes chunks last ++ rest) =
      (.holding response .last (chunks.flatMap Chunk.data), rest) := by
  rw [bodyBytes, append_assoc, read_chunks hchunks, read_last hlast hsize, nil_append]

lemma stage_ne_last_of_part (hsize : last.size = 0) {b y : Bytes}
    (hb : bodyBytes chunks last = b ++ y) (hy : y ≠ []) :
    (read (Decoder.step Recorder.calls) (.holding response .line []) b).1.stage ≠ .last := by
  intro hs
  have ha := read_append (incremental_step Recorder.calls) (.holding response .line []) b y
  rw [← hb, read_of_none (s := (read _ _ b).1) (by simp only [Decoder.step, hs])] at ha
  by_cases hl : (∀ c ∈ chunks, c.line.Readable) ∧ last.Readable
  · have hr := read_body response hl.1 hl.2 hsize []
    rw [append_nil, ha] at hr
    exact hy (append_eq_nil_iff.mp (congrArg Prod.snd hr)).2
  · obtain ⟨e, he⟩ := read_chunks_failed response hl [] []
    rw [append_nil, ← bodyBytes, ha, hs] at he
    cases he

section

variable (hchunks : ∀ c ∈ chunks, c.line.Readable) (hlast : last.Readable) (hsize : last.size = 0)

include hchunks hlast hsize

lemma stage_of_part (hb : bodyBytes chunks last = b ++ y) (hy : y ≠ []) (e : IoError) :
    (read (Decoder.step Recorder.calls) (.holding response .line []) b).1.stage ≠ .last ∧
      (read (Decoder.step Recorder.calls) (.holding response .line []) b).1.stage ≠ .failed e := by
  refine ⟨stage_ne_last_of_part response hsize hb hy, fun hs => ?_⟩
  have ha := read_body response hchunks hlast hsize []
  rw [append_nil, hb, read_append (incremental_step _),
    read_of_none (by simp only [Decoder.step, hs])] at ha
  have hlast := congrArg (fun x => x.1.stage) ha
  simp only [hs, stage_holding] at hlast
  cases hlast

/-- **A body in segments** comes to the last size line with `r` behind it, empty exactly if
there was a cut. -/
lemma receive_body {s : Stream Recorder} {t : Bytes} {segments : List Bytes} {rest : Bytes}
    (hf : (t :: segments).flatten = bodyBytes chunks last ++ rest) :
    ∃ r segments', (s.decode Recorder.calls (.holding response .line []) t).receive Recorder.calls P
        protocol version segments =
      (s.onDecoded Recorder.calls (.holding response .last (chunks.flatMap Chunk.data)) r).receive
        Recorder.calls P protocol version segments' ∧ (r :: segments').flatten = rest ∧
      (r = [] ↔ Boundary (t :: segments) (bodyBytes chunks last)) ∧
      (∀ z, z ≠ [] → (Boundary (t :: segments) (bodyBytes chunks last ++ z) ↔
        Boundary (r :: segments') z)) := by
  obtain ⟨r, segments', hr, hre⟩ := Lib.Segments.joined
    (F := fun t segments => (s.decode Recorder.calls (.holding response .line []) t).receive
      Recorder.calls P protocol version segments)
    (bodyBytes_ne_nil chunks last) hf fun x segment rest _ ⟨y, hy⟩ hlt => by
      have hy_ne : y ≠ [] := by
        rintro rfl
        rw [← hy, append_nil] at hlt
        exact Nat.lt_irrefl _ hlt
      exact receive_decode Recorder.calls P protocol version
        (stage_of_part response hchunks hlast hsize hy.symm hy_ne) segment rest
  refine ⟨r, segments', hr.trans ?_, hre⟩
  simp [Stream.decode, read_body response hchunks hlast hsize]

end

section

variable {t : Bytes} {segments : List Bytes}

/-- By induction on the segments. -/
lemma receive_failed (s : Stream Recorder) {d : Decoder Recorder}
    (h : ∃ e, (read (Decoder.step Recorder.calls) d (t ++ segments.flatten)).1.stage = .failed e) :
    ∃ e, ((s.decode Recorder.calls d t).receive Recorder.calls P protocol version segments).phase =
      .returned (.error e) := by
  induction segments generalizing t with
  | nil =>
    obtain ⟨e, he⟩ := h
    rw [flatten_nil, append_nil] at he
    refine ⟨e, ?_⟩
    simp only [Stream.receive, Stream.decode, Stream.onDecoded, he]
    rfl
  | cons segment segments ih =>
    cases hs : (read (Decoder.step Recorder.calls) d t).1.stage with
    | failed e =>
      have hp : (s.decode Recorder.calls d t).phase = .returned (.error e) := by
        simp only [Stream.decode, Stream.onDecoded, hs]
        rfl
      exact ⟨e, by rw [receive_returned _ _ _ _ hp, hp]⟩
    | last =>
      obtain ⟨e, he⟩ := h
      rw [read_append (incremental_step _),
        read_of_none (by simp only [Decoder.step, hs]), hs] at he
      cases he
    | line | data =>
      rw [receive_decode _ _ _ _ (by simp [hs])]
      exact ih (by simpa using h)

/-- With its length, if the body was buffered. -/
def finalResponse (response : ResponseHeaders) (body : Bytes) : ResponseHeaders :=
  if body.length ≤ h3BufferedBodyLimit then withContentLength body.length response else response

/-- One response, the body and one end, and the future has returned. -/
structure Delivered (response : ResponseHeaders) (body : Bytes) (s : Stream Recorder) : Prop where
  returned : s.phase = .returned (.ok ())
  client : s.client = ⟨[(finalResponse response body, false)], body, 1⟩

lemma finish_holding (body : Bytes) :
    (Decoder.holding response .last body).finish Recorder.calls =
      (⟨[(finalResponse response body, false)], body, 1⟩, .ok ()) := by
  unfold Decoder.holding finalResponse
  split <;> rfl

lemma delivered_finish (s : Stream Recorder) (body : Bytes) : Delivered response body
      (s.finish ((Decoder.holding response .last body).finish Recorder.calls)) := by
  rw [finish_holding]
  exact ⟨rfl, rfl⟩

lemma prefix_crlf_iff (hf : (r :: segments).flatten = crlf) :
    crlf <+: r ↔ r ≠ [] ∧ ¬ Boundary (r :: segments) [13] := by
  have hr : r <+: crlf := ⟨segments.flatten, hf⟩
  rw [Lib.Segments.boundary_cons (cons_ne_nil 13 [])]
  rcases r with _ | ⟨a, _ | ⟨b, r⟩⟩
  · exact iff_of_false (by decide) (fun h => h.1 rfl)
  · obtain ⟨rfl, -⟩ := cons_prefix_cons.mp hr
    refine iff_of_false (by decide) (fun h => h.2 ⟨[], rfl, [], nil_prefix, rfl⟩)
  · obtain ⟨rfl, hr1⟩ := cons_prefix_cons.mp hr
    obtain ⟨rfl, hr2⟩ := cons_prefix_cons.mp hr1
    obtain rfl := prefix_nil.mp hr2
    refine iff_of_true (prefix_refl _) ⟨cons_ne_nil _ _, ?_⟩
    rintro ⟨y, hy, -⟩
    cases hy

/-- **Which bodies are delivered.** -/
lemma delivered_body_iff (hsize : last.size = 0) {trailers : List Bytes} {s : Stream Recorder}
    (hf : (t :: segments).flatten = bodyBytes chunks last ++ tailBytes trailers) :
    Delivered response (chunks.flatMap Chunk.data)
        ((s.decode Recorder.calls (.holding response .line []) t).receive Recorder.calls P protocol
          version segments) ↔ ((∀ c ∈ chunks, c.line.Readable) ∧ last.Readable) ∧
      (trailers = [] → ¬ Boundary (t :: segments) (bodyBytes chunks last) ∧
        ¬ Boundary (t :: segments) (bodyBytes chunks last ++ [13])) := by
  by_cases hl : (∀ c ∈ chunks, c.line.Readable) ∧ last.Readable
  · obtain ⟨hchunks, hlast⟩ := hl
    rw [and_iff_right ⟨hchunks, hlast⟩]
    obtain ⟨r, segments', hre, hta, hcu, hc⟩ := receive_body P protocol version
      response hchunks hlast hsize (s := s) hf
    have hs : (Decoder.holding response .last (chunks.flatMap Chunk.data)).stage = .last :=
      stage_holding _ _
    rw [hre]
    by_cases ht : trailers = []
    · subst ht
      obtain ⟨hy, hno⟩ := receive_last P protocol version Recorder.calls s hs hta
      rw [← hcu, hc [13] (cons_ne_nil _ _)]
      have hi := prefix_crlf_iff hta
      by_cases hr : crlf <+: r
      · refine iff_of_true ?_ (fun _ => hi.mp hr)
        rw [hy hr]
        exact delivered_finish response s _
      · refine iff_of_false ?_ (fun h => hr (hi.mpr (h rfl)))
        intro hd
        obtain ⟨buffer, hp⟩ := hno hr
        have := hd.returned
        rw [hp] at this
        cases this
    · refine iff_of_true ?_ (fun h => absurd h ht)
      rw [receive_last_trailers P protocol version Recorder.calls s hs ht hta]
      exact delivered_finish response s _
  · refine iff_of_false ?_ (fun h => hl h.1)
    intro hd
    have hfa := read_chunks_failed response hl [] (tailBytes trailers)
    rw [← append_assoc, ← bodyBytes, ← hf, flatten_cons] at hfa
    obtain ⟨e, he⟩ := receive_failed P protocol version s hfa
    have := hd.returned
    rw [he] at this
    cases this

end

end

end TrustTunnel.ReverseProxy
