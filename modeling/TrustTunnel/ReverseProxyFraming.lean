import TrustTunnel.ReverseProxyTruncation

/-!
# Any server behind the reverse proxy

Two is added to sizes as large as a machine word, and the two bytes after data are not looked at.
-/

namespace TrustTunnel.ReverseProxy

open Io Http Lib Recorder Decoder List Buffered Lib.Http1
open Lib.Http1 (utf8 crlf)
open HttpForwardedStream (ResponseHeaders Httparse)

/-! ## The frames of a body -/

inductive Frame where
  | size (n : Nat)
  | chunk (data after : Bytes)
  deriving DecidableEq

/-- The frames of a body; the number of bytes is fuel enough. -/
def frames : Nat → Bytes → List Frame
  | 0, _ => []
  | fuel + 1, body =>
    match takeLine body with
    | none => []
    | some (line, rest) =>
      match chunkSize line with
      | .error _ => []
      | .ok n =>
        if n = 0 ∨ 2 ^ 64 ≤ n + 2 ∨ rest.length < n + 2 then [.size n]
        else .size n :: .chunk (rest.take n) ((rest.drop n).take 2) :: frames fuel (rest.drop (n + 2))

def framesOf (body : Bytes) : List Frame := frames (body.length + 1) body

def Frame.data : Frame → Bytes
  | .size _ => []
  | .chunk data _ => data

def Frame.Ended : Frame → Prop
  | .size _ => True
  | .chunk _ after => after = crlf

instance : DecidablePred Frame.Ended
  | .size _ => inferInstanceAs (Decidable True)
  | .chunk _ after => inferInstanceAs (Decidable (after = crlf))

def dataOf (frames : List Frame) : Bytes := frames.flatMap Frame.data

lemma data_ne_nil {fuel : Nat} {body data after : Bytes}
    (h : .chunk data after ∈ frames fuel body) : data ≠ [] := by
  induction fuel generalizing body with
  | zero => cases h
  | succ fuel ih =>
    unfold frames at h
    split at h
    · cases h
    · split at h
      · cases h
      · split at h
        · simp at h
        · rename_i hn
          simp only [not_or, Nat.not_lt] at hn
          simp only [mem_cons, reduceCtorEq, false_or, Frame.chunk.injEq] at h
          rcases h with ⟨rfl, -⟩ | h
          · rw [ne_nil_iff_length_pos, length_take]
            omega
          · exact ih h

lemma chunk_mem_of_dataOf {body : Bytes} {part : List Frame} (hp : part <+: framesOf body)
    (hd : dataOf part = dataOf (framesOf body)) {data after : Bytes}
    (h : .chunk data after ∈ framesOf body) : .chunk data after ∈ part := by
  obtain ⟨rest, hr⟩ := hp
  have hn : dataOf rest = [] := by
    rw [← hr, dataOf, dataOf, flatMap_append] at hd
    exact self_eq_append_right.mp hd
  rw [← hr] at h
  rcases mem_append.mp h with h | h
  · exact h
  · have hm : .chunk data after ∈ framesOf body := by
      rw [← hr]
      exact mem_append_right part h
    exact absurd (flatMap_eq_nil_iff.mp hn _ h) (data_ne_nil hm)

lemma ne_panicked_of_chunkSize (h : chunkSize line = .error e) : e ≠ panicked := by
  unfold chunkSize at h
  split at h
  · cases h
  · cases h
    decide

lemma read_holding_of_stage {response : ResponseHeaders} {stage : Stage} (body buffer : Bytes)
    (h : (∃ e, stage = .failed e) ∨ stage = .last) :
    read (step calls) (.holding response stage body) buffer =
      (.holding response stage body, buffer) := by
  apply read_of_none
  rcases h with ⟨e, rfl⟩ | rfl
  · simp [step, stage_holding]
  · simp [step, stage_holding]

section

variable {fuel : Nat} {body line rest : Bytes} (hline : takeLine body = some (line, rest))

include hline

lemma frames_of_error (hs : chunkSize line = .error e) : frames (fuel + 1) body = [] := by
  simp [frames, hline, hs]

lemma frames_of_last (hs : chunkSize line = .ok n)
    (h : n = 0 ∨ 2 ^ 64 ≤ n + 2 ∨ rest.length < n + 2) : frames (fuel + 1) body = [.size n] := by
  simp only [frames, hline, hs]
  rw [if_pos h]

lemma frames_of_chunk (hs : chunkSize line = .ok n)
    (h : ¬ (n = 0 ∨ 2 ^ 64 ≤ n + 2 ∨ rest.length < n + 2)) :
    frames (fuel + 1) body = .size n :: .chunk (rest.take n) ((rest.drop n).take 2) ::
      frames fuel (rest.drop (n + 2)) := by
  simp only [frames, hline, hs]
  rw [if_neg h]

end

structure Frame.Leaves (frames : List Frame) (stage : Stage) : Prop where
  last : stage = .last ↔ .size 0 ∈ frames
  panic : stage = .failed panicked ↔ ∃ n, .size n ∈ frames ∧ 2 ^ 64 ≤ n + 2

lemma Frame.Leaves.nil {stage : Stage} (hl : stage ≠ .last) (hp : stage ≠ .failed panicked) :
    Leaves [] stage :=
  ⟨by simp [hl], by simp [hp]⟩

lemma Frame.Leaves.size {n : Nat} {stage : Stage} (hl : stage = .last ↔ n = 0)
    (hp : stage = .failed panicked ↔ 2 ^ 64 ≤ n + 2) : Leaves [.size n] stage := by
  refine ⟨?_, ?_⟩
  · rw [hl]
    simp [eq_comm]
  · rw [hp]
    simp [Frame.size.injEq]

lemma Frame.Leaves.cons {n : Nat} (hn : ¬ (n = 0 ∨ 2 ^ 64 ≤ n + 2)) (data after : Bytes)
    {frames : List Frame} {stage : Stage} (h : Leaves frames stage) :
    Leaves (.size n :: .chunk data after :: frames) stage := by
  obtain ⟨hz, hl⟩ := not_or.mp hn
  refine ⟨?_, ?_⟩
  · rw [h.last]
    simp [Ne.symm hz]
  · rw [h.panic]
    constructor
    · rintro ⟨m, hm, hle⟩
      exact ⟨m, mem_cons_of_mem _ (mem_cons_of_mem _ hm), hle⟩
    · rintro ⟨m, hm, hle⟩
      simp only [mem_cons, Frame.size.injEq, reduceCtorEq, false_or] at hm
      rcases hm with rfl | hm
      · exact absurd hle hl
      · exact ⟨m, hm, hle⟩

/-- **What the loop reads**, along the chunks. -/
lemma read_frames (response : ResponseHeaders) {fuel : Nat} {body : Bytes}
    (hfu : body.length < fuel) (before : Bytes) :
    ∃ stage rest, read (step calls) (.holding response .line before) body =
        (.holding response stage (before ++ dataOf (frames fuel body)), rest) ∧
      Frame.Leaves (frames fuel body) stage := by
  induction fuel generalizing body before with
  | zero => exact absurd hfu (Nat.not_lt_zero _)
  | succ fuel ih =>
    cases hline : takeLine body with
    | none =>
      have hf : frames (fuel + 1) body = [] := by simp only [frames, hline]
      rw [hf, read_of_none (by simp [step, stage_holding, hline])]
      exact ⟨.line, body, by simp [dataOf], .nil (by simp) (by simp)⟩
    | some x =>
      obtain ⟨line, rest⟩ := x
      have hshorter := takeLine_length hline
      rw [read_takeLine hline]
      cases hs : chunkSize line with
      | error e =>
        have hst : Stage.ofLine line = .failed e := by simp only [Stage.ofLine, hs]
        have hk : e ≠ panicked := ne_panicked_of_chunkSize hs
        rw [frames_of_error hline hs, hst, read_holding_of_stage _ _ (.inl ⟨e, rfl⟩)]
        exact ⟨.failed e, rest, by simp [dataOf], .nil (by simp) (by simpa using hk)⟩
      | ok n =>
        by_cases hz : n = 0
        · have hst : Stage.ofLine line = .last := by simp only [Stage.ofLine, hs, if_pos hz]
          rw [frames_of_last hline hs (.inl hz), hst, read_holding_of_stage _ _ (.inr rfl)]
          refine ⟨.last, rest, by simp [dataOf, Frame.data], .size (by simp [hz]) ?_⟩
          simp [hz]
        · by_cases hl : 2 ^ 64 ≤ n + 2
          · have hst : Stage.ofLine line = .failed panicked := by
              simp only [Stage.ofLine, hs, if_neg hz, if_neg (Nat.not_lt.mpr hl)]
            rw [frames_of_last hline hs (.inr (.inl hl)), hst,
              read_holding_of_stage _ _ (.inl ⟨_, rfl⟩)]
            exact ⟨.failed panicked, rest, by simp [dataOf, Frame.data],
              .size (by simp [hz]) (iff_of_true rfl hl)⟩
          · have hst : Stage.ofLine line = .data n := by
              simp only [Stage.ofLine, hs, if_neg hz, if_pos (Nat.lt_of_not_le hl)]
            rw [hst]
            by_cases hp : rest.length < n + 2
            · rw [frames_of_last hline hs (.inr (.inr hp)),
                read_of_none (by simp [step, stage_holding, hp])]
              exact ⟨.data n, rest, by simp [dataOf, Frame.data],
                .size (by simp [hz]) (iff_of_false (by simp) hl)⟩
            · have hles : (rest.drop (n + 2)).length < fuel := by
                rw [length_drop]
                omega
              obtain ⟨stage, rest', hr, hle⟩ := ih hles (before ++ rest.take n)
              have hc : ¬ (n = 0 ∨ 2 ^ 64 ≤ n + 2 ∨ rest.length < n + 2) := by
                simp only [hz, hl, hp, or_self, not_false_eq_true]
              rw [frames_of_chunk hline hs hc, read_take (Nat.le_of_not_lt hp), hr]
              exact ⟨stage, rest', by simp [dataOf, Frame.data],
                .cons (not_or.mpr ⟨hz, hl⟩) _ _ hle⟩

/-! ## Receiving a body -/

section

variable {σ : Type} (C : ClientCalls σ)

/-- Where a body leaves the future, when the decoder was left as `d`. -/
inductive Left (s : Stream σ) (d : Decoder σ) : Stream σ → Prop
  | waiting (buffer : Bytes) (hlast : d.stage ≠ .last) (hfailed : ∀ e, d.stage ≠ .failed e) :
      Left s d { s with phase := .decoding d buffer, client := d.client }
  | failed (e : IoError) (hfailed : d.stage = .failed e) : Left s d (s.finish (d.client, .error e))
  | trailers (buffer : Bytes) (hlast : d.stage = .last) :
      Left s d { s with phase := .skippingTrailers d buffer, client := d.client }
  | finished (hlast : d.stage = .last) : Left s d (s.finish (d.finish C))

variable (P : Httparse) (protocol : Protocol) (version : Version)

lemma left_onDecoded (s : Stream σ) (d : Decoder σ) (buffer : Bytes) :
    Left C s d (s.onDecoded C d buffer) := by
  unfold Stream.onDecoded
  split
  · rename_i hs
    exact .waiting buffer (by simp [hs]) (by simp [hs])
  · rename_i hs
    exact .waiting buffer (by simp [hs]) (by simp [hs])
  · rename_i e hs
    exact .failed e hs
  · rename_i hs
    split
    · exact .finished hs
    · unfold Stream.skipTrailers
      split
      · exact .finished hs
      · exact .trailers buffer hs

lemma left_skipTrailers (hs : d.stage = .last) (r : Bytes) (segments : List Bytes) :
    Left C s d ((s.skipTrailers C d r).receive C P protocol version segments) := by
  by_cases h : crlf ++ crlf <:+: (r :: segments).flatten
  · rw [receive_skipTrailers P protocol version C h]
    exact .finished hs
  · induction segments generalizing s r with
    | nil =>
      rw [flatten_cons, flatten_nil, append_nil] at h
      rw [Stream.skipTrailers, if_neg h]
      exact .trailers r hs
    | cons segment segments ih =>
      have hr : ¬ crlf ++ crlf <:+: r := fun hr => h (hr.trans (prefix_append r _).isInfix)
      rw [Stream.skipTrailers, if_neg hr]
      exact ih (r ++ segment) (by simpa using h)

/-- **A body in segments** leaves the future as the whole body does. -/
lemma receive_decoded (s : Stream σ) (d : Decoder σ) (t : Bytes) (segments : List Bytes) :
    Left C s (read (step C) d (t ++ segments.flatten)).1
      ((s.decode C d t).receive C P protocol version segments) := by
  induction segments generalizing t with
  | nil =>
    rw [flatten_nil, append_nil]
    exact left_onDecoded C s _ _
  | cons segment segments ih =>
    have hre : t ++ (segment :: segments).flatten = (t ++ segment) ++ segments.flatten := by simp
    rw [hre]
    cases hs : (read (step C) d t).1.stage with
    | line | data =>
      rw [receive_decode C P protocol version (by simp [hs])]
      exact ih (t ++ segment)
    | failed e =>
      have hr : s.decode C d t = s.finish ((read (step C) d t).1.client, .error e) := by
        simp [Stream.decode, Stream.onDecoded, hs]
      rw [append_assoc, read_append (incremental_step C),
        read_of_none (by simp only [step, hs]), hr,
        receive_returned C P protocol version rfl]
      exact .failed e hs
    | last =>
      rw [append_assoc, read_append (incremental_step C), read_of_none (by simp only [step, hs])]
      simp only [Stream.decode, Stream.onDecoded, hs]
      split
      · rw [receive_returned C P protocol version rfl]
        exact .finished hs
      · exact left_skipTrailers C P protocol version hs _ _

end

/-! ## Which bodies are decoded -/

def Decodes (protocol : Protocol) (head : ResponseHeaders) : Prop :=
  ¬ (protocol = .http3 ∧ (contentLength (stripResponse protocol head).headers).any
      (fun n => n ≤ h3BufferedBodyLimit)) ∧ isChunked head.headers ∧ protocol ≠ .http1

instance (protocol : Protocol) (head : ResponseHeaders) : Decidable (Decodes protocol head) :=
  inferInstanceAs (Decidable (_ ∧ _ ∧ _))

section

variable (P : Httparse) (protocol : Protocol) (version : Version)

def responseOf : Bytes → List Bytes → Option (ResponseHeaders × Bytes)
  | _, [] => none
  | buffer, segment :: segments =>
    match decodeResponse P version (buffer ++ segment) with
    | .error _ => none
    | .ok (.incomplete buffer) => responseOf buffer segments
    | .ok (.complete head tail) => some (head, tail ++ segments.flatten)

def chunkedBody (segments : List Bytes) : Option Bytes :=
  (responseOf P version [] segments).bind
    (fun x => if Decodes protocol x.1 then some x.2 else none)

end

/-! ## What a server can do -/

/-- The data of the first chunks, each with its line end. -/
def Framed (body delivered : Bytes) : Prop :=
  ∃ part, part <+: framesOf body ∧ delivered = dataOf part ∧ ∀ f ∈ part, f.Ended

/-- It has not panicked, and passed on no data of a bad chunk. -/
structure Survives (body : Option Bytes) (s : Stream Recorder) : Prop where
  no_panic : s.phase ≠ .returned (.error panicked)
  framed : ∀ b ∈ body, Framed b s.client.delivered

/-- The sizes fit, and chunks end with line ends or nothing is passed on. -/
structure Sound (body : Bytes) : Prop where
  sizes : ∀ n, .size n ∈ framesOf body → n + 2 < 2 ^ 64
  ends : (∀ f ∈ framesOf body, f.Ended) ∨
    (dataOf (framesOf body)).length ≤ h3BufferedBodyLimit ∧ .size 0 ∉ framesOf body

lemma framed_nil (body : Bytes) : Framed body [] := ⟨[], nil_prefix, rfl, by simp⟩

lemma framed_all_iff (body : Bytes) :
    Framed body (dataOf (framesOf body)) ↔ ∀ f ∈ framesOf body, f.Ended := by
  constructor
  · rintro ⟨part, hp, hd, he⟩ f hf
    cases f with
    | size => trivial
    | chunk => exact he _ (chunk_mem_of_dataOf hp hd.symm hf)
  · intro he
    exact ⟨_, prefix_rfl, rfl, he⟩

/-! ## Bodies that are decoded -/

section

variable {response : ResponseHeaders} {stage : Stage} {data : Bytes} {s s' : Stream Recorder}

/-- At the end, or when it is too much. -/
def PassesOn (stage : Stage) (data : Bytes) : Prop :=
  stage = .last ∨ h3BufferedBodyLimit < data.length

lemma sound_iff (hl : Frame.Leaves (framesOf body) stage) :
    Sound body ↔ stage ≠ .failed panicked ∧
      (PassesOn stage (dataOf (framesOf body)) → ∀ f ∈ framesOf body, f.Ended) := by
  constructor
  · intro h
    refine ⟨fun hs => ?_, fun hp => h.ends.resolve_right fun hsm => ?_⟩
    · obtain ⟨n, hn, hle⟩ := hl.panic.mp hs
      exact absurd (h.sizes n hn) (Nat.not_lt.mpr hle)
    · rcases hp with hs | hli
      · exact hsm.2 (hl.last.mp hs)
      · exact absurd hsm.1 (Nat.not_le.mpr hli)
  · rintro ⟨hs, he⟩
    refine ⟨fun n hn => ?_, ?_⟩
    · by_contra hle
      exact hs (hl.panic.mpr ⟨n, hn, Nat.le_of_not_lt hle⟩)
    · by_cases hp : PassesOn stage (dataOf (framesOf body))
      · exact .inl (he hp)
      · obtain ⟨hne, hle⟩ := not_or.mp hp
        exact .inr ⟨Nat.le_of_not_lt hle, fun hm => hne (hl.last.mpr hm)⟩

lemma delivered_holding (stage : Stage) (data : Bytes) :
    (holding response stage data).client.delivered =
      if data.length ≤ h3BufferedBodyLimit then [] else data := by
  unfold holding
  split
  · rfl
  · rfl

lemma delivered_of_not_last (h : stage ≠ .last) :
    (PassesOn stage data → (holding response stage data).client.delivered = data) ∧
      (¬ PassesOn stage data → (holding response stage data).client.delivered = []) := by
  rw [delivered_holding]
  refine ⟨fun hp => ?_, fun hn => ?_⟩
  · rw [if_neg (Nat.not_le.mpr (hp.resolve_left h))]
  · rw [if_pos (Nat.le_of_not_lt (not_or.mp hn).2)]

lemma Left.phase_iff (h : Left calls s (.holding response stage data) s') :
    s'.phase = .returned (.error panicked) ↔ stage = .failed panicked := by
  cases h with
  | waiting buffer hl hfailed =>
    rw [stage_holding] at hfailed
    exact iff_of_false (by simp) (hfailed panicked)
  | failed e hfailed =>
    rw [stage_holding] at hfailed
    simp [Stream.finish, hfailed]
  | trailers buffer hl =>
    rw [stage_holding] at hl
    simp [hl]
  | finished hl =>
    rw [stage_holding] at hl
    subst hl
    rw [finish_holding]
    simp [Stream.finish]

lemma Left.delivered (h : Left calls s (.holding response stage data) s') :
    s'.client.delivered = [] ∨ PassesOn stage data ∧ s'.client.delivered = data := by
  have hh : (holding response stage data).client.delivered = [] ∨
      PassesOn stage data ∧ (holding response stage data).client.delivered = data := by
    rw [delivered_holding]
    split
    · exact .inl rfl
    · rename_i hl
      exact .inr ⟨.inr (Nat.lt_of_not_le hl), rfl⟩
  cases h with
  | waiting | failed | trailers => exact hh
  | finished hla =>
    rw [stage_holding] at hla
    subst hla
    rw [finish_holding]
    exact .inr ⟨.inl rfl, rfl⟩

lemma Left.close (version : Version) (h : Left calls s (.holding response stage data) s') :
    ((s'.close version).phase = .returned (.error panicked) ↔ stage = .failed panicked) ∧
      (PassesOn stage data → (s'.close version).client.delivered = data) ∧
      (¬ PassesOn stage data → (s'.close version).client.delivered = []) := by
  cases h with
  | waiting buffer hl hfailed =>
    rw [stage_holding] at hl hfailed
    refine ⟨iff_of_false ?_ (hfailed panicked), delivered_of_not_last hl⟩
    simp [Stream.close, Stream.onUpstreamEof, IoError.ofKind, panicked]
  | failed e hfailed =>
    rw [stage_holding] at hfailed
    have hc : (s.finish ((holding response stage data).client, .error e)).close version =
        s.finish ((holding response stage data).client, .error e) := rfl
    rw [hc]
    refine ⟨by simp [Stream.finish, hfailed], delivered_of_not_last (by simp [hfailed])⟩
  | trailers buffer hl =>
    rw [stage_holding] at hl
    subst hl
    simp only [Stream.close, Stream.onUpstreamEof, Option.getD_some, finish_holding]
    exact ⟨by simp [Stream.finish], fun _ => rfl, fun hn => absurd (.inl rfl) hn⟩
  | finished hl =>
    rw [stage_holding] at hl
    subst hl
    rw [finish_holding]
    exact ⟨by simp [Stream.close, Stream.onUpstreamEof, Stream.finish], fun _ => rfl,
      fun hn => absurd (.inl rfl) hn⟩

lemma survives_decoded (P : Httparse) (protocol : Protocol) (version : Version)
    (s : Stream Recorder) (response : ResponseHeaders) (t : Bytes) (segments : List Bytes) :
    (Survives (some (t ++ segments.flatten))
        (((s.decode calls (.holding response .line []) t).receive calls P protocol
          version segments).close version) ↔ Sound (t ++ segments.flatten)) ∧
      (Sound (t ++ segments.flatten) → Survives (some (t ++ segments.flatten))
        ((s.decode calls (.holding response .line []) t).receive calls P protocol
          version segments)) := by
  have hl := receive_decoded calls P protocol version s (.holding response .line []) t segments
  generalize t ++ segments.flatten = body at hl ⊢
  obtain ⟨stage, rest, hr, hle⟩ := read_frames response (Nat.lt_succ_self body.length) []
  rw [hr, nil_append] at hl
  rw [sound_iff hle]
  obtain ⟨hph, hpas, hh⟩ := hl.close version
  refine ⟨⟨fun h => ?_, fun h => ?_⟩, fun h => ?_⟩
  · refine ⟨fun hs => h.no_panic (hph.mpr hs), fun hp => ?_⟩
    have hf := h.framed body rfl
    rw [hpas hp] at hf
    exact (framed_all_iff body).mp hf
  · refine ⟨fun hpa => h.1 (hph.mp hpa), fun b hb => ?_⟩
    cases hb
    by_cases hp : PassesOn stage (dataOf (framesOf body))
    · rw [hpas hp]
      exact (framed_all_iff body).mpr (h.2 hp)
    · rw [hh hp]
      exact framed_nil body
  · refine ⟨fun hpa => h.1 (hl.phase_iff.mp hpa), fun b hb => ?_⟩
    cases hb
    rcases hl.delivered with hn | ⟨hp, hd⟩
    · rw [hn]
      exact framed_nil body
    · rw [hd]
      exact (framed_all_iff body).mpr (h.2 hp)

end

/-! ## Other responses -/

def Plain (s : Stream Recorder) : Prop :=
  match s.phase with
  | .buffering _ _ _ | .fixedSize _ | .piping _ _ | .returned (.ok _) => True
  | _ => False

section

variable (P : Httparse) (protocol : Protocol) (version : Version)

lemma plain_passOn (s : Stream Recorder) (remaining : Nat) :
    Plain (s.passOn calls remaining) := by
  unfold Stream.passOn
  split
  · trivial
  · trivial

lemma plain_buffer (s : Stream Recorder) (response : ResponseHeaders) (body : Bytes)
    (remaining : Nat) : Plain (s.buffer calls response body remaining) := by
  unfold Stream.buffer
  split
  · trivial
  · trivial

lemma plain_onResponse {head : ResponseHeaders} (h : ¬ Decodes protocol head)
    (s : Stream Recorder) (chunk : Bytes) : Plain (s.onResponse calls protocol head chunk) := by
  simp only [Stream.onResponse]
  split
  · exact plain_buffer _ _ _ _
  · rename_i hb
    split
    · rename_i hc
      exact absurd ⟨hb, hc⟩ h
    · simp only [sendWith, calls]
      split
      · split
        · exact plain_passOn _ _
        · trivial
      · trivial

lemma plain_onUpstreamChunk (hs : Plain s)
    (h : s.onUpstreamChunk calls P protocol version chunk = some s') : Plain s' := by
  obtain ⟨phase, client, written, unsent⟩ := s
  cases phase with
  | buffering =>
    cases h
    exact plain_buffer _ _ _ _
  | fixedSize =>
    cases h
    exact plain_passOn _ _
  | piping upload download =>
    cases download with
    | true =>
      cases h
      trivial
    | false => cases h
  | returned => cases h
  | connecting | sendingRequest | waitingResponse buffer
  | decoding | skippingTrailers => exact absurd hs id

/-- By induction on the segments. -/
lemma plain_receive (hs : Plain s) (segments : List Bytes) :
    Plain (s.receive calls P protocol version segments) := by
  induction segments generalizing s with
  | nil => exact hs
  | cons segment segments ih =>
    rw [Stream.receive]
    split
    · exact hs
    · rename_i hst
      exact ih (plain_onUpstreamChunk P protocol version hs hst)

lemma Plain.no_panic (hs : Plain s) : s.phase ≠ .returned (.error panicked) ∧
      (s.close version).phase ≠ .returned (.error panicked) := by
  obtain ⟨phase, client, written, unsent⟩ := s
  cases phase with
  | buffering =>
    simp [Stream.close, Stream.onUpstreamEof, IoError.ofKind, panicked]
  | fixedSize =>
    simp [Stream.close, Stream.onUpstreamEof, Stream.passOn, Stream.finish]
  | piping upload download =>
    refine ⟨by simp, ?_⟩
    cases download with
    | true =>
      cases upload with
      | true | false => simp [Stream.close, Stream.onUpstreamEof, Stream.settlePipe, calls]
    | false => simp [Stream.close, Stream.onUpstreamEof]
  | returned result =>
    cases result with
    | ok => simp [Stream.close, Stream.onUpstreamEof]
    | error => exact absurd hs id
  | connecting | sendingRequest | waitingResponse buffer
  | decoding | skippingTrailers => exact absurd hs id

/-! ## Heads -/

variable {P}

lemma ne_panicked_of_decodeResponse (h : decodeResponse P version buffer = .error e) :
    e ≠ panicked := by
  have ho (text : String) : .other text ≠ panicked := by simp [panicked, IoError.other, IoError.ofKind]
  unfold decodeResponse at h
  split at h
  · simp only at h
    split at h <;> cases h
    exact ho _
  · split at h <;> cases h
    exact ho _
  · cases h
    exact ho _
  · cases h
    exact ho _

/-- **A head in segments.**  By induction on the segments. -/
lemma receive_responseOf (s : Stream Recorder) (buffer : Bytes) (segments : List Bytes) :
    match responseOf P version buffer segments with
    | none =>
      (∃ e, e ≠ panicked ∧ { s with phase := .waitingResponse buffer }.receive calls P
          protocol version segments = s.finish (s.client, .error e)) ∨
        ∃ buffer', { s with phase := .waitingResponse buffer }.receive calls P protocol version
          segments = { s with phase := .waitingResponse buffer' }
    | some (head, body) =>
      ∃ t segments', t ++ segments'.flatten = body ∧
        { s with phase := .waitingResponse buffer }.receive calls P protocol version segments =
          (s.onResponse calls protocol head t).receive calls P protocol version
            segments' := by
  induction segments generalizing buffer with
  | nil => exact .inr ⟨buffer, rfl⟩
  | cons segment segments ih =>
    have hs : { s with phase := .waitingResponse buffer }.receive calls P protocol version
        (segment :: segments) = (s.readHead calls P protocol version
          (buffer ++ segment)).receive calls P protocol version segments := rfl
    rw [hs]
    cases hd : decodeResponse P version (buffer ++ segment) with
    | error e =>
      simp only [responseOf, hd, Stream.readHead]
      exact .inl ⟨e, ne_panicked_of_decodeResponse version hd, receive_returned _ _ _ _ rfl _⟩
    | ok status =>
      cases status with
      | incomplete buffer' =>
        simp only [responseOf, hd, Stream.readHead]
        exact ih buffer'
      | complete head tail =>
        simp only [responseOf, hd, Stream.readHead]
        exact ⟨tail, segments, rfl, rfl⟩

/-- **Any server.** `handle_stream` survives exactly if the body is sound. -/
theorem survives_iff (written unsent : Bytes) (segments : List Bytes) :
    (Survives (chunkedBody P protocol version segments)
        (afterClose P protocol version written unsent segments) ↔
      ∀ body ∈ chunkedBody P protocol version segments, Sound body) ∧
    ((∀ body ∈ chunkedBody P protocol version segments, Sound body) →
      Survives (chunkedBody P protocol version segments)
        ((Stream.sent written unsent).receive calls P protocol version segments)) := by
  have hr := receive_responseOf (P := P) protocol version (Stream.sent written unsent) [] segments
  have hs : { Stream.sent written unsent with phase := .waitingResponse [] } =
    Stream.sent written unsent := rfl
  rw [hs] at hr
  rw [afterClose]
  cases hre : responseOf P version [] segments with
  | none =>
    have hn : chunkedBody P protocol version segments = none := by
      rw [chunkedBody, hre, Option.bind_none]
    rw [hn]
    simp only [hre] at hr
    rcases hr with ⟨e, he, hret⟩ | ⟨buffer, hw⟩
    · rw [hret]
      refine ⟨iff_of_true ⟨?_, by simp⟩ (by simp), fun _ => ⟨?_, by simp⟩⟩
      · simpa [Stream.close, Stream.onUpstreamEof, Stream.finish] using he
      · simpa [Stream.finish] using he
    · rw [hw]
      refine ⟨iff_of_true ⟨?_, by simp⟩ (by simp), fun _ => ⟨by simp, by simp⟩⟩
      simp [Stream.close, Stream.onUpstreamEof, Stream.finish, calls]
  | some x =>
    obtain ⟨head, body⟩ := x
    simp only [hre] at hr
    obtain ⟨t, segments', rfl, hrec⟩ := hr
    rw [hrec]
    by_cases hd : Decodes protocol head
    · have hso : chunkedBody P protocol version segments = some (t ++ segments'.flatten) := by
        rw [chunkedBody, hre, Option.bind_some, if_pos hd]
      have hde : (Stream.sent written unsent).onResponse calls protocol head t =
          (Stream.sent written unsent).decode calls
            (.holding (stripResponse protocol head) .line []) t := by
        simp only [Stream.onResponse]
        rw [if_neg hd.1, if_pos hd.2]
        rfl
      rw [hso, hde]
      simp only [Option.mem_some_iff, forall_eq']
      exact survives_decoded P protocol version _ _ t segments'
    · have hn : chunkedBody P protocol version segments = none := by
        rw [chunkedBody, hre, Option.bind_some, if_neg hd]
      have hp := plain_receive P protocol version
        (plain_onResponse protocol hd (Stream.sent written unsent) t) segments'
      obtain ⟨hph, hc⟩ := hp.no_panic version
      rw [hn]
      exact ⟨iff_of_true ⟨hc, by simp⟩ (by simp), fun _ => ⟨hph, by simp⟩⟩

end

open HttpForwardedStream (scanner)

theorem hiSegments_survived : Survives (some (utf8 "2;a=b\r\nhi\r\n0\r\n\r\n"))
      (afterClose scanner .http2 .http2 [] [] hiSegments) := by
  have hb : chunkedBody scanner .http2 .http2 hiSegments =
      some (utf8 "2;a=b\r\nhi\r\n0\r\n\r\n") := by
    decide +kernel
  have hf : framesOf (utf8 "2;a=b\r\nhi\r\n0\r\n\r\n") =
      [.size 2, .chunk (utf8 "hi") crlf, .size 0] := by
    decide +kernel
  rw [← hb]
  refine (survives_iff .http2 .http2 [] [] hiSegments).1.mpr fun body hm => ?_
  rw [hb] at hm
  cases hm
  refine ⟨fun n hn => ?_, .inl ?_⟩
  · rw [hf] at hn
    simp only [mem_cons, Frame.size.injEq, reduceCtorEq, not_mem_nil, or_false, false_or] at hn
    omega
  · rw [hf]
    decide +kernel

def hugeSegments : List Bytes := [chunkedHead.bytes ++ utf8 "ffffffffffffffff\r\nx"]

def misframedSegments : List Bytes := [chunkedHead.bytes ++ utf8 "3\r\nabcXY0\r\n\r\n"]

/-- A size that overflows, and data without a line end. -/
theorem hugeSize_misframed :
    ((afterClose scanner .http2 .http2 [] [] hugeSegments).phase = .returned (.error panicked) ∧
      ¬ Survives (chunkedBody scanner .http2 .http2 hugeSegments)
        (afterClose scanner .http2 .http2 [] [] hugeSegments)) ∧
    ((chunkedBody scanner .http2 .http2 misframedSegments).map framesOf =
        some [.size 3, .chunk (utf8 "abc") (utf8 "XY"), .size 0] ∧
      (afterClose scanner .http2 .http2 [] [] misframedSegments).client.delivered = utf8 "abc" ∧
      ¬ Survives (chunkedBody scanner .http2 .http2 misframedSegments)
        (afterClose scanner .http2 .http2 [] [] misframedSegments)) := by
  have hp : (afterClose scanner .http2 .http2 [] [] hugeSegments).phase =
      .returned (.error panicked) := by
    rfl
  have hf : (chunkedBody scanner .http2 .http2 misframedSegments).map framesOf =
      some [.size 3, .chunk (utf8 "abc") (utf8 "XY"), .size 0] := by
    decide +kernel
  have hd : (afterClose scanner .http2 .http2 [] [] misframedSegments).client.delivered =
      utf8 "abc" := by
    decide +kernel
  refine ⟨⟨hp, fun h => h.no_panic hp⟩, hf, hd, fun h => ?_⟩
  obtain ⟨body, hb, hal⟩ := Option.map_eq_some_iff.mp hf
  obtain ⟨part, hpa, hda, he⟩ := h.framed body hb
  have hm : .chunk (utf8 "abc") (utf8 "XY") ∈ part := by
    refine chunk_mem_of_dataOf hpa ?_ (by rw [hal]; simp)
    rw [← hda, hd, hal]
    decide +kernel
  have ha : utf8 "XY" = crlf := he _ hm
  revert ha
  decide +kernel

end TrustTunnel.ReverseProxy
