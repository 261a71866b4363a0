import TrustTunnel.HeaderNames
import TrustTunnel.ReverseProxyTruncation

/-!
# Forwarded responses of fixed length

`sent_bytes` grows by the segment less what the client left, also when only a part of it is body;
and `eof` passes the origin's close on after the end.
-/

namespace TrustTunnel.FixedLength

open Io Http Lib HttpForwardedStream List Option ReverseProxy
open Pipe (Data SimplexPipe SinkCalls)
open Lib.Http1 (utf8)
open Truncation (HasLength lengthDropped)

/-! ## The client, the origin and the pipe -/

structure Client where
  delivered : Bytes
  eofs : Nat
  deriving DecidableEq

def Client.calls : RespondCalls Client Nat where
  write c data n := ({ c with delivered := c.delivered ++ data.take n }, .ok (data.drop n))
  eof c _ := ({ c with eofs := c.eofs + 1 }, .ok ())
  waitWritable c _ := (c, .ok ())
  flush c _ := (c, .ok ())
  sendIntermediateResponse c _ _ := (c, .ok ())
  sendResponse c _ eof _ := ({ c with eofs := c.eofs + if eof then 1 else 0 }, .ok ())
  sendBadResponse c _ _ := ({ c with eofs := c.eofs + 1 }, .ok ())

abbrev Forwarding := SimplexPipe (ForwardedStreamSink Client)

structure State where
  pipe : Forwarding
  upcoming : Bytes

/-- `n` bytes come, or the origin closes; `accepted` is how much of a write the client takes. -/
inductive Event where
  | start
  | flushed
  | segment (n accepted : Nat)
  | close
  | writable (accepted : Nat)
  | timeout
  | drop

section

variable (P : Httparse)

abbrev sink : SinkCalls (ForwardedStreamSink Client) Nat := ForwardedStreamSink.calls Client.calls P

def step (timeout : Nat) (s : State) (ev : Nat × Event) : Option State :=
  let advance (upcoming : Bytes) (e : Pipe.Event Nat) : Option State :=
    (SimplexPipe.step (sink P) timeout ev.1 s.pipe e).map (fun p => ⟨p, upcoming⟩)
  match ev.2 with
  | .start => advance s.upcoming .start
  | .flushed => advance s.upcoming (.flushed 0)
  | .segment n accepted =>
    if n ≤ s.upcoming.length then
      advance (s.upcoming.drop n) (.readable (.ok (.chunk (s.upcoming.take n))) accepted (.ok ()))
    else none
  | .close =>
    if s.upcoming = [] then advance [] (.readable (.ok .eof) 0 (.ok ())) else none
  | .writable accepted => advance s.upcoming (.writable 0 accepted (.ok ()))
  | .timeout => advance s.upcoming .timeout
  | .drop => advance s.upcoming .drop

end

def init (method : Method) (version : Version) (now : Nat) (bytes : Bytes) : State :=
  ⟨.new (.intoForwarded method version ⟨[], 0⟩) now, bytes⟩

/-! ## Writes -/

section

variable {P : Httparse} {n : Nat} (fake : Bool) {client : Client} {data : Bytes}

lemma write_within (hlt : client.delivered.length < n)
    (hle : client.delivered.length + data.length ≤ n) (accepted : Nat) :
    (sink P).write ⟨.transferringBodyNonEncoded (some n) client.delivered.length, fake, client⟩ data
        accepted =
      (⟨.transferringBodyNonEncoded (some n) (client.delivered ++ data.take accepted).length, fake,
          ⟨client.delivered ++ data.take accepted,
            client.eofs + if (client.delivered ++ data.take accepted).length = n then 1 else 0⟩⟩,
        .ok (data.drop accepted)) := by
  have hs : min data.length (n - client.delivered.length) = data.length := by omega
  have hse : client.delivered.length + (data.length - (data.drop accepted).length) =
      (client.delivered ++ data.take accepted).length := by
    rw [length_append, length_drop, length_take]
    omega
  have hr : data.drop (data.length - (data.drop accepted).length) = data.drop accepted := by
    rw [length_drop]
    by_cases h : accepted ≤ data.length
    · rw [Nat.sub_sub_self h]
    · rw [drop_of_length_le (by omega), drop_of_length_le (by omega)]
  by_cases he : data = []
  · subst he
    simp [ForwardedStreamSink.calls, ForwardedStreamSink.write,
      ForwardedStreamSink.onNonEncodedChunk, Nat.not_le_of_lt hlt, Nat.ne_of_lt hlt]
  · have hp : data.length ≠ 0 := fun h => he (length_eq_zero_iff.mp h)
    simp only [ForwardedStreamSink.calls, ForwardedStreamSink.write,
      ForwardedStreamSink.onNonEncodedChunk, if_neg (Nat.not_le_of_lt hlt), hs, if_neg hp,
      Client.calls, take_length, hse, hr]
    by_cases hl : (client.delivered ++ data.take accepted).length = n
    · have ha : data.drop accepted = [] := by
        rw [length_append, length_take] at hl
        exact drop_of_length_le (by omega)
      simp [hl, ha]
    · simp only [some.injEq, if_neg hl, Nat.add_zero]

lemma write_crossing (hlt : client.delivered.length < n)
    (hcross : n < client.delivered.length + data.length) (accepted : Nat) :
    ∃ f r sentBytes, (sink P).write
        ⟨.transferringBodyNonEncoded (some n) client.delivered.length, fake, client⟩ data accepted =
      (f, r) ∧ f.state = .transferringBodyNonEncoded (some n) sentBytes ∧
        sentBytes ≠ f.client.delivered.length := by
  have hs : min data.length (n - client.delivered.length) = n - client.delivered.length := by
    omega
  have hp : n - client.delivered.length ≠ 0 := by omega
  -- the length of the whole segment is counted
  have hc : client.delivered.length +
      (data.length - ((data.take (n - client.delivered.length)).drop accepted).length) ≠
      (client.delivered ++ (data.take (n - client.delivered.length)).take accepted).length := by
    simp only [length_append, length_drop, length_take]
    omega
  simp only [ForwardedStreamSink.calls, ForwardedStreamSink.write,
    ForwardedStreamSink.onNonEncodedChunk, if_neg (Nat.not_le_of_lt hlt), hs, if_neg hp,
    Client.calls]
  split
  · split
    · exact ⟨_, _, _, rfl, rfl, hc⟩
    · exact ⟨_, _, _, rfl, rfl, hc⟩
  · exact ⟨_, _, _, rfl, rfl, hc⟩

lemma write_surplus (client : Client) (data : Bytes) (hle : n ≤ sentBytes) (accepted : Nat) :
    (sink P).write ⟨.transferringBodyNonEncoded (some n) sentBytes, fake, client⟩ data accepted =
      (⟨.transferringBodyNonEncoded (some n) sentBytes, fake, client⟩,
        .error (.ofKind .unexpectedEof)) := by
  simp [sink, ForwardedStreamSink.calls, ForwardedStreamSink.write,
    ForwardedStreamSink.onNonEncodedChunk, if_pos hle]

end

/-! ## The promise -/

def State.pending (s : State) : Bytes := SimplexPipe.pendingBytes s.pipe.pendingChunk

def State.client (s : State) : Client := s.pipe.sink.client

/-- The first `n` bytes are delivered or pending, the counter is right, and there is one end
with the last of them. -/
structure Exact (headLength n : Nat) (s : State) : Prop where
  bytes : (s.client.delivered ++ s.pending).take n = (s.pipe.read.drop headLength).take n
  bound : s.client.delivered.length ≤ n
  counter : ∀ bodyLength sentBytes,
    s.pipe.sink.state = .transferringBodyNonEncoded bodyLength sentBytes →
      sentBytes = s.client.delivered.length
  ended : (∀ buffer method version, s.pipe.sink.state ≠ .waitingResponse buffer method version) →
    s.client.delivered.length = n → s.client.eofs = 1
  unended : s.pipe.eofs = [] → s.client.delivered.length < n → s.client.eofs = 0
  asserted : s.pipe.point ≠ .failed assertionFailed

/-- A write of `k` bytes goes over the end of the body. -/
def Crosses (n : Nat) (s : State) (k : Nat) : Prop :=
  s.client.delivered.length < n ∧ n < s.client.delivered.length + k

instance (n : Nat) (s : State) (k : Nat) : Decidable (Crosses n s k) :=
  inferInstanceAs (Decidable (_ ∧ _))

/-- The body does not end inside a write, and the origin does not close after it. -/
def Meets (n : Nat) (s : State) (ev : Nat × Event) : Prop :=
  (match s.pipe.sink.state, ev.2 with
    | .transferringBodyNonEncoded _ _, .segment k _ => !decide (Crosses n s k)
    | .transferringBodyNonEncoded _ _, .writable _ => !decide (Crosses n s s.pending.length)
    | .transferringBodyNonEncoded _ _, .close => s.client.delivered.length != n
    | _, _ => true) = true

instance (n : Nat) : DecidableRel (Meets n) := fun _ _ => inferInstanceAs (Decidable (_ = true))

/-! ## The invariant -/

structure Waiting (headLength : Nat) (method : Method) (version : Version) (s : State) : Prop where
  sink_eq : s.pipe.sink = ⟨.waitingResponse s.pipe.read method version, false, ⟨[], 0⟩⟩
  short : s.pipe.read.length < headLength
  pending_eq : s.pipe.pendingChunk = none
  eofs_eq : s.pipe.eofs = []
  running : ∀ e, s.pipe.point ≠ .failed e

structure Transferring (head : Bytes) (n : Nat) (s : State) : Prop where
  state_eq : s.pipe.sink.state = .transferringBodyNonEncoded (some n) s.client.delivered.length
  bound : s.client.delivered.length ≤ n
  ended : s.client.eofs = if s.client.delivered.length = n then 1 else 0
  eofs_eq : s.pipe.eofs = []
  body : head ++ (s.client.delivered ++ s.pending) = s.pipe.read ∨
    ((∃ e, s.pipe.point = .failed e) ∧ s.client.delivered.length = n ∧
      head ++ s.client.delivered <+: s.pipe.read)
  chunk : s.pipe.pendingChunk ≠ some .eof
  reading : s.pipe.point = .reading → s.pipe.pendingChunk = none
  asserted : s.pipe.point ≠ .failed assertionFailed

structure Closed (headLength n : Nat) (s : State) : Prop where
  state_eq : s.pipe.sink.state = .idle
  upcoming_eq : s.upcoming = []
  eofs_ne : s.pipe.eofs ≠ []
  pending_eq : s.pipe.pendingChunk = none
  body : s.client.delivered = s.pipe.read.drop headLength
  bound : s.client.delivered.length ≤ n
  ended : s.client.delivered.length = n → s.client.eofs = 1
  asserted : s.pipe.point ≠ .failed assertionFailed

/-- What holds while the bytes `head ++ stream` come. -/
structure Tracked (head stream : Bytes) (n : Nat) (method : Method) (version : Version) (s : State) :
    Prop where
  bytes : s.pipe.read ++ s.upcoming = head ++ stream
  writable : s.pipe.point = .waitingWritable → s.pipe.pendingChunk ≠ none
  phase : Waiting head.length method version s ∨ Transferring head n s ∨ Closed head.length n s

section

variable {P : Httparse} {head stream : Bytes} {n : Nat} {method : Method} {version : Version}
  {s : State}

lemma Waiting.exact (h : Waiting head.length method version s) : Exact head.length n s := by
  have hc : s.client = ⟨[], 0⟩ := by rw [State.client, h.sink_eq]
  have hp : s.pending = [] := by rw [State.pending, h.pending_eq]; rfl
  refine ⟨?_, ?_, ?_, ?_, ?_, h.running _⟩
  · rw [hc, hp, drop_of_length_le (Nat.le_of_lt h.short)]
    rfl
  · rw [hc]
    exact Nat.zero_le n
  · intro bodyLength sentBytes hs
    rw [h.sink_eq] at hs
    cases hs
  · intro hs
    exact absurd (by rw [h.sink_eq]) (hs s.pipe.read method version)
  · intro _ _
    rw [hc]

lemma Transferring.exact (h : Transferring head n s) : Exact head.length n s := by
  refine ⟨?_, h.bound, ?_, ?_, ?_, h.asserted⟩
  · rcases h.body with hbody | ⟨-, ha, rest, hbody⟩
    · rw [← hbody, drop_left]
    · rw [← hbody, append_assoc, drop_left, ← ha, take_left, take_left]
  · intro bodyLength sentBytes hs
    rw [h.state_eq] at hs
    cases hs
    rfl
  · intro _ ha
    rw [h.ended, if_pos ha]
  · intro _ hlt
    rw [h.ended, if_neg (Nat.ne_of_lt hlt)]

lemma Closed.exact (h : Closed head.length n s) : Exact head.length n s := by
  have hp : s.pending = [] := by rw [State.pending, h.pending_eq]; rfl
  refine ⟨?_, h.bound, ?_, fun _ => h.ended, fun he => absurd he h.eofs_ne, h.asserted⟩
  · rw [hp, append_nil, h.body]
  · intro bodyLength sentBytes hs
    rw [h.state_eq] at hs
    cases hs

lemma Tracked.exact (h : Tracked head stream n method version s) : Exact head.length n s := by
  rcases h.phase with hw | ht | hc
  · exact hw.exact
  · exact ht.exact
  · exact hc.exact

/-! ## Steps -/

section

variable {σ α : Type} {p : Forwarding} {data upcoming : Bytes} {s' : State}

lemma Tracked.at_point (h : Tracked head stream n method version s)
    (hr : ∀ e, s.pipe.point ≠ .failed e) (hq : ∀ e, q ≠ .failed e)
    (hre : q = .reading → s.pipe.pendingChunk = none)
    (hwr : q = .waitingWritable → s.pipe.pendingChunk ≠ none) (now : Nat) :
    Tracked head stream n method version
      { s with pipe := { s.pipe with lastActivity := now, point := q } } := by
  refine ⟨h.bytes, hwr, ?_⟩
  rcases h.phase with hw | ht | hc
  · exact .inl ⟨hw.sink_eq, hw.short, hw.pending_eq, hw.eofs_eq, hq⟩
  · have hbody := ht.body.resolve_right (fun hf => hf.1.elim hr)
    exact .inr (.inl ⟨ht.state_eq, ht.bound, ht.ended, ht.eofs_eq, .inl hbody, ht.chunk, hre, hq _⟩)
  · exact .inr (.inr ⟨hc.state_eq, hc.upcoming_eq, hc.eofs_ne, hc.pending_eq, hc.body, hc.bound,
      hc.ended, hq _⟩)

lemma flush_sink (f : ForwardedStreamSink Client) (a : Nat) :
    (sink P).flush f a = (f, .ok ()) := by
  obtain ⟨state, fake, client⟩ := f
  cases state <;> rfl

lemma Tracked.onFlushed (h : Tracked head stream n method version s)
    (hru : ∀ e, s.pipe.point ≠ .failed e) : Tracked head stream n method version
      { s with pipe := SimplexPipe.onFlushed (sink P) s.pipe 0 } := by
  simp only [SimplexPipe.onFlushed, flush_sink]
  refine h.at_point hru (fun e => ?_) (fun hr => ?_) (fun hw => ?_) s.pipe.lastActivity
  · split <;> simp
  · split at hr
    · exact isNone_iff_eq_none.mp ‹_›
    · cases hr
  · split at hw
    · cases hw
    · rename_i hs
      exact fun hn => hs (isNone_iff_eq_none.mpr hn)

lemma Tracked.onEofFlushed (h : Tracked head stream n method version s)
    (hr : ∀ e, s.pipe.point ≠ .failed e) : Tracked head stream n method version
      { s with pipe := SimplexPipe.onEofFlushed (sink P) s.pipe 0 } := by
  simp only [SimplexPipe.onEofFlushed, flush_sink]
  exact h.at_point hr (by simp) (by simp) (by simp) s.pipe.lastActivity

lemma pendingBytes_unsent (unsent : Bytes) :
    SimplexPipe.pendingBytes (if unsent = [] then none else some (.chunk unsent)) = unsent := by
  split
  · rename_i hn
    rw [hn]
    rfl
  · rfl

lemma unsent_ne_eof (unsent : Bytes) :
    (if unsent = [] then none else some (Data.chunk unsent)) ≠ some .eof := by
  split <;> simp

lemma sink_send (S : SinkCalls σ α) (p : SimplexPipe σ) (now : Nat) (data : Bytes) (a : α) :
    (SimplexPipe.send S p now (.chunk data) a (.ok ())).sink = (S.write p.sink data a).1 := by
  simp only [SimplexPipe.send]
  split
  · rename_i hw
    rw [hw]
  · rename_i hw
    rw [hw]
    rfl

lemma read_send (S : SinkCalls σ α) (p : SimplexPipe σ) (now : Nat) (data : Bytes) (a : α) :
    (SimplexPipe.send S p now (.chunk data) a (.ok ())).read = p.read := by
  simp only [SimplexPipe.send]
  split <;> rfl

lemma point_send (S : SinkCalls σ α) (p : SimplexPipe σ) (now : Nat) (data : Bytes) (a : α) :
    (SimplexPipe.send S p now (.chunk data) a (.ok ())).point ≠ .waitingWritable := by
  simp only [SimplexPipe.send]
  split <;> simp [SimplexPipe.iterate]

lemma transferring_send (now accepted : Nat)
    (hs : p.sink.state = .transferringBodyNonEncoded (some n) p.sink.client.delivered.length)
    (hb : p.sink.client.delivered.length ≤ n)
    (he : p.sink.client.eofs = if p.sink.client.delivered.length = n then 1 else 0)
    (heo : p.eofs = []) (hp : p.pendingChunk = none)
    (hbody : head ++ (p.sink.client.delivered ++ data) = p.read)
    (hc : ¬ (p.sink.client.delivered.length < n ∧
      n < p.sink.client.delivered.length + data.length)) :
    Transferring head n ⟨SimplexPipe.send (sink P) p now (.chunk data) accepted (.ok ()),
      upcoming⟩ := by
  have hsi : p.sink = ⟨.transferringBodyNonEncoded (some n) p.sink.client.delivered.length,
      p.sink.fakeUnsent, p.sink.client⟩ := by rw [← hs]
  by_cases hlt : p.sink.client.delivered.length < n
  · have hle : p.sink.client.delivered.length + data.length ≤ n := by
      by_contra h
      exact hc ⟨hlt, by omega⟩
    have hw := write_within (P := P) p.sink.fakeUnsent hlt hle accepted
    rw [← hsi] at hw
    have hlen : (p.sink.client.delivered ++ data.take accepted).length ≤ n := by
      rw [length_append, length_take]
      omega
    simp only [SimplexPipe.send, hw, SimplexPipe.iterate, hp]
    refine ⟨rfl, hlen, ?_, heo, .inl ?_, unsent_ne_eof _, (fun h => by cases h),
      (fun h => by cases h)⟩
    · simp [State.client, he, if_neg (Nat.ne_of_lt hlt)]
    · simp only [State.client, State.pending, pendingBytes_unsent]
      rw [append_assoc, take_append_drop, hbody]
  · have hw := write_surplus (P := P) p.sink.fakeUnsent p.sink.client data
      (Nat.le_of_not_lt hlt) accepted
    rw [← hsi] at hw
    simp only [SimplexPipe.send, hw]
    have ha : p.sink.client.delivered.length = n := by omega
    refine ⟨hs, hb, he, heo, .inr ⟨⟨_, rfl⟩, ha, ?_⟩, ?_, (fun h => by cases h),
      (fun h => by cases h)⟩
    · simp only [State.client]
      rw [← hbody, ← append_assoc]
      exact prefix_append _ _
    · simp [hp]

lemma not_exact_send (headLength now accepted : Nat)
    (hst : p.sink.state = .transferringBodyNonEncoded (some n) p.sink.client.delivered.length)
    (hlt : p.sink.client.delivered.length < n)
    (hcr : n < p.sink.client.delivered.length + data.length) : ¬ Exact headLength n
      ⟨SimplexPipe.send (sink P) p now (.chunk data) accepted (.ok ()), upcoming⟩ := by
  intro he
  have hsi : p.sink = ⟨.transferringBodyNonEncoded (some n) p.sink.client.delivered.length,
      p.sink.fakeUnsent, p.sink.client⟩ := by rw [← hst]
  obtain ⟨f, r, sentBytes, hw, hf, hco⟩ := write_crossing (P := P) p.sink.fakeUnsent hlt
    hcr accepted
  rw [← hsi] at hw
  have hs := sink_send (sink P) p now data accepted
  rw [hw] at hs
  refine hco ?_
  have hc := he.counter (some n) sentBytes (by simp [hs, hf])
  rwa [State.client, hs] at hc

lemma Tracked.onEof (h : Tracked head stream n method version s) (hu : s.upcoming = [])
    (ho : ∀ bodyLength sentBytes,
      s.pipe.sink.state = .transferringBodyNonEncoded bodyLength sentBytes →
        s.client.delivered.length ≠ n) (hr : s.pipe.point = .reading) (now : Nat) :
    Tracked head stream n method version
      ⟨SimplexPipe.send (sink P) s.pipe now .eof 0 (.ok ()), []⟩ := by
  have ha : s.pipe.read ++ [] = head ++ stream := by rw [← h.bytes, hu]
  rcases h.phase with hw | ht | hc
  · have he : (sink P).eof s.pipe.sink 0 = (⟨.idle, false, ⟨[], 1⟩⟩, .ok ()) := by
      rw [hw.sink_eq]
      rfl
    simp only [SimplexPipe.send, he]
    refine ⟨ha, (fun h => by cases h), .inr (.inr ⟨rfl, rfl, by simp, hw.pending_eq, ?_,
      Nat.zero_le n, fun _ => rfl, (fun h => by cases h)⟩)⟩
    exact (drop_of_length_le (Nat.le_of_lt hw.short)).symm
  · have he : (sink P).eof s.pipe.sink 0 =
        (⟨.idle, s.pipe.sink.fakeUnsent, ⟨s.client.delivered, s.client.eofs + 1⟩⟩, .ok ()) := by
      simp only [ForwardedStreamSink.calls, ForwardedStreamSink.eof, ht.state_eq, Client.calls]
      rfl
    have hno := ht.reading hr
    have hbody := ht.body.resolve_right (fun hf => by simp [hr] at hf)
    have hp : s.pending = [] := by rw [State.pending, hno]; rfl
    rw [hp, append_nil] at hbody
    simp only [SimplexPipe.send, he]
    refine ⟨ha, (fun h => by cases h), .inr (.inr ⟨rfl, rfl, by simp, hno, ?_, ht.bound,
      fun hn => absurd hn (ho _ _ ht.state_eq), (fun h => by cases h)⟩)⟩
    simp only [State.client]
    rw [← hbody, drop_left]
    rfl
  · have he : (sink P).eof s.pipe.sink 0 = (s.pipe.sink, .ok ()) := by
      simp only [ForwardedStreamSink.calls, ForwardedStreamSink.eof, hc.state_eq]
      rw [← hc.state_eq]
    simp only [SimplexPipe.send, he]
    exact ⟨ha, (fun h => by cases h), .inr (.inr ⟨hc.state_eq, rfl, by simp, hc.pending_eq,
      hc.body, hc.bound, hc.ended, (fun h => by cases h)⟩)⟩

lemma Transferring.not_exact_eof (h : Transferring head n s) (ha : s.client.delivered.length = n)
    (headLength now : Nat) :
    ¬ Exact headLength n ⟨SimplexPipe.send (sink P) s.pipe now .eof 0 (.ok ()), []⟩ := by
  intro hex
  have heo : (sink P).eof s.pipe.sink 0 =
      (⟨.idle, s.pipe.sink.fakeUnsent, ⟨s.client.delivered, s.client.eofs + 1⟩⟩, .ok ()) := by
    simp only [ForwardedStreamSink.calls, ForwardedStreamSink.eof, h.state_eq, Client.calls]
    rfl
  have he := hex.ended
  simp only [SimplexPipe.send, heo, State.client] at he
  have htwice := he (fun _ _ _ h => by cases h) ha
  have ho := h.ended
  rw [if_pos ha] at ho
  simp only [State.client] at ho
  omega

lemma Transferring.waitWritable (h : Transferring head n s) (a : Nat) :
    ∃ fake, (sink P).waitWritable s.pipe.sink a =
      (⟨s.pipe.sink.state, fake, s.client⟩, .ok ()) := by
  cases hf : s.pipe.sink.fakeUnsent with
  | true =>
    refine ⟨false, ?_⟩
    simp only [ForwardedStreamSink.calls, ForwardedStreamSink.waitWritable, hf, if_true]
    rfl
  | false =>
    refine ⟨false, ?_⟩
    simp only [ForwardedStreamSink.calls, ForwardedStreamSink.waitWritable, hf,
      Bool.false_eq_true, if_false, h.state_eq, Client.calls]
    rfl

lemma Tracked.onWritable (h : Tracked head stream n method version s)
    (hwa : s.pipe.point = .waitingWritable) (now accepted : Nat) : ∃ p : Forwarding, ∃ data : Bytes,
      SimplexPipe.onWritable (sink P) s.pipe now 0 accepted (.ok ()) =
        SimplexPipe.send (sink P) p now (.chunk data) accepted (.ok ()) ∧
      Transferring head n s ∧ p.sink.state = s.pipe.sink.state ∧ p.sink.client = s.client ∧
      p.eofs = s.pipe.eofs ∧ p.pendingChunk = none ∧ p.read = s.pipe.read ∧ data = s.pending := by
  have hs := h.writable hwa
  rcases h.phase with hw | ht | hc
  · exact absurd hw.pending_eq hs
  · obtain ⟨fake, hr⟩ := ht.waitWritable (P := P) 0
    cases hch : s.pipe.pendingChunk with
    | none => exact absurd hch hs
    | some pending =>
      cases pending with
      | eof => exact absurd hch ht.chunk
      | chunk data =>
        refine ⟨{ s.pipe with sink := ⟨s.pipe.sink.state, fake, s.client⟩, pendingChunk := none },
          data, by simp only [SimplexPipe.onWritable, hr, hch], ht, rfl, rfl, rfl, rfl, rfl, ?_⟩
        rw [State.pending, hch]
        rfl
  · exact absurd hc.pending_eq hs

lemma step_writable (hs : Tracked head stream n method version s)
    (hw : s.pipe.point = .waitingWritable) (now accepted : Nat)
    (hs' : s' = ⟨SimplexPipe.onWritable (sink P) s.pipe now 0 accepted (.ok ()), s.upcoming⟩) :
    (Meets n s (now, .writable accepted) → Tracked head stream n method version s') ∧
      (¬ Meets n s (now, .writable accepted) → ¬ Exact head.length n s') := by
  subst hs'
  obtain ⟨p, data, hse, ht, hst, hc, he, hp, hr, rfl⟩ :=
    hs.onWritable (P := P) hw now accepted
  have hbody := ht.body.resolve_right (fun hf => by simp [hw] at hf)
  have hcr : Meets n s (now, .writable accepted) ↔ ¬ Crosses n s s.pending.length := by
    simp [Meets, ht.state_eq]
  have hst' : p.sink.state =
      .transferringBodyNonEncoded (some n) p.sink.client.delivered.length := by
    rw [hst, hc, ht.state_eq]
  rw [hse]
  constructor
  · intro hm
    refine ⟨?_, fun hpo => absurd hpo (point_send _ _ _ _ _), .inr (.inl ?_)⟩
    · rw [read_send, hr]
      exact hs.bytes
    · refine transferring_send now accepted hst' ?_ ?_ (he.trans ht.eofs_eq) hp ?_ ?_
      · rw [hc]
        exact ht.bound
      · rw [hc]
        exact ht.ended
      · rw [hc, hr, hbody]
      · rw [hc]
        exact hcr.mp hm
  · intro hn
    obtain ⟨hlt, hcro⟩ := not_not.mp (fun hno => hn (hcr.mpr hno))
    refine not_exact_send head.length now accepted hst' ?_ ?_
    · rw [hc]
      exact hlt
    · rw [hc]
      exact hcro

lemma step_close (hs : Tracked head stream n method version s)
    (hr : s.pipe.point = .reading) (hu : s.upcoming = []) (now : Nat)
    (hs' : s' = ⟨SimplexPipe.send (sink P) s.pipe now .eof 0 (.ok ()), []⟩) :
    (Meets n s (now, .close) → Tracked head stream n method version s') ∧
      (¬ Meets n s (now, .close) → ¬ Exact head.length n s') := by
  subst hs'
  have hm : Meets n s (now, .close) ↔ ∀ bodyLength sentBytes,
      s.pipe.sink.state = .transferringBodyNonEncoded bodyLength sentBytes →
        s.client.delivered.length ≠ n := by
    cases hst : s.pipe.sink.state <;> simp [Meets, hst]
  refine ⟨fun h => hs.onEof hu (hm.mp h) hr now, fun hn => ?_⟩
  rcases hs.phase with hw | ht | hc
  · refine absurd ?_ hn
    simp [Meets, hw.sink_eq]
  · refine ht.not_exact_eof ?_ head.length now
    by_contra ha
    refine hn (hm.mpr fun _ _ _ => ha)
  · refine absurd ?_ hn
    simp [Meets, hc.state_eq]

end

end

/-! ## Heads -/

section

variable {P : Httparse} (h : ReverseProxy.Head P) (hle : h.response.headers.length ≤ 128) {n : Nat}
  {method : Method} {version : Version}

include hle

lemma write_head_part (method : Method) (version : Version)
    (hp : buffer ++ data <+: h.bytes) (hs : (buffer ++ data).length < h.bytes.length)
    (fake : Bool) (client : Client) (accepted : Nat) :
    (sink P).write ⟨.waitingResponse buffer method version, fake, client⟩ data accepted =
      (⟨.waitingResponse (buffer ++ data) method version, fake, client⟩, .ok []) := by
  simp [ForwardedStreamSink.calls, ForwardedStreamSink.write,
    ForwardedStreamSink.onResponseHeadersChunk, parseWithin_needMore h.reads hle hp hs]

lemma write_head_complete {converted : ResponseHeaders}
    (hconv : convertResponse method version h.response = .ok (converted, some (.determined n)))
    (hstat : 200 ≤ converted.status) {buffer data tail : Bytes}
    (hb : buffer ++ data = h.bytes ++ tail) (fake : Bool) (accepted : Nat) :
    (sink P).write ⟨.waitingResponse buffer method version, fake, ⟨[], 0⟩⟩ data accepted =
      (⟨.transferringBodyNonEncoded (some n) 0, !tail.isEmpty, ⟨[], if 0 = n then 1 else 0⟩⟩,
        .ok tail) := by
  have hf : ¬ (100 ≤ converted.status ∧ converted.status < 200) := by omega
  simp only [ForwardedStreamSink.calls, ForwardedStreamSink.write,
    ForwardedStreamSink.onResponseHeadersChunk, hb, parseWithin_complete h.reads hle, hconv,
    hf, if_false, drop_left, Client.calls]
  by_cases hn : n = 0
  · simp [hn]
  · simp [hn, Ne.symm hn]

lemma Waiting.onSegment {converted : ResponseHeaders}
    (hconv : convertResponse method version h.response = .ok (converted, some (.determined n)))
    (hstat : 200 ≤ converted.status) {stream : Bytes} {s : State}
    (hs : Waiting h.bytes.length method version s)
    (hb : s.pipe.read ++ s.upcoming = h.bytes ++ stream) (k now accepted : Nat) :
    Tracked h.bytes stream n method version
      ⟨SimplexPipe.send (sink P) { s.pipe with read := s.pipe.read ++ s.upcoming.take k } now
        (.chunk (s.upcoming.take k)) accepted (.ok ()), s.upcoming.drop k⟩ := by
  have ha : (s.pipe.read ++ s.upcoming.take k) ++ s.upcoming.drop k = h.bytes ++ stream := by
    rw [append_assoc, take_append_drop, hb]
  by_cases hsh : (s.pipe.read ++ s.upcoming.take k).length < h.bytes.length
  · have hp : s.pipe.read ++ s.upcoming.take k <+: h.bytes :=
      prefix_of_prefix_length_le ⟨_, ha⟩ (prefix_append _ _) (Nat.le_of_lt hsh)
    have hw := write_head_part h hle method version hp hsh false ⟨[], 0⟩ accepted
    rw [← hs.sink_eq] at hw
    simp only [SimplexPipe.send, hw, SimplexPipe.iterate]
    exact ⟨ha, (fun h => by cases h), .inl ⟨rfl, hsh, hs.pending_eq, hs.eofs_eq, fun e h =>
      by cases h⟩⟩
  · obtain ⟨tail, ht⟩ : h.bytes <+: s.pipe.read ++ s.upcoming.take k :=
      prefix_of_prefix_length_le (prefix_append _ _) ⟨_, ha⟩ (Nat.le_of_not_lt hsh)
    have hw := write_head_complete h hle hconv hstat ht.symm false accepted
    rw [← hs.sink_eq] at hw
    simp only [SimplexPipe.send, hw, SimplexPipe.iterate, hs.pending_eq]
    refine ⟨ha, (fun h => by cases h), .inr (.inl ⟨rfl, Nat.zero_le n, rfl, hs.eofs_eq, .inl ?_,
      unsent_ne_eof _, (fun h => by cases h), (fun h => by cases h)⟩)⟩
    simp only [State.client, State.pending, pendingBytes_unsent]
    exact ht

end

/-! ## Runs -/

section

variable {P : Httparse} (h : ReverseProxy.Head P) (hle : h.response.headers.length ≤ 128) {n : Nat}
  {method : Method} {version : Version} {converted : ResponseHeaders}
  (hconv : convertResponse method version h.response = .ok (converted, some (.determined n)))
  (hstat : 200 ≤ converted.status)

include hle hconv hstat

lemma step_segment (hs : Tracked h.bytes stream n method version s)
    (hr : s.pipe.point = .reading) (hk : k ≤ s.upcoming.length) (now accepted : Nat) (hs' : s' =
      ⟨SimplexPipe.send (sink P) { s.pipe with read := s.pipe.read ++ s.upcoming.take k } now
        (.chunk (s.upcoming.take k)) accepted (.ok ()), s.upcoming.drop k⟩) :
    (Meets n s (now, .segment k accepted) → Tracked h.bytes stream n method version s') ∧
      (¬ Meets n s (now, .segment k accepted) → ¬ Exact h.bytes.length n s') := by
  subst hs'
  have ha : (s.pipe.read ++ s.upcoming.take k) ++ s.upcoming.drop k = h.bytes ++ stream := by
    rw [append_assoc, take_append_drop, hs.bytes]
  rcases hs.phase with hw | ht | hc
  · refine ⟨fun _ => hw.onSegment h hle hconv hstat hs.bytes k now accepted, fun hn => ?_⟩
    refine absurd ?_ hn
    simp [Meets, hw.sink_eq]
  · have hlen : (s.upcoming.take k).length = k := length_take_of_le hk
    have hbody := ht.body.resolve_right (fun hf => by simp [hr] at hf)
    have hp : s.pending = [] := by rw [State.pending, ht.reading hr]; rfl
    rw [hp, append_nil] at hbody
    have hcr : Meets n s (now, .segment k accepted) ↔ ¬ Crosses n s k := by
      simp [Meets, ht.state_eq]
    constructor
    · intro hm
      refine ⟨?_, fun hpo => absurd hpo (point_send _ _ _ _ _), .inr (.inl ?_)⟩
      · rw [read_send]
        exact ha
      · refine transferring_send now accepted ht.state_eq ht.bound ht.ended ht.eofs_eq
          (ht.reading hr) ?_ ?_
        · rw [← hbody, append_assoc]
          rfl
        · rw [hlen]
          exact hcr.mp hm
    · intro hn
      obtain ⟨hlt, hcro⟩ := not_not.mp (fun hno => hn (hcr.mpr hno))
      refine not_exact_send h.bytes.length now accepted ht.state_eq hlt ?_
      rw [hlen]
      exact hcro
  · have hni : s.upcoming.take k = [] := by rw [hc.upcoming_eq, take_nil]
    have hwr : (sink P).write s.pipe.sink [] accepted =
        (s.pipe.sink, .error (.other "Invalid state")) := by
      simp [ForwardedStreamSink.calls, ForwardedStreamSink.write, hc.state_eq]
    rw [hni, append_nil] at ha ⊢
    simp only [SimplexPipe.send, hwr]
    refine ⟨fun _ => ⟨ha, (fun hpo => by cases hpo), .inr (.inr ?_)⟩, fun hn => ?_⟩
    · exact ⟨hc.state_eq, by simp [hc.upcoming_eq], hc.eofs_ne, hc.pending_eq, hc.body, hc.bound,
        hc.ended, by simp [assertionFailed, IoError.other]⟩
    · refine absurd ?_ hn
      simp [Meets, hc.state_eq]

/-- **One step** keeps the invariant exactly if it meets the condition. -/
lemma tracked_step
    (hs : Tracked h.bytes stream n method version s) (hst : step P timeout s ev = some s') :
    (Meets n s ev → Tracked h.bytes stream n method version s') ∧
      (¬ Meets n s ev → ¬ Exact h.bytes.length n s') := by
  obtain ⟨now, ev⟩ := ev
  -- an event that only moves the future on
  have hq : Meets n s (now, ev) → Tracked h.bytes stream n method version s' →
      (Meets n s (now, ev) → Tracked h.bytes stream n method version s') ∧
        (¬ Meets n s (now, ev) → ¬ Exact h.bytes.length n s') :=
    fun hm hs' => ⟨fun _ => hs', fun hn => absurd hm hn⟩
  cases ev with
  | start =>
    obtain ⟨p, hp, rfl⟩ := map_eq_some_iff.mp hst
    cases SimplexPipe.next_of_step hp with
    | start hpo =>
      refine hq (by cases hsta : s.pipe.sink.state <;> simp [Meets, hsta]) ?_
      exact hs.at_point (by rcases hpo with h | h | h <;> simp [h]) (by simp) (by simp) (by simp)
        now
  | flushed =>
    obtain ⟨p, hp, rfl⟩ := map_eq_some_iff.mp hst
    refine hq (by cases hsta : s.pipe.sink.state <;> simp [Meets, hsta]) ?_
    cases SimplexPipe.next_of_step hp with
    | flushed _ hpo => exact hs.onFlushed (by simp [hpo])
    | eofFlushed _ hpo => exact hs.onEofFlushed (by simp [hpo])
  | segment k accepted =>
    obtain ⟨hk, hst⟩ := ite_none_right_eq_some.mp hst
    obtain ⟨p, hp, rfl⟩ := map_eq_some_iff.mp hst
    cases SimplexPipe.next_of_step hp with
    | readable _ _ _ hpo =>
      exact step_segment h hle hconv hstat hs hpo hk now accepted rfl
  | close =>
    obtain ⟨hu, hst⟩ := ite_none_right_eq_some.mp hst
    obtain ⟨p, hp, rfl⟩ := map_eq_some_iff.mp hst
    cases SimplexPipe.next_of_step hp with
    | readable _ _ _ hpo => exact step_close hs hpo hu now rfl
  | writable accepted =>
    obtain ⟨p, hp, rfl⟩ := map_eq_some_iff.mp hst
    cases SimplexPipe.next_of_step hp with
    | writable _ _ _ hpo => exact step_writable hs hpo now accepted rfl
  | timeout =>
    obtain ⟨p, hp, rfl⟩ := map_eq_some_iff.mp hst
    cases SimplexPipe.next_of_step hp with
    | timeout hpo =>
      refine hq (by cases hsta : s.pipe.sink.state <;> simp [Meets, hsta]) ?_
      exact hs.at_point hpo (by simp) (by simp) (by simp) s.pipe.lastActivity
  | drop =>
    obtain ⟨p, hp, rfl⟩ := map_eq_some_iff.mp hst
    cases SimplexPipe.next_of_step hp with
    | drop hpo =>
      refine hq (by cases hsta : s.pipe.sink.state <;> simp [Meets, hsta]) ?_
      exact hs.at_point hpo (by simp) (by simp) (by simp) s.pipe.lastActivity

omit hle hconv hstat in
lemma tracked_init (stream : Bytes) (now : Nat) :
    Tracked h.bytes stream n method version (init method version now (h.bytes ++ stream)) :=
  ⟨rfl, (fun hp => by cases hp), .inl ⟨rfl, length_pos_iff.mpr h.ne_nil, rfl, rfl,
    fun _ hp => by cases hp⟩⟩

end

/-! ## Whole runs -/

section

variable {P : Httparse} {h : ReverseProxy.Head P} {n : Nat} (hlen : HasLength h n)
  (hbody : h.response.code ≠ 204 ∧ h.response.code ≠ 304)
  (hle : h.response.headers.length ≤ 128) (hfits : n < 2 ^ 64)
  (hkept : lengthDropped hopHeaders h.response.headers = false)
  {method : Method} (hmeth : method ≠ .head)

include hlen hbody hle hfits hkept hmeth

/-- **The promise of the length** is kept exactly if all steps meet the condition. -/
theorem exact_iff (version : Version) (stream : Bytes) (timeout now : Nat)
    (events : List (Nat × Event)) :
    EveryState (step P timeout) (Exact h.bytes.length n)
        (init method version now (h.bytes ++ stream)) events ↔
      EveryStep (step P timeout) (Meets n) (init method version now (h.bytes ++ stream))
        events := by
  have hn : ∀ x ∈ h.response.headers, isToken (Text.trimEnd x.name) := fun x hx => by
    obtain ⟨ht, htr⟩ := isToken_of_lowercase (h.headers_valid x hx).1
    rw [htr, ht]
  have hconv := Truncation.convertResponse_length hlen hn
    (isBodiless_eq_false hmeth ⟨h.status_valid.1, hbody⟩) version
  rw [Truncation.lengthFound, hkept, if_neg Bool.false_ne_true, if_pos hfits] at hconv
  refine everyState_iff_everyStep ?_
    (fun s (hs : Tracked h.bytes stream n method version s) => hs.exact) ?_ events
    (tracked_init h stream now)
  · intro s ev s' hs hm hst
    exact (tracked_step h hle hconv h.status_valid.1 hs hst).1 hm
  · intro s ev s' hs hno hst
    exact (tracked_step h hle hconv h.status_valid.1 hs hst).2 hno

end

/-- The body in two segments, taken in three writes. -/
def helloEvents : List (Nat × Event) :=
  [(0, .start), (0, .flushed), (1, .segment 38 0), (1, .flushed), (2, .segment 2 1), (2, .flushed),
    (3, .writable 1), (3, .flushed), (4, .segment 3 3), (4, .flushed)]

theorem hello_exact : EveryState (step scanner 10) (Exact 38 5)
      (init .get .http2 0 (headBytes helloLines ++ utf8 "hello")) helloEvents := by
  refine (exact_iff hasLength_helloHead (by decide +kernel) (by decide +kernel)
    (by decide) (by decide +kernel) (by decide) .http2 (utf8 "hello") 10 0 helloEvents).mpr ?_
  decide +kernel

/-- The body comes with a byte more. -/
def surplusEvents (accepted : Nat) : List (Nat × Event) :=
  [(0, .start), (0, .flushed), (1, .segment 38 0), (1, .flushed), (2, .segment 6 accepted)]

def closingEvents : List (Nat × Event) :=
  [(0, .start), (0, .flushed), (1, .segment 43 0), (1, .flushed), (2, .writable 5), (2, .flushed),
    (3, .close)]

def State.outcome (s : State) : Client × SinkState × Bool :=
  (s.client, s.pipe.sink.state, decide (s.pipe.point = .failed assertionFailed))

lemma Exact.outcome (h : Exact headLength n s) (hs : s.outcome = (client, state, failed)) :
    (∀ bodyLength sentBytes, state = .transferringBodyNonEncoded bodyLength sentBytes →
      sentBytes = client.delivered.length) ∧
    ((∀ buffer method version, state ≠ .waitingResponse buffer method version) →
      client.delivered.length = n → client.eofs = 1) ∧ failed = false := by
  obtain ⟨hc, hr⟩ := Prod.mk.inj hs
  obtain ⟨hst, hf⟩ := Prod.mk.inj hr
  rw [← hc, ← hst, ← hf]
  exact ⟨h.counter, h.ended, decide_eq_false h.asserted⟩

/-- No end and a counter of six, a failed assertion, and two ends. -/
theorem hello_not_exact : (∃ s, run (step scanner 10)
        (init .get .http2 0 (headBytes helloLines ++ utf8 "hello!"))
        (surplusEvents 5) = some s ∧
      s.outcome = (⟨utf8 "hello", 0⟩, .transferringBodyNonEncoded (some 5) 6, false) ∧
      ¬ Exact 38 5 s) ∧
    (∃ s, run (step scanner 10)
        (init .get .http2 0 (headBytes helloLines ++ utf8 "hello!"))
        (surplusEvents 4) = some s ∧
      s.outcome = (⟨utf8 "hell", 0⟩, .transferringBodyNonEncoded (some 5) 5, true) ∧
      ¬ Exact 38 5 s) ∧
    ∃ s, run (step scanner 10)
        (init .get .http2 0 (headBytes helloLines ++ utf8 "hello"))
        closingEvents = some s ∧
      s.outcome = (⟨utf8 "hello", 2⟩, .idle, false) ∧ ¬ Exact 38 5 s := by
  refine ⟨?_, ?_, ?_⟩
  · have hr : (run (step scanner 10)
        (init .get .http2 0 (headBytes helloLines ++ utf8 "hello!"))
        (surplusEvents 5)).map State.outcome =
          some (⟨utf8 "hello", 0⟩, .transferringBodyNonEncoded (some 5) 6, false) := by
      decide +kernel
    obtain ⟨s, hs, ho⟩ := map_eq_some_iff.mp hr
    refine ⟨s, hs, ho, fun h => ?_⟩
    have hc := (h.outcome ho).1 _ _ rfl
    revert hc
    decide +kernel
  · have hr : (run (step scanner 10)
        (init .get .http2 0 (headBytes helloLines ++ utf8 "hello!"))
        (surplusEvents 4)).map State.outcome =
          some (⟨utf8 "hell", 0⟩, .transferringBodyNonEncoded (some 5) 5, true) := by
      decide +kernel
    obtain ⟨s, hs, ho⟩ := map_eq_some_iff.mp hr
    refine ⟨s, hs, ho, fun h => ?_⟩
    cases (h.outcome ho).2.2
  · have hr : (run (step scanner 10)
        (init .get .http2 0 (headBytes helloLines ++ utf8 "hello"))
        closingEvents).map State.outcome = some (⟨utf8 "hello", 2⟩, .idle, false) := by
      decide +kernel
    obtain ⟨s, hs, ho⟩ := map_eq_some_iff.mp hr
    refine ⟨s, hs, ho, fun h => ?_⟩
    have he := (h.outcome ho).2.1 (fun _ _ _ => by simp) (by decide +kernel)
    cases he

end TrustTunnel.FixedLength
