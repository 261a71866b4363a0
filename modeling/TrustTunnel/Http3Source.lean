import TrustTunnel.Http3Channels

/-!
# The source of an HTTP/3 stream

The codec puts a message into the source's channel for data, but not for the end of the request.
-/

namespace TrustTunnel.Http3Codec

open Option AList

def State.queued (s : State) (n : Nat) : Bool := (s.halves.lookup n).any Half.queued

structure Connected (streamId n : Nat) (s : State) : Prop where
  wired : Wired s
  stream : ∃ stream, s.streams.lookup streamId = some stream ∧ stream.readableEventTx = n ∧
    stream.writeShutdown = false
  held : ∃ half, s.halves.lookup n = some half ∧ half.streamId = streamId ∧ half.status = .held
  silent : ∀ direction, StreamMessage.shutdown streamId direction ∉ s.messages

structure Spares (x : Builders) (streamId : Nat) (s : State) (event : Event) : Prop where
  request : requestedBy x event ≠ some streamId
  halves : ∀ m half, s.halves.lookup m = some half → half.streamId = streamId →
    event ≠ .drop m ∧ event ≠ .respondedEof m

section

variable {x : Builders} {s s' : State} {streamId n : Nat} {event : Event}

lemma connected_onRequest (hs : Known s requested)
    (hn : streamId ∉ requested) : Connected streamId s.nextHalf (onRequest s streamId) where
  wired := wired_onRequest hs.wired streamId
  stream := ⟨_, lookup_insert _, rfl, rfl⟩
  held := ⟨_, source_onRequest s streamId, rfl, rfl⟩
  silent _ hm := hn (hs.messages _ hm)

lemma stream_shutDown {id : Nat} {direction : Option Direction} {stream other : Stream}
    (hs : s.streams.lookup streamId = some stream) (hop : stream.writeShutdown = false)
    (ho : s.streams.lookup id = some other) (hsp : id = streamId → direction = some .read) :
    ∃ stream', (s.shutDown id other direction).streams.lookup streamId = some stream' ∧
      stream'.readableEventTx = stream.readableEventTx ∧ stream'.writeShutdown = false := by
  simp only [State.shutDown]
  by_cases hid : streamId = id
  · subst hid
    obtain rfl := hsp rfl
    rw [hs] at ho
    cases ho
    have hc : (stream.close (some .read)).writeShutdown = false := by
      show (stream.writeShutdown || false) = false
      rw [hop, Bool.or_false]
    have hb : (stream.close (some .read)).bothShut = false := by
      rw [Stream.bothShut, hc, Bool.and_false]
    rw [hb, if_neg Bool.false_ne_true]
    exact ⟨_, lookup_insert _, rfl, hc⟩
  · refine ⟨stream, ?_, rfl, hop⟩
    split
    · rw [lookup_erase_ne hid, hs]
    · rw [lookup_insert_ne hid, hs]

lemma stream_onEvent (hs : Connected streamId n s) (hsp : Spares x streamId s event)
    (h : onEvent x s event = some (.listening s')) :
    ∃ stream, s'.streams.lookup streamId = some stream ∧ stream.readableEventTx = n ∧
      stream.writeShutdown = false := by
  obtain ⟨stream, hst, rfl, hop⟩ := hs.stream
  cases change_onEvent h with
  | request hr =>
    rename_i id
    refine ⟨stream, ?_, rfl, hop⟩
    have hid : streamId ≠ id := by
      rintro rfl
      exact hsp.request hr
    show lookup streamId (insert id _ s.streams) = _
    rw [lookup_insert_ne hid, hst]
  | shutdown _ ho hot =>
    refine stream_shutDown hst hop hot fun hid => ?_
    subst hid
    cases ho with
    | poll => rfl
    | message hm =>
      -- no shutdown of the stream is on its way
      have hno := hs.silent
      rw [hm] at hno
      exact absurd List.mem_cons_self (hno _)
  | frame _ _ hf =>
    rw [hf.streams]
    exact ⟨stream, hst, rfl, hop⟩

/-- **The source stays connected.** -/
lemma connected_onEvent (hs : Connected streamId n s) (hsp : Spares x streamId s event)
    (h : onEvent x s event = some (.listening s')) : Connected streamId n s' := by
  obtain ⟨half, hh, hid, hhe⟩ := hs.held
  obtain ⟨hw, hf, -⟩ := wiredStep_onEvent hs.wired h
  refine ⟨hw, stream_onEvent hs hsp h, ?_, ?_⟩
  · obtain ⟨half', hh', hst⟩ := hf n half hh
    refine ⟨half', hh', hst.streamId.trans hid, ?_⟩
    rcases hst.status with hsa | rfl | rfl
    · exact hsa.trans hhe
    · exact absurd rfl (hsp.halves n half hh hid).1
    · -- only a half that is being dropped can be gone
      simp only [onEvent, withHalf, hh, bind_some, hhe, reduceCtorEq, if_false, map_none] at h
  · intro direction hms
    rcases messages_onEvent h hms with hold | ⟨m, half, hh, hse⟩
    · exact hs.silent direction hold
    · have hm : half.streamId = streamId := hse.streamId.symm
      rcases hse with ⟨rfl, -⟩ | ⟨-, hno⟩ | ⟨rfl, -⟩
      · exact (hsp.halves m half hh hm).1 rfl
      · cases hno
      · exact (hsp.halves m half hh hm).2 rfl

lemma queued_onEvent (hs : Connected streamId n s) (he : event ≠ .received n)
    (h : onEvent x s event = some (.listening s')) (hq : s.queued n) : s'.queued n := by
  obtain ⟨half, hh, -⟩ := hs.held
  obtain ⟨half', hh', hst⟩ := (wiredStep_onEvent hs.wired h).follows n half hh
  simp only [State.queued, hh, hh', any_some] at hq ⊢
  exact (hst.stays hq).resolve_right he

lemma onEvent_of_event
    (h : processPendingH3Events x poll = .ok (some socketEvent)) (capacity : Nat → Option Nat)
    (closed : Bool) : onEvent x s (.poll poll capacity closed) =
      some (.of (if closed then .error (.connection (.ofKind .unexpectedEof))
        else onSocketEvent capacity s socketEvent)) := by
  rw [onEvent, onPoll_of_event h]

lemma onEvent_data (hs : Connected streamId n s) (capacity : Nat → Option Nat) :
    ∃ s', onEvent x s (.poll (.data streamId) capacity false) = some (.listening s') ∧
      s'.queued n := by
  obtain ⟨stream, hst, rfl, -⟩ := hs.stream
  obtain ⟨half, hh, -, hhe⟩ := hs.held
  have ho : half.status ≠ .dropped := by
    rw [hhe]
    decide
  rw [onEvent_of_event rfl]
  cases hq : half.queued with
  | true =>
    have hse : trySend s stream.readableEventTx = .error .full := by
      simp [trySend, hh, if_neg ho, hq]
    refine ⟨s, ?_, by rw [State.queued, hh, any_some, hq]⟩
    simp only [Bool.false_eq_true, if_false, onSocketEvent, onStreamReadable, hst, hse]
    rfl
  | false =>
    have hse : trySend s stream.readableEventTx = .ok { s with
        halves := s.halves.insert stream.readableEventTx { half with queued := true } } := by
      simp [trySend, hh, if_neg ho, hq]
    refine ⟨{ s with halves := s.halves.insert stream.readableEventTx { half with queued :=
      true } },
      ?_, ?_⟩
    · simp only [Bool.false_eq_true, if_false, onSocketEvent, onStreamReadable, hst, hse]
      rfl
    · rw [State.queued, lookup_insert]
      rfl

lemma onEvent_finished (hs : Connected streamId n s) (capacity : Nat → Option Nat) :
    ∃ s', onEvent x s (.poll (.finished streamId) capacity false) = some (.listening s') ∧
      s'.halves = s.halves := by
  obtain ⟨stream, hst, -⟩ := hs.stream
  rw [onEvent_of_event rfl]
  simp only [Bool.false_eq_true, if_false, onSocketEvent, onStreamShutdown_eq hst]
  exact ⟨_, rfl, rfl⟩

lemma onEvent_received (hs : Connected streamId n s) :
    (∃ s', onEvent x s (.received n) = some (.listening s') ∧ s.queued n ∧ s'.queued n = false) ∨
      onEvent x s (.received n) = none ∧ s.queued n = false := by
  obtain ⟨half, hh, -, hhe⟩ := hs.held
  cases hq : half.queued with
  | true =>
    refine .inl ⟨{ s with halves := s.halves.insert n { half with queued := false } }, ?_, ?_, ?_⟩
    · simp [onEvent, withHalf, hh, hhe, hq]
    · rw [State.queued, hh, any_some, hq]
    · rw [State.queued, lookup_insert]
      rfl
  | false =>
    refine .inr ⟨?_, ?_⟩
    · simp [onEvent, withHalf, hh, hhe, hq]
    · rw [State.queued, hh, any_some, hq]

end

end TrustTunnel.Http3Codec
