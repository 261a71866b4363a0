import TrustTunnel.Http3Isolation

/-!
# The channels of an HTTP/3 codec

A source is told about data of its own stream, a sink about its capacity.
-/

namespace TrustTunnel.Http3Codec

open Lib AList Table List Option

structure Wired (s : State) : Prop where
  numbered : ∀ n half, s.halves.lookup n = some half → n < s.nextHalf
  source : ∀ streamId stream, s.streams.lookup streamId = some stream →
    ∃ half, s.halves.lookup stream.readableEventTx = some half ∧ half.streamId = streamId ∧
      half.direction = .read
  sink : ∀ streamId stream, s.streams.lookup streamId = some stream →
    ∃ half, s.halves.lookup stream.writableEventTx = some half ∧ half.streamId = streamId ∧
      half.direction = .write

def Notifies (event : Event) (half : Half) : Prop :=
  match half.direction with
  | .read => ∃ capacity closed, event = .poll (.data half.streamId) capacity closed
  | .write => ∃ poll capacity closed cap, event = .poll poll capacity closed ∧
      capacity half.streamId = some cap ∧ minUsableQuicStreamCapacity ≤ cap

/-- A message is in its channel if it was put there and not taken out. -/
structure HalfStep (event : Event) (n : Nat) (half half' : Half) : Prop where
  streamId : half'.streamId = half.streamId
  direction : half'.direction = half.direction
  queued : half'.queued = true → half.queued = true ∨ Notifies event half
  stays : half.queued = true → half'.queued = true ∨ event = .received n
  status : half'.status = half.status ∨ event = .drop n ∨ event = .gone n

lemma HalfStep.refl (event : Event) (n : Nat) (half : Half) : HalfStep event n half half :=
  ⟨rfl, rfl, .inl, .inl, .inl rfl⟩

lemma HalfStep.trans (h : HalfStep event n half half') (h' : HalfStep event n half' half'') :
    HalfStep event n half half'' where
  streamId := h'.streamId.trans h.streamId
  direction := h'.direction.trans h.direction
  queued hq := by
    rcases h'.queued hq with hold | hn
    · exact h.queued hold
    · right
      simpa only [Notifies, h.streamId, h.direction] using hn
  stays hq := by
    rcases h.stays hq with hs | hr
    · exact h'.stays hs
    · exact .inr hr
  status := by
    rcases h'.status with hsa | he
    · rw [hsa]
      exact h.status
    · exact .inr he

structure HalvesFollow (R : Nat → Half → Half → Prop) (s s' : State) : Prop where
  nextHalf : s'.nextHalf = s.nextHalf
  old : ∀ n, n ∈ s'.halves → n ∈ s.halves
  follows : ∀ n half, s.halves.lookup n = some half →
    ∃ half', s'.halves.lookup n = some half' ∧ R n half half'

section

variable {R : Nat → Half → Half → Prop} {s s' s'' : State}

lemma halvesFollow_of_eq (hr : ∀ n half, R n half half) (hne : s'.nextHalf = s.nextHalf)
    (h : s'.halves = s.halves) : HalvesFollow R s s' where
  nextHalf := hne
  old n hn := by rwa [h] at hn
  follows n half hh := ⟨half, by rw [h, hh], hr n half⟩

lemma HalvesFollow.trans
    (ht : ∀ {n half half' half''}, R n half half' → R n half' half'' → R n half half'')
    (h : HalvesFollow R s s') (h' : HalvesFollow R s' s'') : HalvesFollow R s s'' where
  nextHalf := h'.nextHalf.trans h.nextHalf
  old n hn := h.old n (h'.old n hn)
  follows n half hh := by
    obtain ⟨half', hh', hf⟩ := h.follows n half hh
    obtain ⟨half'', hh'', hf'⟩ := h'.follows n half' hh'
    exact ⟨half'', hh'', ht hf hf'⟩

lemma halvesFollow_insert (hr : ∀ n half, R n half half)
    (hh : s.halves.lookup n = some half) (h : R n half half') :
    HalvesFollow R s { s with halves := s.halves.insert n half' } where
  nextHalf := rfl
  old m hm := by
    rcases (mem_insert _).mp hm with rfl | hm
    · exact mem_of_lookup hh
    · exact hm
  follows m other ho := by
    by_cases hm : m = n
    · subst hm
      rw [hh] at ho
      cases ho
      exact ⟨half', lookup_insert _, h⟩
    · exact ⟨other, by rw [lookup_insert_ne hm, ho], hr m other⟩

end

/-! ## Shutdowns -/

section

variable {streamId : Nat} {stream : Stream} {direction : Option Direction} {s s' : State}

def Stream.shut (stream : Stream) : Direction → Bool
  | .read => stream.readShutdown
  | .write => stream.writeShutdown

def closes (direction : Option Direction) (d : Direction) : Bool := direction.all (· = d)

def Stream.close (stream : Stream) (direction : Option Direction) : Stream :=
  { stream with
    readShutdown := stream.readShutdown || closes direction .read
    writeShutdown := stream.writeShutdown || closes direction .write }

@[simp] lemma Stream.shut_close (stream : Stream) (direction : Option Direction) (d : Direction) :
    (stream.close direction).shut d = (stream.shut d || closes direction d) := by
  cases d <;> rfl

def shutdownCalls (streamId : Nat) (stream : Stream) (direction : Option Direction) :
    List (Nat × Direction) :=
  ([.read, .write].filter (fun d => closes direction d && !stream.shut d)).map (fun d => (streamId, d))

def Stream.bothShut (stream : Stream) : Bool := stream.readShutdown && stream.writeShutdown

def State.shutDown (s : State) (streamId : Nat) (stream : Stream) (direction : Option Direction) : State :=
  { s with
    shutdowns := s.shutdowns ++ shutdownCalls streamId stream direction
    streams :=
      if (stream.close direction).bothShut then s.streams.erase streamId
      else s.streams.insert streamId (stream.close direction) }

lemma onStreamShutdown_eq (hs : s.streams.lookup streamId = some stream)
    (direction : Option Direction) :
    onStreamShutdown s streamId direction = .ok (s.shutDown streamId stream direction) := by
  have hc : shutdownCalls streamId stream direction =
      (if closes direction .read && !stream.readShutdown then [(streamId, .read)] else []) ++
        (if closes direction .write && !stream.writeShutdown then [(streamId, .write)] else
          []) := by
    cases hr : closes direction .read && !stream.readShutdown <;>
      cases hw : closes direction .write && !stream.writeShutdown <;>
      simp [shutdownCalls, Stream.shut, hr, hw]
  simp only [onStreamShutdown, State.shutDown, hs, hc, ← append_assoc]
  rcases direction with _ | _ | _ <;> rfl

lemma onStreamShutdown_eq_ok (h : onStreamShutdown s streamId direction = .ok s') :
    ∃ stream, s.streams.lookup streamId = some stream ∧
      s' = s.shutDown streamId stream direction := by
  cases hs : s.streams.lookup streamId with
  | none =>
    simp only [onStreamShutdown, hs] at h
    cases h
  | some stream =>
    rw [onStreamShutdown_eq hs] at h
    cases h
    exact ⟨stream, rfl, rfl⟩

end

/-! ## What an event does -/

section

variable {s s' : State} {n : Nat} {capacity : Nat → Option Nat} {socketEvent : QuicSocketEvent}
  {x : Builders} {poll : Poll} {closed : Bool} {event : Event}

def requestedBy (x : Builders) : Event → Option Nat
  | .poll (.headers streamId list) _ false =>
    match requestOf x list with
    | .ok _ => some streamId
    | .error _ => none
  | _ => none

def QuicSocketEvent.requested : QuicSocketEvent → Option Nat
  | .request streamId _ => some streamId
  | _ => none

lemma requestedBy_poll (h : processPendingH3Events x poll = .ok o)
    (capacity : Nat → Option Nat) (closed : Bool) : requestedBy x (.poll poll capacity closed) =
      if closed then none else o.bind QuicSocketEvent.requested := by
  cases poll with
  | headers =>
    simp only [processPendingH3Events] at h
    split at h
    · rename_i hr
      cases h
      cases closed
      · simp only [requestedBy, hr]
        rfl
      · rfl
    · cases h
  | _ => cases h <;> cases closed <;> rfl

def Sends (event : Event) (n : Nat) (half : Half) (message : StreamMessage) : Prop :=
  event = .drop n ∧ message = .shutdown half.streamId (some half.direction) ∨
    event = .waitWritable n ∧ message = .waitingWritable half.streamId ∨
      event = .respondedEof n ∧ message = .shutdown half.streamId none

structure Frame (event : Event) (s s' : State) : Prop where
  streams : s'.streams = s.streams
  shutdowns : s'.shutdowns = s.shutdowns
  messages : s'.messages = s.messages
  halves : Wired s → HalvesFollow (HalfStep event) s s'

inductive Ordered (s : State) : Event → List StreamMessage → Nat → Option Direction → Prop
  | poll {poll : Poll} {capacity : Nat → Option Nat} {closed : Bool} {streamId : Nat} :
      Ordered s (.poll poll capacity closed) s.messages streamId (some .read)
  | message {messages : List StreamMessage} {streamId : Nat} {direction : Option Direction} :
      s.messages = .shutdown streamId direction :: messages → Ordered s .message messages streamId direction

/-- A stream is requested or shut down, or the table stays. -/
inductive Change (x : Builders) (event : Event) (s : State) : State → Prop
  | request {streamId : Nat} : requestedBy x event = some streamId → Change x event s (onRequest s streamId)
  | shutdown {messages : List StreamMessage} {streamId : Nat} {stream : Stream} {direction : Option Direction} :
      requestedBy x event = none → Ordered s event messages streamId direction →
      s.streams.lookup streamId = some stream →
      Change x event s (State.shutDown { s with messages := messages } streamId stream direction)
  | frame {messages : List StreamMessage} {s' : State} : requestedBy x event = none →
      (∀ message ∈ messages, message ∈ s.messages ∨
        ∃ n half, s.halves.lookup n = some half ∧ Sends event n half message) →
      Frame event { s with messages := messages } s' → Change x event s s'

def SameChannels (s s' : State) : Prop :=
  ∀ streamId stream', s'.streams.lookup streamId = some stream' →
    ∃ stream, s.streams.lookup streamId = some stream ∧
      stream'.readableEventTx = stream.readableEventTx ∧ stream'.writableEventTx = stream.writableEventTx

lemma sameChannels_of_eq (h : s'.streams = s.streams) : SameChannels s s' := by
  intro streamId stream' hs
  rw [h] at hs
  exact ⟨stream', hs, rfl, rfl⟩

lemma wired_of_follow (hs : Wired s) (h : HalvesFollow R s s')
    (hR : ∀ {n half half'}, R n half half' →
      half'.streamId = half.streamId ∧ half'.direction = half.direction)
    (hstr : SameChannels s s') : Wired s' where
  numbered n half hh := by
    obtain ⟨old, hold⟩ := exists_lookup (h.old n (mem_of_lookup hh))
    rw [h.nextHalf]
    exact hs.numbered n old hold
  source streamId stream' hst := by
    obtain ⟨stream, hold, hc, -⟩ := hstr streamId stream' hst
    obtain ⟨half, hh, hid, hd⟩ := hs.source streamId stream hold
    obtain ⟨half', hh', hf⟩ := h.follows _ half hh
    exact ⟨half', by rw [hc, hh'], (hR hf).1.trans hid, (hR hf).2.trans hd⟩
  sink streamId stream' hst := by
    obtain ⟨stream, hold, -, hc⟩ := hstr streamId stream' hst
    obtain ⟨half, hh, hid, hd⟩ := hs.sink streamId stream hold
    obtain ⟨half', hh', hf⟩ := h.follows _ half hh
    exact ⟨half', by rw [hc, hh'], (hR hf).1.trans hid, (hR hf).2.trans hd⟩

lemma wired_of_halfStep (hs : Wired s) (h : HalvesFollow (HalfStep event) s s')
    (hst : SameChannels s s') : Wired s' :=
  wired_of_follow hs h (fun hR => ⟨hR.streamId, hR.direction⟩) hst

lemma frame_of_halves (hs : s'.streams = s.streams) (hsh : s'.shutdowns = s.shutdowns)
    (hm : s'.messages = s.messages) (hn : s'.nextHalf = s.nextHalf)
    (hh : s'.halves = s.halves) : Frame event s s' :=
  ⟨hs, hsh, hm, fun _ => halvesFollow_of_eq (.refl _) hn hh⟩

lemma Frame.refl (event : Event) (s : State) :
    Frame event s s := frame_of_halves rfl rfl rfl rfl rfl

lemma Frame.trans (h : Frame event s s') (h' : Frame event s' s'') : Frame event s s'' where
  streams := h'.streams.trans h.streams
  shutdowns := h'.shutdowns.trans h.shutdowns
  messages := h'.messages.trans h.messages
  halves hs := by
    have hf := h.halves hs
    exact hf.trans .trans (h'.halves (wired_of_halfStep hs hf (sameChannels_of_eq h.streams)))

lemma Change.stays (hr : requestedBy x event = none) (h : Frame event s s') :
    Change x event s s' :=
  .frame hr (fun _ => .inl) h

lemma frame_trySend (h : trySend s n = .ok s')
    (hn : Wired s → ∀ half, s.halves.lookup n = some half → Notifies event half) :
    Frame event s s' := by
  unfold trySend at h
  split at h
  · cases h
  · rename_i half hh
    split at h
    · cases h
    · split at h
      · cases h
      · cases h
        refine ⟨rfl, rfl, rfl, fun hs => halvesFollow_insert (.refl event) hh ?_⟩
        exact ⟨rfl, rfl, fun _ => .inr (hn hs half hh), fun _ => .inl rfl, .inl rfl⟩

lemma frame_notifyStreamWaitingWritable (event : Event) (s : State) (streamId : Nat) :
    Frame event s (notifyStreamWaitingWritable s streamId) := by
  unfold notifyStreamWaitingWritable
  split
  · exact .refl event s
  · exact frame_of_halves rfl rfl rfl rfl rfl

lemma frame_notifyWritableStream (poll : Poll) (capacity : Nat → Option Nat) (closed : Bool)
    (s : State) (streamId : Nat) :
    Frame (.poll poll capacity closed) s (notifyWritableStream capacity s streamId) := by
  unfold notifyWritableStream
  split
  · exact .refl _ s
  · exact .refl _ s
  · rename_i stream cap hst hc
    split
    · exact frame_notifyStreamWaitingWritable _ s streamId
    · rename_i he
      split
      · rename_i hse
        refine frame_trySend hse fun hs half hh => ?_
        obtain ⟨half', hh', hid, hd⟩ := hs.sink streamId stream hst
        cases hh.symm.trans hh'
        simp only [Notifies, hd]
        exact ⟨poll, capacity, closed, cap, rfl, by rw [hid, hc], Nat.not_lt.mp he⟩
      · exact .refl _ s

lemma frame_foldl (poll : Poll) (capacity : Nat → Option Nat) (closed : Bool) (streams : List Nat)
    (s : State) :
    Frame (.poll poll capacity closed) s (streams.foldl (notifyWritableStream capacity) s) := by
  induction streams generalizing s with
  | nil => exact .refl _ s
  | cons streamId streams ih => exact (frame_notifyWritableStream poll capacity closed s streamId).trans (ih _)

lemma poll_of_readable (h : processPendingH3Events x poll = .ok (some (.readable streamId))) :
    poll = .data streamId := by
  cases poll with
  | data =>
    cases h
    rfl
  | headers =>
    simp only [processPendingH3Events] at h
    split at h <;> cases h
  | _ => cases h

lemma change_onSocketEvent (he : processPendingH3Events x poll = .ok (some socketEvent))
    (h : onSocketEvent capacity s socketEvent = .ok s') :
      Change x (.poll poll capacity false) s s' := by
  have hr := requestedBy_poll he capacity false
  cases socketEvent with
  | request =>
    cases h
    exact .request hr
  | readable streamId =>
    refine .stays hr ?_
    obtain rfl := poll_of_readable he
    simp only [onSocketEvent, onStreamReadable] at h
    split at h
    · cases h
    · rename_i stream hst
      split at h
      · rename_i hse
        cases h
        refine frame_trySend hse fun hs half hh => ?_
        obtain ⟨half', hh', rfl, hd⟩ := hs.source streamId stream hst
        cases hh.symm.trans hh'
        simp only [Notifies, hd]
        exact ⟨capacity, false, rfl⟩
      · cases h
        exact .refl _ s
      · cases h
  | writable streams =>
    cases h
    exact .stays hr (frame_foldl poll capacity false streams s)
  | close =>
    simp only [onSocketEvent] at h
    split at h
    · rename_i hsh
      cases h
      obtain ⟨stream, hst, rfl⟩ := onStreamShutdown_eq_ok hsh
      exact .shutdown hr .poll hst
    · cases h
      exact .stays hr (.refl _ s)

/-- What the poll gave is handled, or waiting streams are told. -/
lemma change_onPoll (h : onPoll x poll capacity closed s = .ok s') :
    Change x (.poll poll capacity closed) s s' := by
  cases he : processPendingH3Events x poll with
  | error =>
    simp only [onPoll, he] at h
    cases h
  | ok o =>
    cases o with
    | some =>
      rw [onPoll_of_event he] at h
      cases closed with
      | true => cases h
      | false => exact change_onSocketEvent he h
    | none =>
      have hr : requestedBy x (.poll poll capacity closed) = none := by
        rw [requestedBy_poll he]
        exact ite_self none
      refine .stays hr ?_
      have hw : ∀ waiting, Frame (.poll poll capacity closed) s { s with waitingWritable :=
        waiting } :=
        fun _ => frame_of_halves rfl rfl rfl rfl rfl
      simp only [onPoll, he] at h
      change (if _ then _ else if _ then _ else _) = _ at h
      split at h
      · cases h
        exact hw _
      · split at h
        · cases h
        · cases h
          exact (hw _).trans (frame_foldl poll capacity closed _ _)

/-- A stream waits for capacity, or is shut down if it is in the table. -/
lemma onMessage_cases (s : State) (message : StreamMessage) :
    (∃ streamId, message = .waitingWritable streamId ∧
      onMessage s message = notifyStreamWaitingWritable s streamId) ∨
    ∃ streamId direction, message = .shutdown streamId direction ∧
      (s.streams.lookup streamId = none ∧ onMessage s message = s ∨
        onStreamShutdown s streamId direction = .ok (onMessage s message)) := by
  cases message with
  | waitingWritable streamId => exact .inl ⟨streamId, rfl, rfl⟩
  | shutdown streamId direction =>
    refine .inr ⟨streamId, direction, rfl, ?_⟩
    cases hs : s.streams.lookup streamId with
    | none =>
      have hf : ∀ direction, onStreamShutdown s streamId direction =
          .error (.ofKind .notFound) := by
        intro direction
        simp [onStreamShutdown, hs]
      left
      simp [onMessage, onStreamMessage, StreamMessage.streamId, hf]
    | some =>
      right
      simp [onMessage, onStreamMessage, onStreamShutdown, hs]

lemma onMessage_of_onEvent (h : onEvent x s .message = some (.listening s')) :
    ∃ message messages, s.messages = message :: messages ∧ s.streams.entries ≠ [] ∧
      s' = onMessage { s with messages := messages } message := by
  simp only [onEvent] at h
  split at h
  · cases h
  · rename_i message messages hm
    split at h
    · cases h
    · rename_i he
      cases h
      exact ⟨message, messages, hm, he, rfl⟩

lemma change_message (h : onEvent x s .message = some (.listening s')) :
    Change x .message s s' := by
  obtain ⟨message, messages, hms, -, rfl⟩ := onMessage_of_onEvent h
  have hold : ∀ m ∈ messages, m ∈ s.messages := by
    intro m hm
    rw [hms]
    exact mem_cons_of_mem message hm
  rcases onMessage_cases { s with messages := messages } message with
    ⟨streamId, -, heq⟩ | ⟨streamId, direction, rfl, ⟨-, heq⟩ | hs⟩
  · rw [heq]
    exact .frame rfl (fun m hm => .inl (hold m hm)) (frame_notifyStreamWaitingWritable _ _ streamId)
  · rw [heq]
    exact .frame rfl (fun m hm => .inl (hold m hm)) (.refl _ _)
  · obtain ⟨stream, hst, heq⟩ := onStreamShutdown_eq_ok hs
    rw [heq]
    exact .shutdown rfl (.message hms) hst

lemma withHalf_eq_some (h : (withHalf s n status f).map Codec.listening = some (.listening s')) :
    ∃ half, s.halves.lookup n = some half ∧ f half = some s' := by
  obtain ⟨s1, hs1, hs'⟩ := map_eq_some_iff.mp h
  cases hs'
  obtain ⟨half, hh, hg⟩ := bind_eq_some_iff.mp hs1
  exact ⟨half, hh, (ite_none_right_eq_some.mp hg).2⟩

lemma change_half (hr : requestedBy x event = none)
    (hh : s.halves.lookup n = some half) (hst : HalfStep event n half half')
    (hm : ∀ message ∈ messages, message ∈ s.messages ∨ Sends event n half message) :
    Change x event s { s with halves := s.halves.insert n half', messages := messages } := by
  refine .frame hr (fun message hms => ?_)
    ⟨rfl, rfl, rfl, fun _ => halvesFollow_insert (.refl event) hh hst⟩
  exact (hm message hms).imp_right fun hs => ⟨n, half, hh, hs⟩

lemma change_send (hr : requestedBy x event = none)
    (hh : s.halves.lookup n = some half) (hs : Sends event n half message) :
    Change x event s (send s message) := by
  refine .frame hr (fun m hm => ?_) (.refl event _)
  rcases mem_append.mp hm with hold | hn
  · exact .inl hold
  · rw [mem_singleton.mp hn]
    exact .inr ⟨n, half, hh, hs⟩

/-- **What an event does.** -/
lemma change_onEvent (h : onEvent x s event = some (.listening s')) : Change x event s s' := by
  cases event with
  | poll poll capacity closed =>
    refine change_onPoll ?_
    cases hp : onPoll x poll capacity closed s <;> rw [onEvent, hp] at h <;> cases h
    rfl
  | closeMessage closed =>
    cases closed with
    | true => cases h
    | false =>
      cases h
      exact .stays rfl (.refl _ s)
  | muxGone => cases h
  | message => exact change_message h
  | drop =>
    obtain ⟨half, hh, ⟨⟩⟩ := withHalf_eq_some h
    refine change_half rfl hh ⟨rfl, rfl, .inl, .inl, .inr (.inl rfl)⟩ fun message hm => ?_
    exact (mem_append.mp hm).imp_right fun hn => .inl ⟨rfl, mem_singleton.mp hn⟩
  | gone =>
    obtain ⟨half, hh, ⟨⟩⟩ := withHalf_eq_some h
    exact change_half rfl hh ⟨rfl, rfl, .inl, .inl, .inr (.inr rfl)⟩ fun _ => .inl
  | received =>
    obtain ⟨half, hh, hf⟩ := withHalf_eq_some h
    obtain ⟨-, ⟨⟩⟩ := ite_none_right_eq_some.mp hf
    refine change_half rfl hh ⟨rfl, rfl, fun hfa => ?_, fun _ => .inr rfl, .inl rfl⟩ fun _ => .inl
    cases hfa
  | waitWritable =>
    obtain ⟨half, hh, hf⟩ := withHalf_eq_some h
    obtain ⟨-, ⟨⟩⟩ := ite_none_right_eq_some.mp hf
    exact change_send rfl hh (.inr (.inl ⟨rfl, rfl⟩))
  | respondedEof =>
    obtain ⟨half, hh, hf⟩ := withHalf_eq_some h
    obtain ⟨-, ⟨⟩⟩ := ite_none_right_eq_some.mp hf
    exact change_send rfl hh (.inr (.inr ⟨rfl, rfl⟩))

end

/-! ## Channels and messages -/

section

variable {s s' : State} {event : Event} {x : Builders} {n : Nat} {message : StreamMessage}
  {requested : List Nat}

structure WiredStep (x : Builders) (event : Event) (s s' : State) : Prop where
  wired : Wired s'
  follows : ∀ n half, s.halves.lookup n = some half →
    ∃ half', s'.halves.lookup n = some half' ∧ HalfStep event n half half'
  origin : ∀ n half', s'.halves.lookup n = some half' →
    n ∈ s.halves ∨ requestedBy x event = some half'.streamId

lemma wiredStep_of_follow (hs : Wired s) (h : HalvesFollow (HalfStep event) s s')
    (hst : SameChannels s s') : WiredStep x event s s' :=
  ⟨wired_of_halfStep hs h hst, h.follows, fun n _ hh => .inl (h.old n (mem_of_lookup hh))⟩

lemma lookup_onRequest (hs : Wired s) (hh : s.halves.lookup n = some half)
    (streamId : Nat) : (onRequest s streamId).halves.lookup n = some half := by
  have hn := hs.numbered n half hh
  show lookup n (insert _ _ (insert _ _ s.halves)) = _
  rw [lookup_insert_ne (by omega), lookup_insert_ne (by omega), hh]

lemma source_onRequest (s : State) (streamId : Nat) :
    (onRequest s streamId).halves.lookup s.nextHalf = some ⟨streamId, .read, false, .held⟩ := by
  show lookup s.nextHalf (insert _ _ (insert _ _ s.halves)) = _
  rw [lookup_insert_ne (by omega), lookup_insert]

lemma wired_onRequest (hs : Wired s) (streamId : Nat) : Wired (onRequest s streamId) := by
  refine ⟨?_, ?_, ?_⟩
  · intro n half hh
    show n < s.nextHalf + 2
    rcases lookup_insert_cases hh with ⟨rfl, -⟩ | ⟨-, hh⟩
    · omega
    · rcases lookup_insert_cases hh with ⟨rfl, -⟩ | ⟨-, hh⟩
      · omega
      · have hn := hs.numbered n half hh
        omega
  · intro id stream hst
    rcases lookup_insert_cases hst with ⟨rfl, rfl⟩ | ⟨-, hst⟩
    · exact ⟨_, source_onRequest s id, rfl, rfl⟩
    · obtain ⟨half, hh, hr⟩ := hs.source id stream hst
      exact ⟨half, lookup_onRequest hs hh streamId, hr⟩
  · intro id stream hst
    rcases lookup_insert_cases hst with ⟨rfl, rfl⟩ | ⟨-, hst⟩
    · exact ⟨⟨id, .write, false, .held⟩, lookup_insert _, rfl, rfl⟩
    · obtain ⟨half, hh, hr⟩ := hs.sink id stream hst
      exact ⟨half, lookup_onRequest hs hh streamId, hr⟩

lemma wiredStep_onRequest (hs : Wired s) (he : requestedBy x event = some streamId) :
    WiredStep x event s (onRequest s streamId) := by
  refine ⟨wired_onRequest hs streamId, ?_, ?_⟩
  · intro n half hh
    exact ⟨half, lookup_onRequest hs hh streamId, .refl event n half⟩
  · intro n half hh
    rcases lookup_insert_cases hh with ⟨-, rfl⟩ | ⟨-, hh⟩
    · exact .inr he
    · rcases lookup_insert_cases hh with ⟨-, rfl⟩ | ⟨-, hh⟩
      · exact .inr he
      · exact .inl (mem_of_lookup hh)

lemma sameChannels_shutDown
    (hs : s.streams.lookup streamId = some stream) (direction : Option Direction) :
      SameChannels s (s.shutDown streamId stream direction) := by
  intro id stream' hs'
  simp only [State.shutDown] at hs'
  split at hs'
  · exact ⟨stream', (lookup_erase_cases hs').2, rfl, rfl⟩
  · rcases lookup_insert_cases hs' with ⟨rfl, rfl⟩ | ⟨-, hold⟩
    · exact ⟨stream, hs, rfl, rfl⟩
    · exact ⟨stream', hold, rfl, rfl⟩

/-- **The channels**, after one event. -/
lemma wiredStep_onEvent (hs : Wired s) (h : onEvent x s event = some (.listening s')) :
    WiredStep x event s s' := by
  cases change_onEvent h with
  | request hr => exact wiredStep_onRequest hs hr
  | shutdown _ _ hst =>
    exact wiredStep_of_follow hs (halvesFollow_of_eq (.refl _) rfl rfl)
      (sameChannels_shutDown hst _)
  | frame _ _ hf =>
    obtain ⟨hn, hold, hfo⟩ := hf.halves ⟨hs.numbered, hs.source, hs.sink⟩
    exact wiredStep_of_follow hs ⟨hn, hold, hfo⟩ (sameChannels_of_eq hf.streams)

lemma wired_init : Wired init :=
  ⟨fun _ _ h => (by cases h), fun _ _ h => (by cases h), fun _ _ h => (by cases h)⟩

lemma messages_onEvent (h : onEvent x s event = some (.listening s'))
    (hm : message ∈ s'.messages) : message ∈ s.messages ∨ ∃ n half, s.halves.lookup n = some half ∧
      Sends event n half message := by
  cases change_onEvent h with
  | request => exact .inl hm
  | shutdown _ ho =>
    left
    cases ho with
    | poll => exact hm
    | message hms =>
      rw [hms]
      exact mem_cons_of_mem _ hm
  | frame _ hms hf =>
    rw [hf.messages] at hm
    exact hms message hm

lemma Sends.streamId (h : Sends event n half message) : message.streamId = half.streamId := by
  rcases h with ⟨-, rfl⟩ | ⟨-, rfl⟩ | ⟨-, rfl⟩ <;> rfl

structure Known (s : State) (requested : List Nat) : Prop where
  wired : Wired s
  halves : ∀ n half, s.halves.lookup n = some half → half.streamId ∈ requested
  messages : ∀ message ∈ s.messages, message.streamId ∈ requested

lemma known_init : Known init [] :=
  ⟨wired_init, fun _ _ h => (by cases h), fun _ h => (by cases h)⟩

lemma known_onEvent (hs : Known s requested) (h : onEvent x s event = some (.listening s')) :
    Known s' ((requestedBy x event).toList ++ requested) := by
  obtain ⟨hw, hf, ho⟩ := wiredStep_onEvent hs.wired h
  refine ⟨hw, ?_, ?_⟩
  · intro n half' hh'
    rcases ho n half' hh' with hold | hn
    · obtain ⟨half, hh⟩ := exists_lookup hold
      obtain ⟨half'', hh'', hst⟩ := hf n half hh
      cases hh'.symm.trans hh''
      rw [hst.streamId]
      exact mem_append_right _ (hs.halves n half hh)
    · rw [hn]
      exact mem_append_left _ (mem_singleton_self _)
  · intro message hm
    refine mem_append_right _ ?_
    rcases messages_onEvent h hm with hold | ⟨n, half, hh, hse⟩
    · exact hs.messages message hold
    · rw [hse.streamId]
      exact hs.halves n half hh

def noteRequest (x : Builders) (_ : Codec) (event : Event) (_ : Codec) (requested : List Nat) :
    List Nat :=
  (requestedBy x event).toList ++ requested

def KnownCodec : Codec × List Nat → Prop
  | (.listening s, requested) => Known s requested
  | (.ended _, _) => True

lemma known_run (h : run (observed (step x) (noteRequest x)) (.listening init, []) events =
      some (.listening s, requested)) : Known s requested := by
  have hi : KnownCodec (.listening init, []) := known_init
  change KnownCodec (.listening s, requested)
  refine run_invariant ?_ hi h
  rintro ⟨codec, requested⟩ event c' hc hs
  obtain ⟨codec', he, rfl⟩ := observed_eq_some hs
  cases codec with
  | ended => cases he
  | listening =>
    cases codec' with
    | ended => trivial
    | listening => exact known_onEvent hc he

end

end TrustTunnel.Http3Codec
