import TrustTunnel.Http3Sink

/-!
# Sinks of an HTTP/3 connection that wait

A waiting sink is woken at a capacity of `minUsableQuicStreamCapacity`, and waits again if that is
not enough.
-/

namespace TrustTunnel.Http3Codec

open Io Http Lib List AList Option

def Action.half : Action → Option Nat
  | .codec _ => none
  | .sendResponse half _ _ _ | .write half _ _ | .eof half | .waitWritable half _ | .flush half
  | .woken half _ _ | .cancelled half | .writeDatagram half _ _ _ => some half

/-- The capacity is `k` throughout, and the sink does nothing but wait. -/
def Steady (half streamId k : Nat) (sending : Sending) : Action → Prop
  | .codec (.poll _ capacity _) => capacity streamId = some k
  | .woken n capacity sending' => n = half → capacity = some k ∧ sending' = sending
  | action => action.half ≠ some half

def isRound (half : Nat) : Action → Bool
  | .woken n _ _ => n = half
  | _ => false

/-- However long the capacity stays the same. -/
def BoundedRounds (x : Builders) (c : Connection) (half streamId k : Nat) (sending : Sending) : Prop :=
  ∃ bound, ∀ actions c', run (Connection.step x) c actions = some c' →
    (∀ action ∈ actions, Steady half streamId k sending action) →
    actions.countP (isRound half) ≤ bound

lemma steady_cases (h : Steady half streamId k sending action) : (∃ event, action = .codec event ∧
      ∀ poll capacity closed, event = .poll poll capacity closed → capacity streamId = some k) ∨
    (∃ n, action.half = some n ∧ n ≠ half ∧ isRound half action = false) ∨
    action = .woken half (some k) sending := by
  cases action with
  | codec event =>
    refine .inl ⟨event, rfl, ?_⟩
    rintro poll capacity closed rfl
    exact h
  | woken n =>
    by_cases hn : n = half
    · obtain ⟨rfl, rfl⟩ := h hn
      rw [hn]
      exact .inr (.inr rfl)
    · exact .inr (.inl ⟨n, rfl, hn, decide_eq_false hn⟩)
  | _ => exact .inr (.inl ⟨_, rfl, fun hn => h (congrArg some hn), rfl⟩)

namespace Connection

/-! ## The calls of a sink -/

section

variable {c c' : Connection} {n : Nat} {sink : Sink}

section

variable {half half' : Half} {x : Builders} {capacity : Option Nat} {sending : Sending}

/-- The half is a sink of the stream. -/
def Owned (n : Nat) (c : Connection) (streamId : Nat) : Prop :=
  (∃ half, c.codec.halves.lookup n = some half ∧ half.streamId = streamId ∧ half.direction = .write) ∨
    ∃ sink, c.sinks.lookup n = some sink ∧ sink.streamId = streamId

structure HalfKept (_n : Nat) (half half' : Half) : Prop where
  streamId : half'.streamId = half.streamId
  direction : half'.direction = half.direction
  queued : half'.queued = true → half.queued = true

lemma HalfKept.refl (n : Nat) (half : Half) : HalfKept n half half := ⟨rfl, rfl, id⟩

lemma HalfKept.trans (h : HalfKept n half half')
    (h' : HalfKept n half' half'') : HalfKept n half half'' :=
  ⟨h'.streamId.trans h.streamId, h'.direction.trans h.direction, fun hq => h.queued (h'.queued hq)⟩

/-- What a call of a sink keeps. -/
structure CallStep (n : Nat) (c c' : Connection) : Prop where
  streams : c'.codec.streams = c.codec.streams
  follow : HalvesFollow HalfKept c.codec c'.codec
  halves : ∀ m, m ≠ n → c'.codec.halves.lookup m = c.codec.halves.lookup m
  sinks : ∀ m, m ≠ n → c'.sinks.lookup m = c.sinks.lookup m
  own : ∀ sink, c'.sinks.lookup n = some sink → Owned n c sink.streamId

lemma callStep_of_eq (hc : c'.codec.streams = c.codec.streams)
    (hn : c'.codec.nextHalf = c.codec.nextHalf) (hh : c'.codec.halves = c.codec.halves)
    (hs : c'.sinks = c.sinks) : CallStep n c c' where
  streams := hc
  follow := halvesFollow_of_eq .refl hn hh
  halves m _ := by rw [hh]
  sinks m _ := by rw [hs]
  own sink hsi := .inr ⟨sink, hs ▸ hsi, rfl⟩

lemma CallStep.trans (h : CallStep n c c') (h' : CallStep n c' c'') : CallStep n c c'' where
  streams := h'.streams.trans h.streams
  follow := h.follow.trans .trans h'.follow
  halves m hm := (h'.halves m hm).trans (h.halves m hm)
  sinks m hm := (h'.sinks m hm).trans (h.sinks m hm)
  own sink hs := by
    rcases h'.own sink hs with ⟨half', hh', hid, hd⟩ | ⟨sink', hs', hid⟩
    · obtain ⟨half, hh⟩ := Table.exists_lookup (h.follow.old n (Table.mem_of_lookup hh'))
      obtain ⟨half'', hh'', hf⟩ := h.follow.follows n half hh
      cases hh'.symm.trans hh''
      exact .inl ⟨half, hh, hf.streamId.symm.trans hid, hf.direction.symm.trans hd⟩
    · rw [← hid]
      exact h.own sink' hs'

lemma callStep_post (n : Nat) (c : Connection) (message : StreamMessage) :
    CallStep n c (c.post message) :=
  callStep_of_eq rfl rfl rfl rfl

lemma callStep_call (n : Nat) (c : Connection) (call : SocketCall) : CallStep n c (c.call call) :=
  callStep_of_eq rfl rfl rfl rfl

lemma callStep_store (ho : Owned n c sink.streamId) : CallStep n c (c.store n sink) where
  streams := rfl
  follow := halvesFollow_of_eq .refl rfl rfl
  halves _ _ := rfl
  sinks _ hm := lookup_insert_ne hm
  own sink' hs := by
    rcases Table.lookup_insert_cases hs with ⟨-, rfl⟩ | ⟨hne, -⟩
    · exact ho
    · exact absurd rfl hne

/-- Only the status of the half changes. -/
lemma callStep_insert (hh : c.codec.halves.lookup n = some half) (h : HalfKept n half half') :
    CallStep n c { c with codec := { c.codec with halves := c.codec.halves.insert n half' } } :=
  ⟨rfl, halvesFollow_insert .refl hh h, fun _ hm => lookup_insert_ne hm,
    fun _ _ => rfl, fun sink hs => .inr ⟨sink, hs, rfl⟩⟩

lemma callStep_trySendPendingResponse (n : Nat) (c : Connection) (sink : Sink)
    (sending : Sending) : CallStep n c (c.trySendPendingResponse sink sending).1 := by
  unfold trySendPendingResponse
  split
  · rename_i eof _
    cases eof with
    | true => exact (callStep_call n c _).trans (callStep_post n _ _)
    | false => exact callStep_call n c _
  · exact callStep_of_eq rfl rfl rfl rfl

lemma streamId_trySendPendingResponse (c : Connection) (sink : Sink) (sending : Sending) :
    (c.trySendPendingResponse sink sending).2.streamId = sink.streamId := by
  unfold trySendPendingResponse
  split <;> rfl

lemma callStep_waitBodyCapacity (ho : Owned n c sink.streamId) (capacity : Option Nat) :
    CallStep n c (c.waitBodyCapacity n sink capacity) := by
  unfold waitBodyCapacity
  split
  · exact callStep_store ho
  · refine CallStep.trans ?_ (callStep_post n _ _)
    exact callStep_store ho

lemma callStep_flushTurn (ho : Owned n c sink.streamId) : CallStep n c (c.flushTurn n sink) := by
  unfold flushTurn
  split
  · refine CallStep.trans ?_ (callStep_post n _ _)
    exact callStep_store ho
  · exact callStep_store ho

lemma owned_trySendPendingResponse (ho : Owned n c streamId) (sending : Sending) :
    Owned n (c.trySendPendingResponse sink sending).1 streamId := by
  unfold trySendPendingResponse
  split
  · rename_i eof _
    cases eof <;> exact ho
  · exact ho

lemma callStep_dropSink (hh : c.codec.halves.lookup n = some half) :
    CallStep n c (c.dropSink n half) := by
  have hd : HalfKept n half { half with status := .dropping } := ⟨rfl, rfl, id⟩
  exact (callStep_insert hh hd).trans (callStep_post n _ _)

lemma woken_eq_some (h : c.step x (.woken n capacity sending) = some c') :
    ∃ half sink c1, c.codec.halves.lookup n = some half ∧ half.queued ∧
      c.sinks.lookup n = some sink ∧ c1 = { c with codec := { c.codec with
        halves := c.codec.halves.insert n { half with queued := false } } } ∧
      (sink.waiting = some .writable ∧ c' = c1.waitBodyCapacity n sink capacity ∨
        sink.waiting = some .flush ∧
          ((∃ e, sending = .failed e) ∧ c' = c1.store n { sink with waiting := none } ∨
            (∀ e, sending ≠ .failed e) ∧ c' = (c1.trySendPendingResponse sink sending).1.flushTurn n
              (c1.trySendPendingResponse sink sending).2)) := by
  obtain ⟨half, sink, hh, hs, -, hf⟩ := withSink_eq_some h
  split at hf
  · rename_i hq
    refine ⟨half, sink, _, hh, hq, hs, rfl, ?_⟩
    simp only at hf
    split at hf
    · cases hf
    · rename_i hw
      cases hf
      exact .inl ⟨hw, rfl⟩
    · rename_i hw
      cases hf
      exact .inr ⟨hw, .inl ⟨⟨_, rfl⟩, rfl⟩⟩
    · rename_i hw hok
      cases hf
      exact .inr ⟨hw, .inr ⟨hok, rfl⟩⟩
  · cases hf

lemma callStep_of_woken (h : c.step x (.woken n capacity sending) = some c') :
    ∃ half, c.codec.halves.lookup n = some half ∧ half.queued ∧
      CallStep n { c with codec := { c.codec with
        halves := c.codec.halves.insert n { half with queued := false } } } c' := by
  obtain ⟨half, sink, c1, hh, hq, hs, rfl, hn⟩ := woken_eq_some h
  refine ⟨half, hh, hq, ?_⟩
  have ho : Owned n { c with codec := { c.codec with
      halves := c.codec.halves.insert n { half with queued := false } } } sink.streamId :=
    .inr ⟨sink, hs, rfl⟩
  rcases hn with ⟨-, rfl⟩ | ⟨-, ⟨-, rfl⟩ | ⟨-, rfl⟩⟩
  · exact callStep_waitBodyCapacity ho capacity
  · exact callStep_store ho
  · refine (callStep_trySendPendingResponse n _ sink sending).trans (callStep_flushTurn ?_)
    rw [streamId_trySendPendingResponse]
    exact owned_trySendPendingResponse ho sending

lemma callStep_of_step (ha : action.half = some n)
    (h : c.step x action = some c') : CallStep n c c' := by
  cases action with
  | codec => cases ha
  | sendResponse m response eof sending =>
    cases ha
    simp only [step] at h
    split at h
    · rename_i half hh _
      split at h
      · rename_i hg
        split at h
        · cases h
          exact callStep_dropSink hh
        · cases h
          have ho : Owned n c half.streamId := .inl ⟨half, hh, rfl, hg.2⟩
          refine (callStep_trySendPendingResponse n c _ sending).trans (callStep_store ?_)
          rw [streamId_trySendPendingResponse]
          exact owned_trySendPendingResponse ho sending
      · cases h
    · cases h
  | write m data =>
    cases ha
    obtain ⟨half, sink, -, hs, -, hf⟩ := withSink_eq_some h
    have ho : Owned n c sink.streamId := .inr ⟨sink, hs, rfl⟩
    split at hf
    · cases hf
      exact callStep_store ho
    · cases hf
      refine (callStep_call n c (.body sink.streamId data)).trans ?_
      exact callStep_store ho
  | eof =>
    cases ha
    obtain ⟨half, sink, -, hs, -, hf⟩ := withSink_eq_some h
    have ho : Owned n c sink.streamId := .inr ⟨sink, hs, rfl⟩
    cases hf
    refine (callStep_call n c (.shutdownWrite sink.streamId)).trans ?_
    exact callStep_store ho
  | waitWritable m capacity =>
    cases ha
    obtain ⟨half, sink, -, hs, -, hf⟩ := withSink_eq_some h
    cases hf
    exact callStep_waitBodyCapacity (.inr ⟨sink, hs, rfl⟩) capacity
  | flush =>
    cases ha
    obtain ⟨half, sink, -, hs, -, hf⟩ := withSink_eq_some h
    cases hf
    exact callStep_flushTurn (.inr ⟨sink, hs, rfl⟩)
  | woken =>
    cases ha
    obtain ⟨half, hh, -, hn⟩ := callStep_of_woken h
    have ht : HalfKept n half { half with queued := false } := ⟨rfl, rfl, fun h => by cases h⟩
    exact (callStep_insert hh ht).trans hn
  | cancelled =>
    cases ha
    obtain ⟨half, sink, -, hs, -, hf⟩ := withSink_eq_some h
    have ho : Owned n c sink.streamId := .inr ⟨sink, hs, rfl⟩
    cases hf
    exact callStep_store ho
  | writeDatagram =>
    cases ha
    obtain ⟨half, sink, -, -, -, hf⟩ := withSink_eq_some h
    split at hf
    · cases hf
      exact callStep_call n c _
    · cases hf
      exact callStep_of_eq rfl rfl rfl rfl

end

end

/-! ## Rounds that need a message -/

section

variable {x : Builders} {c c' : Connection} {half streamId k : Nat} {sending : Sending} {action : Action}

structure Watched (half streamId : Nat) (c : Connection) : Prop where
  wired : Wired c.codec
  own : ∃ h, c.codec.halves.lookup half = some h ∧ h.streamId = streamId ∧ h.direction = .write

def inQueue (half : Nat) (c : Connection) : Nat :=
  if (c.codec.halves.lookup half).any (·.queued) then 1 else 0

lemma inQueue_le (hh : c.codec.halves.lookup half = some h)
    (hh' : c'.codec.halves.lookup half = some h') (hqu : h'.queued → h.queued) :
    inQueue half c' ≤ inQueue half c := by
  simp only [inQueue, hh, hh', any_some]
  cases hq' : h'.queued with
  | false => exact Nat.zero_le _
  | true => rw [hqu hq']

lemma onCodec_cases (h : c.onCodec x event = some c') : c'.sinks = c.sinks ∧ (c'.codec = c.codec ∨
      onEvent x c.codec event = some (.listening c'.codec)) := by
  unfold onCodec at h
  split at h
  · cases h
  · cases h
    exact ⟨rfl, .inl rfl⟩
  · rename_i hs
    cases h
    exact ⟨rfl, .inr hs⟩

lemma codec_of_step (h : c.step x (.codec event) = some c') :
    c'.sinks = c.sinks ∧ (c'.codec = c.codec ∨
      onEvent x c.codec event = some (.listening c'.codec)) := by
  obtain ⟨-, h⟩ := ite_none_left_eq_some.mp h
  exact onCodec_cases h

lemma wired_step (hw : Wired c.codec) (h : c.step x action = some c') :
    Wired c'.codec ∧ ∀ n half, c.codec.halves.lookup n = some half →
      ∃ half', c'.codec.halves.lookup n = some half' ∧ half'.streamId = half.streamId ∧
        half'.direction = half.direction := by
  cases hh : action.half with
  | none =>
    cases action with
    | codec =>
      rcases (codec_of_step h).2 with hsa | he
      · rw [hsa]
        exact ⟨hw, fun n half hh => ⟨half, hh, rfl, rfl⟩⟩
      · obtain ⟨hw', hf, -⟩ := wiredStep_onEvent hw he
        refine ⟨hw', fun n half hh => ?_⟩
        obtain ⟨half', hh', hst⟩ := hf n half hh
        exact ⟨half', hh', hst.streamId, hst.direction⟩
    | _ => cases hh
  | some =>
    have hc := callStep_of_step hh h
    have hch : SameChannels c.codec c'.codec := by
      intro id stream hs
      rw [hc.streams] at hs
      exact ⟨stream, hs, rfl, rfl⟩
    refine ⟨wired_of_follow hw hc.follow (fun hR => ⟨hR.streamId, hR.direction⟩) hch, ?_⟩
    intro m half hh
    obtain ⟨half', hh', hk⟩ := hc.follow.follows m half hh
    exact ⟨half', hh', hk.streamId, hk.direction⟩

lemma watched_step (hc : Watched half streamId c) (h : c.step x action = some c') :
    Watched half streamId c' := by
  obtain ⟨hw, own, ho, hid, hd⟩ := hc
  obtain ⟨hw', hk⟩ := wired_step hw h
  obtain ⟨own', ho', hid', hd'⟩ := hk half own ho
  exact ⟨hw', own', ho', hid'.trans hid, hd'.trans hd⟩

structure SinksOwned (c : Connection) : Prop where
  wired : Wired c.codec
  own : ∀ n sink, c.sinks.lookup n = some sink → Watched n sink.streamId c

lemma sinksOwned_new : SinksOwned new := ⟨wired_init, fun _ _ h => by cases h⟩

lemma sinksOwned_step (hc : SinksOwned c) (h : c.step x action = some c') : SinksOwned c' := by
  refine ⟨(wired_step hc.wired h).1, fun n sink hs => watched_step ?_ h⟩
  cases hh : action.half with
  | none =>
    cases action with
    | codec =>
      rw [(codec_of_step h).1] at hs
      exact hc.own n sink hs
    | _ => cases hh
  | some m =>
    have hca := callStep_of_step hh h
    by_cases hn : n = m
    · subst hn
      rcases hca.own sink hs with ho | ⟨sink', hs', hid⟩
      · exact ⟨hc.wired, ho⟩
      · rw [← hid]
        exact hc.own n sink' hs'
    · rw [hca.sinks n hn] at hs
      exact hc.own n sink hs

lemma inQueue_step (hk : k < minUsableQuicStreamCapacity) (hc : Watched half streamId c)
    (hs : Steady half streamId k sending action) (h : c.step x action = some c') :
    inQueue half c' + (if isRound half action then 1 else 0) ≤ inQueue half c := by
  obtain ⟨hw, own, ho, hid, hd⟩ := hc
  rcases steady_cases hs with ⟨event, rfl, hca⟩ | ⟨n, hh, hn, hr⟩ | rfl
  · rcases (codec_of_step h).2 with hsa | he
    · simp [inQueue, hsa, isRound]
    · obtain ⟨own', ho', hf⟩ := (wiredStep_onEvent hw he).follows half own ho
      refine inQueue_le ho ho' fun hqu => (hf.queued hqu).resolve_right ?_
      simp only [Notifies, hd, hid]
      rintro ⟨poll, capacity, closed, cap, hpoll, hcap, hle⟩
      rw [hca poll capacity closed hpoll] at hcap
      cases hcap
      exact absurd hk (Nat.not_lt.mpr hle)
  · simp [inQueue, (callStep_of_step hh h).halves half hn.symm, hr]
  · obtain ⟨h0, hh, hqu, hne⟩ := callStep_of_woken h
    -- nothing is put into the channel that was emptied
    obtain ⟨h1, hhalf1, hf⟩ :=
      hne.follow.follows half { h0 with queued := false } (lookup_insert _)
    have hem : h1.queued = false := by
      cases hq : h1.queued with
      | false => rfl
      | true => cases hf.queued hq
    simp [inQueue, hh, hqu, hhalf1, hem, isRound]

lemma rounds_le_of_queued (hk : k < minUsableQuicStreamCapacity) (hc : Watched half streamId c)
    (hr : run (step x) c actions = some c')
    (hst : ∀ action ∈ actions, Steady half streamId k sending action) :
    actions.countP (isRound half) ≤ 1 := by
  have hcount : actions.countP (isRound half) + inQueue half c' ≤ inQueue half c :=
    count_le_of_potential (Watched half streamId) (isRound half) (inQueue half)
      (fun c action c' hc hok hs => ⟨watched_step hc hs, inQueue_step hk hc hok hs⟩) hc
      (everyStep_of_forall c hst) hr
  have hle : inQueue half c ≤ 1 := by
    unfold inQueue
    split
    · exact Nat.le_refl 1
    · exact Nat.zero_le 1
  omega

/-! ## Rounds that are enough -/

/-- The sink does not wait again. -/
def Settled (k : Nat) (sending : Sending) (sink : Sink) : Prop :=
  match sink.waiting with
  | none => True
  | some .writable => sink.dataFrameOverhead < k
  | some .flush => sending ≠ .blocked

def inWait (half : Nat) (c : Connection) : Nat :=
  if (c.sinks.lookup half).any (·.waiting.isSome) then 1 else 0

def SettledAt (half k : Nat) (sending : Sending) (c : Connection) : Prop :=
  ∀ sink, c.sinks.lookup half = some sink → Settled k sending sink

lemma waiting_of_woken (hc : SettledAt half k sending c)
    (h : c.step x (.woken half (some k) sending) = some c') :
    ∃ sink, c'.sinks.lookup half = some sink ∧ sink.waiting = none := by
  obtain ⟨h0, sink, c1, -, -, hsi, -, hn⟩ := woken_eq_some h
  have hs := hc sink hsi
  rcases hn with ⟨hw, rfl⟩ | ⟨hw, ⟨-, rfl⟩ | ⟨hok, rfl⟩⟩
  · simp only [Settled, hw] at hs
    rw [waitBodyCapacity, if_pos (by simpa using hs)]
    exact ⟨_, lookup_insert _, rfl⟩
  · exact ⟨_, lookup_insert _, rfl⟩
  · simp only [Settled, hw] at hs
    have hse : (c1.trySendPendingResponse sink sending).2.pendingResponse = none := by
      cases sending with
      | sent =>
        unfold trySendPendingResponse
        cases hp : sink.pendingResponse with
        | none => exact hp
        | some => rfl
      | blocked => exact absurd rfl hs
      | failed e => exact absurd rfl (hok e)
    rw [flushTurn, hse]
    exact ⟨_, lookup_insert _, rfl⟩

lemma inWait_step (hc : SettledAt half k sending c)
    (hst : Steady half streamId k sending action) (h : c.step x action = some c') :
    SettledAt half k sending c' ∧
      inWait half c' + (if isRound half action then 1 else 0) ≤ inWait half c := by
  rcases steady_cases hst with ⟨event, rfl, -⟩ | ⟨n, hh, hn, hr⟩ | rfl
  · have hs := (codec_of_step h).1
    refine ⟨fun sink hsi => hc sink (hs ▸ hsi), ?_⟩
    simp [inWait, hs, isRound]
  · have hsa := (callStep_of_step hh h).sinks half hn.symm
    refine ⟨fun sink hsi => hc sink (hsa ▸ hsi), ?_⟩
    simp [inWait, hsa, hr]
  · obtain ⟨sink', hsi', hno⟩ := waiting_of_woken hc h
    obtain ⟨h0, sink, c1, -, -, hsi, -, hne⟩ := woken_eq_some h
    have hw : sink.waiting.isSome := by
      rcases hne with ⟨hw, -⟩ | ⟨hw, -⟩ <;> rw [hw] <;> rfl
    refine ⟨fun sink1 hsink1 => ?_, ?_⟩
    · cases hsi'.symm.trans hsink1
      simp [Settled, hno]
    · simp [inWait, hsi, hsi', hw, hno, isRound]

lemma rounds_le_of_settled (hc : SettledAt half k sending c)
    (hr : run (step x) c actions = some c')
    (hs : ∀ action ∈ actions, Steady half streamId k sending action) :
    actions.countP (isRound half) ≤ 1 := by
  have hcount : actions.countP (isRound half) + inWait half c' ≤ inWait half c :=
    count_le_of_potential (SettledAt half k sending) (isRound half) (inWait half)
      (fun c action c' hc hok hst => inWait_step hc hok hst) hc (everyStep_of_forall c hs) hr
  have hle : inWait half c ≤ 1 := by
    unfold inWait
    split
    · exact Nat.le_refl 1
    · exact Nat.zero_le 1
  omega

end

/-! ## Rounds without end -/

def oneStream (messages : List StreamMessage) (waiting : List Nat) (queued : Bool) (sink : Sink)
    (calls : List SocketCall) : Connection :=
  ⟨⟨(∅ : Table Nat Stream).insert 0 ⟨0, 1, false, false⟩,
      ((∅ : Table Nat Half).insert 0 ⟨0, .read, false, .held⟩).insert 1 ⟨0, .write, queued, .held⟩,
      2, messages, waiting, []⟩,
    false, (∅ : Table Nat Sink).insert 1 sink, calls⟩

/-- The sink waits, the codec notes it, the stream is writable, and the sink is woken. -/
def round (k : Nat) (sending : Sending) : List Action :=
  [.codec .message, .codec (.poll .done (fun _ => some k) false), .woken 1 (some k) sending]

def Again (k : Nat) (sending : Sending) (sink : Sink) : Prop :=
  sink.waiting = some .writable ∧ k ≤ sink.dataFrameOverhead ∨
    sink.waiting = some .flush ∧ sending = .blocked ∧ sink.pendingResponse.isSome = true

section

variable {x : Builders} {k : Nat} {sending : Sending} {sink : Sink} {calls : List SocketCall}

lemma step_codec {c : Connection} {event : Event} {s : State} (he : c.ended = false)
    (hsi : ofSink c.codec event = false) (h : onEvent x c.codec event = some (.listening s))
    (hs : s.shutdowns = c.codec.shutdowns) :
    c.step x (.codec event) = some { c with codec := s } := by
  simp only [step, he, hsi, Bool.or_self, Bool.false_eq_true, if_false, onCodec, h, hs, drop_length]
  simp [writeShutdowns]

lemma step_told : step x (oneStream [.waitingWritable 0] [] false sink calls) (.codec .message) =
    some (oneStream [] [0] false sink calls) :=
  step_codec rfl rfl rfl rfl

lemma step_notified (hk : minUsableQuicStreamCapacity ≤ k) :
    step x (oneStream [] [0] false sink calls) (.codec (.poll .done (fun _ => some k) false)) =
      some (oneStream [] [] true sink calls) := by
  refine step_codec rfl rfl ?_ rfl
  have hw : [0].filter (fun _ : Nat => (some k).all fun cap =>
    decide (minUsableQuicStreamCapacity ≤ cap)) =
      [0] := by
    simp [hk]
  have hn : notifyWritableStream (fun _ => some k) (oneStream [] [] false sink calls).codec 0 =
      (oneStream [] [] true sink calls).codec := by
    simp only [notifyWritableStream, oneStream, lookup_insert, if_neg (Nat.not_lt.mpr hk)]
    rfl
  simp only [onEvent, onPoll, oneStream, hw]
  exact congrArg (fun s => some (Codec.listening s)) hn

lemma step_again (hid : sink.streamId = 0) (ha : Again k sending sink) :
    step x (oneStream [] [] true sink calls) (.woken 1 (some k) sending) =
      some (oneStream [.waitingWritable 0] [] false sink calls) := by
  obtain ⟨streamId, pending, overhead, waiting⟩ := sink
  cases hid
  rcases ha with ⟨hw, hle⟩ | ⟨hw, rfl, hp⟩
  · cases hw
    have hn : ((some k).all fun n => decide (overhead < n)) = false := by
      simpa using hle
    simp only [step, withSink, oneStream, lookup_insert, if_true, waitBodyCapacity, hn]
    rfl
  · cases hw
    cases pending with
    | none => cases hp
    | some => rfl

lemma run_round (hk : minUsableQuicStreamCapacity ≤ k) (hid : sink.streamId = 0)
    (ha : Again k sending sink) :
    run (step x) (oneStream [.waitingWritable 0] [] false sink calls) (round k sending) =
      some (oneStream [.waitingWritable 0] [] false sink calls) := by
  simp [round, run, step_told, step_notified hk, step_again hid ha]

lemma run_rounds (hk : minUsableQuicStreamCapacity ≤ k) (hid : sink.streamId = 0)
    (ha : Again k sending sink) (n : Nat) :
    run (step x) (oneStream [.waitingWritable 0] [] false sink calls)
        (replicate n (round k sending)).flatten =
      some (oneStream [.waitingWritable 0] [] false sink calls) := by
  induction n with
  | zero => rfl
  | succ n ih =>
    rw [replicate_succ, flatten_cons]
    exact run_append (run_round hk hid ha) ih

lemma not_boundedRounds (hk : minUsableQuicStreamCapacity ≤ k) (hid : sink.streamId = 0)
    (hag : Again k sending sink) :
    ¬ BoundedRounds x (oneStream [.waitingWritable 0] [] false sink calls) 1 0 k sending := by
  rintro ⟨bound, hb⟩
  have hrounds := hb _ _ (run_rounds hk hid hag (bound + 1)) ?_
  · have hcount : (replicate (bound + 1) (round k sending)).flatten.countP (isRound 1) =
      bound + 1 := by
      rw [countP_flatten, map_replicate, sum_replicate]
      exact Nat.mul_one _
    omega
  · intro action ha
    obtain ⟨actions, hac, ha⟩ := mem_flatten.mp ha
    rw [eq_of_mem_replicate hac] at ha
    simp only [round, mem_cons, not_mem_nil, or_false] at ha
    rcases ha with rfl | rfl | rfl
    · exact fun h => by cases h
    · rfl
    · exact fun _ => ⟨rfl, rfl⟩

end

/-! ## Connections that wait -/

section

variable {x : Builders} {list : List (Bytes × Bytes)} {request : RequestHeaders}
  (hrequest : requestOf x list = .ok request)

include hrequest

lemma step_opened (capacity : Nat → Option Nat) :
    step x new (.codec (.poll (.headers 0 list) capacity false)) =
      some { new with codec := onRequest init 0 } := by
  refine step_codec rfl rfl ?_ rfl
  have he : processPendingH3Events x (.headers 0 list) = .ok (some (.request 0 request)) := by
    simp only [processPendingH3Events, hrequest]
  rw [onEvent, onPoll_of_event he]
  rfl

lemma reachable_writable {k length : Nat} (hk : k ≤ http3DataFrameOverhead length) :
    Reachable (step x) new (oneStream [.waitingWritable 0] [] false
      ⟨0, none, http3DataFrameOverhead length, some .writable⟩
      [.response 0 okResponse, .body 0 (replicate length 0)]) := by
  refine ⟨[.codec (.poll (.headers 0 list) (fun _ => none) false),
    .sendResponse 1 okResponse false .sent,
    .write 1 (replicate length 0) (.ok 0), .waitWritable 1 (some k)], ?_⟩
  have hs : step x { new with codec := onRequest init 0 } (.sendResponse 1 okResponse false .sent) =
      some (oneStream [] [] false ⟨0, none, minUsableQuicStreamCapacity,
        none⟩ [.response 0 okResponse]) :=
    rfl
  have hw : ∀ data : Bytes, step x
      (oneStream [] [] false ⟨0, none, minUsableQuicStreamCapacity, none⟩ [.response 0 okResponse])
      (.write 1 data (.ok 0)) =
        some (oneStream [] [] false ⟨0, none, http3DataFrameOverhead data.length, none⟩
          [.response 0 okResponse, .body 0 data]) :=
    fun _ => rfl
  have hn : ((some k).all fun n => decide (http3DataFrameOverhead length < n)) = false := by
    simpa using hk
  simp only [run, step_opened hrequest, hs, hw, bind_some, length_replicate]
  simp only [step, withSink, oneStream, lookup_insert, if_true, waitBodyCapacity, hn]
  rfl

lemma reachable_flush : Reachable (step x) new (oneStream [.waitingWritable 0] [] false
      ⟨0, some (okResponse, false), minUsableQuicStreamCapacity, some .flush⟩ []) := by
  refine ⟨[.codec (.poll (.headers 0 list) (fun _ => none) false),
    .sendResponse 1 okResponse false .blocked,
    .flush 1], ?_⟩
  rw [run, step_opened hrequest, bind_some]
  rfl

end

end Connection

structure WaitsIn (x : Builders) (waiting : Waiting) (c : Connection) (half : Nat) (sink : Sink) :
    Prop where
  reachable : Reachable (Connection.step x) .new c
  held : c.sinks.lookup half = some sink
  waits : sink.waiting = some waiting

lemma boundedRounds_of_waiting (hr : Reachable (Connection.step x) .new c)
    (hh : c.sinks.lookup half = some sink)
    (h : k < minUsableQuicStreamCapacity ∨ Connection.Settled k sending sink) :
    BoundedRounds x c half sink.streamId k sending := by
  refine ⟨1, fun actions c' hru hs => ?_⟩
  rcases h with hk | hse
  · have ho : Connection.SinksOwned c :=
      reachable_invariant Connection.sinksOwned_new
        (fun c action c' hc hst => Connection.sinksOwned_step hc hst) hr
    exact Connection.rounds_le_of_queued hk (ho.own half sink hh) hru hs
  · refine Connection.rounds_le_of_settled (fun sink' hsi' => ?_) hru hs
    cases hh.symm.trans hsi'
    exact hse

/-- **Waiting** is bounded exactly if the codec does not take the stream for writable, or the
capacity exceeds the overhead of the refused chunk (for pending headers: they can be sent). -/
theorem rounds_bounded_iff (x : Builders) (list : List (Bytes × Bytes)) (request : RequestHeaders)
    (hrequest : requestOf x list = .ok request) (k : Nat) :
    (∀ length, (∀ c half sink sending, WaitsIn x .writable c half sink →
        sink.dataFrameOverhead = http3DataFrameOverhead length →
        BoundedRounds x c half sink.streamId k sending) ↔
      k < minUsableQuicStreamCapacity ∨ http3DataFrameOverhead length < k) ∧
    ∀ sending, (∀ c half sink, WaitsIn x .flush c half sink →
        BoundedRounds x c half sink.streamId k sending) ↔
      k < minUsableQuicStreamCapacity ∨ sending ≠ .blocked := by
  refine ⟨fun length => ⟨fun hb => ?_, ?_⟩, fun sending => ⟨fun hb => ?_, ?_⟩⟩
  · by_contra hn
    obtain ⟨hk, hle⟩ := not_or.mp hn
    have hw : WaitsIn x .writable _ 1 ⟨0, none, http3DataFrameOverhead length, some .writable⟩ :=
      ⟨Connection.reachable_writable hrequest (Nat.not_lt.mp hle), lookup_insert _, rfl⟩
    exact Connection.not_boundedRounds (Nat.not_lt.mp hk) rfl (.inl ⟨rfl, Nat.not_lt.mp hle⟩)
      (hb _ 1 _ .blocked hw rfl)
  · rintro hc c half sink sending ⟨hr, hh, hw⟩ ho
    refine boundedRounds_of_waiting hr hh (hc.imp_right fun hlt => ?_)
    simp only [Connection.Settled, hw, ho]
    exact hlt
  · by_contra hn
    obtain ⟨hk, hbl⟩ := not_or.mp hn
    have hw : WaitsIn x .flush _ 1
        ⟨0, some (okResponse, false), minUsableQuicStreamCapacity, some .flush⟩ :=
      ⟨Connection.reachable_flush hrequest, lookup_insert _, rfl⟩
    exact Connection.not_boundedRounds (Nat.not_lt.mp hk) rfl (.inr ⟨rfl, not_not.mp hbl, rfl⟩)
      (hb _ 1 _ hw)
  · rintro hc c half sink ⟨hr, hh, hw⟩
    refine boundedRounds_of_waiting hr hh (hc.imp_right fun hne => ?_)
    simp only [Connection.Settled, hw]
    exact hne

theorem rounds_bounded_six : (requestOf plain []).isOk = true ∧
    ∀ c half sink sending, WaitsIn plain .writable c half sink →
      sink.dataFrameOverhead = http3DataFrameOverhead 16384 →
      BoundedRounds plain c half sink.streamId 6 sending :=
  ⟨rfl, ((rounds_bounded_iff plain [] _ rfl 6).1 16384).mpr (.inr (by decide))⟩

/-- A refused chunk, or blocked headers, with a capacity of four. -/
theorem rounds_unbounded_four :
    (Reachable (Connection.step plain) .new (Connection.oneStream [.waitingWritable 0] [] false
        ⟨0, none, http3DataFrameOverhead 16384, some .writable⟩
        [.response 0 okResponse, .body 0 (replicate 16384 0)]) ∧
      ¬ BoundedRounds plain (Connection.oneStream [.waitingWritable 0] [] false
        ⟨0, none, http3DataFrameOverhead 16384, some .writable⟩
        [.response 0 okResponse, .body 0 (replicate 16384 0)]) 1 0 4 .sent) ∧
    (Reachable (Connection.step plain) .new (Connection.oneStream [.waitingWritable 0] [] false
        ⟨0, some (okResponse, false), minUsableQuicStreamCapacity, some .flush⟩ []) ∧
      ¬ BoundedRounds plain (Connection.oneStream [.waitingWritable 0] [] false
        ⟨0, some (okResponse, false), minUsableQuicStreamCapacity,
          some .flush⟩ []) 1 0 4 .blocked) := by
  have hle : 4 ≤ http3DataFrameOverhead 16384 := by decide
  have hrequest : requestOf plain [] = .ok ⟨.get, ⟨none, some "/", "/", isUriText_root⟩, .http3,
    []⟩ := rfl
  refine ⟨⟨Connection.reachable_writable hrequest hle, ?_⟩, Connection.reachable_flush hrequest, ?_⟩
  · exact Connection.not_boundedRounds (by decide) rfl (.inl ⟨rfl, hle⟩)
  · exact Connection.not_boundedRounds (by decide) rfl (.inr ⟨rfl, rfl, rfl⟩)

end TrustTunnel.Http3Codec
