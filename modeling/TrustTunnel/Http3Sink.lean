import TrustTunnel.ForwardedResponse
import TrustTunnel.Http3Streams

/-!
# The sinks of an HTTP/3 connection (`http3_codec.rs`)

A sink keeps its headers while the stream is blocked; its other calls go to the socket meanwhile.
Proved here:

* `tracks_of_reachable`: the headers of a stream are sent exactly if a sink of it keeps none;
* `headersFirst_iff`: they come first exactly if what ends a stream comes when no sink keeps them.
-/

namespace TrustTunnel.Http3Codec

open Io Lib List
open HttpForwardedStream (ResponseHeaders)

/-! ## The calls of a sink -/

def varintLen (x : Nat) : Nat :=
  if x ≤ 63 then 1 else if x ≤ 16383 then 2 else if x ≤ 1073741823 then 4 else 8

def http3DataFrameOverhead (payloadSize : Nat) : Nat := varintLen 0 + varintLen payloadSize

/-- What `QuicSocket::send_response` returns. -/
inductive Sending where
  | sent
  | blocked
  | failed (e : IoError)
  deriving DecidableEq

inductive Waiting where
  | writable
  | flush

/-- A `StreamSink` whose `send_response` was called. -/
structure Sink where
  streamId : Nat
  pendingResponse : Option (ResponseHeaders × Bool)
  dataFrameOverhead : Nat
  waiting : Option Waiting

/-- Headers, bytes of a body, or the end of the stream. -/
inductive SocketCall where
  | response (streamId : Nat) (response : ResponseHeaders)
  | body (streamId : Nat) (data : Bytes)
  | shutdownWrite (streamId : Nat)

/-- `ended`: `listen` has returned an error; sinks are keyed by their halves. -/
structure Connection where
  codec : State
  ended : Bool
  sinks : Table Nat Sink
  calls : List SocketCall

def Connection.new : Connection := ⟨init, false, ∅, []⟩

/-- Events of the codec and the halves, and calls of sinks with the socket's answers. -/
inductive Action where
  | codec (event : Event)
  | sendResponse (half : Nat) (response : ResponseHeaders) (eof : Bool) (sending : Sending)
  | write (half : Nat) (data : Bytes) (accepted : Except IoError Nat)
  | eof (half : Nat)
  | waitWritable (half : Nat) (capacity : Option Nat)
  | flush (half : Nat)
  /-- The channel has a message for the future that waits. -/
  | woken (half : Nat) (capacity : Option Nat) (sending : Sending)
  /-- That future is dropped, or its channel is closed. -/
  | cancelled (half : Nat)
  /-- `DroppingSink::write`. -/
  | writeDatagram (half : Nat) (data : Bytes) (capacity : Option Nat) (accepted : Except IoError Nat)

namespace Connection

def post (c : Connection) (message : StreamMessage) : Connection :=
  { c with codec := send c.codec message }

def call (c : Connection) (call : SocketCall) : Connection := { c with calls := c.calls ++ [call] }

def store (c : Connection) (half : Nat) (sink : Sink) : Connection :=
  { c with sinks := c.sinks.insert half sink }

/-- `try_send_pending_response`; it fails if the socket does. -/
def trySendPendingResponse (c : Connection) (sink : Sink) (sending : Sending) : Connection × Sink :=
  match sink.pendingResponse, sending with
  | some (response, eof), .sent =>
    let c := c.call (.response sink.streamId response)
    (if eof then c.post (.shutdown sink.streamId none) else c, { sink with pendingResponse := none })
  | _, _ => (c, sink)

/-- A turn of the loop in `wait_body_capacity`; without a capacity it fails. -/
def waitBodyCapacity (c : Connection) (half : Nat) (sink : Sink) (capacity : Option Nat) :
    Connection :=
  if capacity.all (fun n => sink.dataFrameOverhead < n) then c.store half { sink with waiting := none }
  else (c.store half { sink with waiting := some .writable }).post (.waitingWritable sink.streamId)

/-- A turn of the loop in `flush`. -/
def flushTurn (c : Connection) (half : Nat) (sink : Sink) : Connection :=
  if sink.pendingResponse.isSome then
    (c.store half { sink with waiting := some .flush }).post (.waitingWritable sink.streamId)
  else c.store half { sink with waiting := none }

/-- `Drop::drop` of a sink. -/
def dropSink (c : Connection) (half : Nat) (h : Half) : Connection :=
  let halves := c.codec.halves.insert half { h with status := .dropping }
  { c with codec := { c.codec with halves } }.post (.shutdown h.streamId (some .write))

def writeShutdowns (shutdowns : List (Nat × Direction)) : List SocketCall :=
  shutdowns.filterMap (fun x => if x.2 = .write then some (.shutdownWrite x.1) else none)

def onCodec (x : Builders) (c : Connection) (event : Event) : Option Connection :=
  match onEvent x c.codec event with
  | none => none
  | some (.ended _) => some { c with ended := true }
  | some (.listening s) =>
    some { c with
      codec := s
      calls := c.calls ++ writeShutdowns (s.shutdowns.drop c.codec.shutdowns.length) }

def ofSink (s : State) : Event → Bool
  | .waitWritable _ | .respondedEof _ => true
  | .received half => (s.halves.lookup half).any (fun h => h.direction = .write)
  | _ => false

def withSink (c : Connection) (half : Nat) (f : Half → Sink → Option Connection) :
    Option Connection :=
  match c.codec.halves.lookup half, c.sinks.lookup half with
  | some h, some sink => if h.status = .held then f h sink else none
  | _, _ => none

def step (x : Builders) (c : Connection) : Action → Option Connection
  | .codec event => if c.ended || ofSink c.codec event then none else c.onCodec x event
  | .sendResponse half response eof sending =>
    match c.codec.halves.lookup half, c.sinks.lookup half with
    | some h, none =>
      if h.status = .held ∧ h.direction = .write then
        match sending with
        -- the sink is gone with the call
        | .failed _ => some (c.dropSink half h)
        | _ =>
          let y := c.trySendPendingResponse
            ⟨h.streamId, some (response, eof), minUsableQuicStreamCapacity, none⟩ sending
          some (y.1.store half y.2)
      else none
    | _, _ => none
  | .write half data accepted => c.withSink half fun _ sink =>
    if sink.pendingResponse.isSome then some (c.store half { sink with waiting := none })
    else
      let overhead := match accepted with
        | .ok n => http3DataFrameOverhead (if n = 0 then data.length else 1)
        | .error _ => sink.dataFrameOverhead
      some ((c.call (.body sink.streamId data)).store half
        { sink with dataFrameOverhead := overhead, waiting := none })
  | .eof half => c.withSink half fun _ sink =>
    some ((c.call (.shutdownWrite sink.streamId)).store half { sink with waiting := none })
  | .waitWritable half capacity => c.withSink half fun _ sink =>
    some (c.waitBodyCapacity half sink capacity)
  | .flush half => c.withSink half fun _ sink => some (c.flushTurn half sink)
  | .woken half capacity sending => c.withSink half fun h sink =>
    if h.queued then
      let c := { c with codec := { c.codec with
        halves := c.codec.halves.insert half { h with queued := false } } }
      match sink.waiting, sending with
      | none, _ => none
      | some .writable, _ => some (c.waitBodyCapacity half sink capacity)
      | some .flush, .failed _ => some (c.store half { sink with waiting := none })
      | some .flush, sending =>
        let y := c.trySendPendingResponse sink sending
        some (y.1.flushTurn half y.2)
    else none
  | .cancelled half => c.withSink half fun _ sink => some (c.store half { sink with waiting := none })
  | .writeDatagram half data capacity _ => c.withSink half fun _ sink =>
    if capacity.any (fun n => http3DataFrameOverhead data.length + data.length ≤ n) then
      some (c.call (.body sink.streamId data))
    else some c

/-! ## The order of the calls -/

end Connection

def HeadersIn (calls : List SocketCall) (streamId : Nat) : Prop :=
  ∃ response, .response streamId response ∈ calls

def SocketCall.After (calls : List SocketCall) : SocketCall → Prop
  | .response _ _ => True
  | .body streamId data => data ≠ [] → HeadersIn calls streamId
  | .shutdownWrite streamId => HeadersIn calls streamId

/-- **The promise**, of every call. -/
def HeadersFirst (calls : List SocketCall) : Prop :=
  ∀ before call after, calls = before ++ call :: after → call.After before

lemma headersFirst_append :
    HeadersFirst (calls ++ [call]) ↔ HeadersFirst calls ∧ call.After calls := by
  constructor
  · intro h
    refine ⟨fun before call' after heq => ?_, h calls call [] rfl⟩
    refine h before call' (after ++ [call]) ?_
    rw [heq, append_assoc, cons_append]
  · rintro ⟨h, hca⟩ before call' after heq
    rcases eq_nil_or_concat after with rfl | ⟨after', last, rfl⟩
    · obtain ⟨rfl, hl⟩ := append_inj' heq rfl
      cases hl
      exact hca
    · rw [concat_eq_append, ← cons_append, ← append_assoc] at heq
      obtain ⟨hc, -⟩ := append_inj' heq rfl
      exact h before call' after' hc

/-! ## What the codec shuts down -/

/-- The stream whose write side the next message shuts down. -/
def closesWrite (s : State) : Option Nat :=
  match s.messages with
  | .shutdown streamId direction :: _ =>
    match s.streams.lookup streamId with
    | some stream => if direction ≠ some .read ∧ stream.writeShutdown = false then some streamId else none
    | none => none
  | _ => none

lemma writeShutdowns_shutdownCalls (streamId : Nat) (stream : Stream)
    (direction : Option Direction) :
    Connection.writeShutdowns (shutdownCalls streamId stream direction) =
      if direction ≠ some .read ∧ stream.writeShutdown = false then [.shutdownWrite streamId]
      else [] := by
  obtain ⟨readableTx, writableTx, readShutdown, writeShutdown⟩ := stream
  rcases direction with _ | _ | _ <;> cases readShutdown <;> cases writeShutdown <;> rfl

def Quiet (s s' : State) : Prop :=
  ∃ calls, s'.shutdowns = s.shutdowns ++ calls ∧ Connection.writeShutdowns calls = []

lemma quiet_of_eq (h : s'.shutdowns = s.shutdowns) : Quiet s s' :=
  ⟨[], by rw [h, append_nil], rfl⟩

lemma quiet_onEvent (he : event ≠ .message)
    (h : onEvent x s event = some (.listening s')) : Quiet s s' := by
  cases change_onEvent h with
  | request => exact quiet_of_eq rfl
  | shutdown _ ho =>
    cases ho with
    | poll =>
      refine ⟨_, rfl, ?_⟩
      rw [writeShutdowns_shutdownCalls, if_neg fun h => h.1 rfl]
    | message => exact absurd rfl he
  | frame _ _ hf => exact quiet_of_eq hf.shutdowns

lemma shutdowns_message (h : onEvent x s .message = some (.listening s')) :
    ∃ calls, s'.shutdowns = s.shutdowns ++ calls ∧
      Connection.writeShutdowns calls = (closesWrite s).toList.map .shutdownWrite := by
  obtain ⟨message, messages, hm, -, rfl⟩ := onMessage_of_onEvent h
  rcases onMessage_cases { s with messages := messages } message with
    ⟨streamId, rfl, heq⟩ | ⟨streamId, direction, rfl, ⟨hs, heq⟩ | hsh⟩
  · refine ⟨[], ?_, by simp [closesWrite, hm, Connection.writeShutdowns]⟩
    rw [heq, append_nil]
    exact (frame_notifyStreamWaitingWritable .message _ streamId).shutdowns
  · have hn : s.streams.lookup streamId = none := hs
    refine ⟨[], ?_, by simp [closesWrite, hm, hn, Connection.writeShutdowns]⟩
    rw [heq, append_nil]
  · obtain ⟨stream, hs, heq⟩ := onStreamShutdown_eq_ok hsh
    have hso : s.streams.lookup streamId = some stream := hs
    rw [heq]
    refine ⟨_, rfl, ?_⟩
    simp only [writeShutdowns_shutdownCalls, closesWrite, hm, hso]
    split
    · rfl
    · rfl

/-! ## Steps -/

namespace Connection

/-- A sink of the stream has responded and keeps no headers. -/
def Responded (c : Connection) (streamId : Nat) : Prop :=
  ∃ half sink, c.sinks.lookup half = some sink ∧ sink.streamId = streamId ∧
    sink.pendingResponse = none

/-- What ends a stream, and a datagram, come when it has responded. -/
def Ready (c : Connection) : Action → Prop
  | .codec .message => ∀ streamId, closesWrite c.codec = some streamId → c.Responded streamId
  | .eof half => ∀ sink, c.sinks.lookup half = some sink → c.Responded sink.streamId
  | .writeDatagram half data capacity _ => data ≠ [] →
    capacity.any (fun n => http3DataFrameOverhead data.length + data.length ≤ n) = true →
      ∀ sink, c.sinks.lookup half = some sink → c.Responded sink.streamId
  | _ => True

/-- The headers of a stream are sent exactly if it has responded. -/
def Tracks (c : Connection) : Prop := ∀ streamId, HeadersIn c.calls streamId ↔ c.Responded streamId

section

variable {c c' : Connection} {half : Nat} {sink old : Sink} {action : Action}

lemma tracks_new : Tracks new := by
  intro streamId
  constructor
  · rintro ⟨response, hm⟩
    cases hm
  · rintro ⟨half, sink, hl, -⟩
    cases hl

lemma tracks_of_same (hc : Tracks c) (hsinks : c'.sinks = c.sinks) (hcalls : c'.calls = c.calls) :
    Tracks c' := by
  unfold Tracks Responded
  rw [hsinks, hcalls]
  exact hc

lemma tracks_call (hc : Tracks c) (call : SocketCall)
    (hne : ∀ streamId response, call ≠ .response streamId response) : Tracks (c.call call) := by
  intro streamId
  refine Iff.trans ?_ (hc streamId)
  simp [HeadersIn, Connection.call, (hne streamId _).symm]

/-- The sink of a half is new, or of the same stream and has kept no less. -/
lemma responded_store (streamId : Nat) (h : ∀ old, c.sinks.lookup half = some old →
      old.streamId = sink.streamId ∧
        (old.pendingResponse = none → sink.pendingResponse = none)) :
    (c.store half sink).Responded streamId ↔
      streamId = sink.streamId ∧ sink.pendingResponse = none ∨ c.Responded streamId := by
  constructor
  · rintro ⟨half', sink', hl, rfl, hn⟩
    rcases Table.lookup_insert_cases hl with ⟨-, rfl⟩ | ⟨-, ho⟩
    · exact .inl ⟨rfl, hn⟩
    · exact .inr ⟨half', sink', ho, rfl, hn⟩
  · rintro (⟨rfl, hn⟩ | ⟨half', sink', hl, rfl, hn⟩)
    · exact ⟨half, sink, AList.lookup_insert _, rfl, hn⟩
    · by_cases hh : half' = half
      · subst hh
        obtain ⟨hs, hp⟩ := h sink' hl
        exact ⟨half', sink, AList.lookup_insert _, hs.symm, hp hn⟩
      · exact ⟨half', sink', (AList.lookup_insert_ne hh).trans hl, rfl, hn⟩

lemma tracks_store (hc : Tracks c) (hl : c.sinks.lookup half = some old)
    (hs : sink.streamId = old.streamId) (hp : sink.pendingResponse = old.pendingResponse) :
    Tracks (c.store half sink) := by
  intro streamId
  refine (hc streamId).trans ((responded_store streamId fun o ho => ?_).trans ?_).symm
  · cases hl.symm.trans ho
    exact ⟨hs.symm, hp.trans⟩
  · refine or_iff_right_of_imp ?_
    rintro ⟨rfl, hn⟩
    exact ⟨half, old, hl, hs.symm, hp.symm.trans hn⟩

/-- A first sink of a half, which keeps its headers. -/
lemma tracks_blocked (hc : Tracks c) (hl : c.sinks.lookup half = none)
    (hp : sink.pendingResponse ≠ none) : Tracks (c.store half sink) := by
  intro streamId
  refine (hc streamId).trans ((responded_store streamId fun o ho => ?_).trans ?_).symm
  · cases hl.symm.trans ho
  · exact or_iff_right fun h => hp h.2

/-- The headers of a sink are sent, and it keeps none. -/
lemma tracks_sent (hc : Tracks c) (half : Nat) (sink : Sink) (response : ResponseHeaders)
    (hn : sink.pendingResponse = none)
    (hl : ∀ old, c.sinks.lookup half = some old → old.streamId = sink.streamId) :
    Tracks ((c.call (.response sink.streamId response)).store half sink) := by
  intro streamId
  have hin : HeadersIn (c.calls ++ [.response sink.streamId response]) streamId ↔
      streamId = sink.streamId ∨ HeadersIn c.calls streamId := by
    simp [HeadersIn, exists_or, or_comm]
  refine hin.trans (Iff.trans ?_ (responded_store streamId fun o ho => ⟨hl o ho, fun _ => hn⟩).symm)
  simp only [hn, and_true]
  exact or_congr_right (hc streamId)

/-- The step keeps `Tracks`, and the headers first exactly if it is ready. -/
def Good (c : Connection) (action : Action) (c' : Connection) : Prop :=
  Tracks c' ∧ (HeadersFirst c'.calls ↔ HeadersFirst c.calls ∧ Ready c action)

/-- At most headers are sent. -/
def Adds (c c' : Connection) : Prop :=
  c'.calls = c.calls ∨ ∃ streamId response, c'.calls = c.calls ++ [.response streamId response]

lemma good_of_adds (hr : Ready c action) (h : Tracks c' ∧ Adds c c') : Good c action c' := by
  refine ⟨h.1, ?_⟩
  rcases h.2 with hcalls | ⟨streamId, response, hcalls⟩
  · rw [hcalls]
    exact (and_iff_left hr).symm
  · rw [hcalls, headersFirst_append]
    exact and_congr_right fun _ => iff_of_true trivial hr

lemma good_of_call (call : SocketCall) (ht : Tracks c') (hcalls : c'.calls = c.calls ++ [call])
    (hr : Ready c action ↔ call.After c.calls) : Good c action c' := by
  refine ⟨ht, ?_⟩
  rw [hcalls, headersFirst_append, hr]

lemma adds_waitBodyCapacity (hc : Tracks c) (hl : c.sinks.lookup half = some sink)
    (capacity : Option Nat) : Tracks (c.waitBodyCapacity half sink capacity) ∧
      Adds c (c.waitBodyCapacity half sink capacity) := by
  unfold waitBodyCapacity
  split
  · exact ⟨tracks_store hc hl rfl rfl, .inl rfl⟩
  · refine ⟨tracks_of_same (c := c.store half _) ?_ rfl rfl, .inl rfl⟩
    exact tracks_store hc hl rfl rfl

lemma adds_flushTurn (hc : Tracks c) (hl : c.sinks.lookup half = some sink) :
    Tracks (c.flushTurn half sink) ∧ Adds c (c.flushTurn half sink) := by
  unfold flushTurn
  split
  · refine ⟨tracks_of_same (c := c.store half _) ?_ rfl rfl, .inl rfl⟩
    exact tracks_store hc hl rfl rfl
  · exact ⟨tracks_store hc hl rfl rfl, .inl rfl⟩

lemma trySendPendingResponse_cases (c : Connection) (sink : Sink) (sending : Sending) :
    c.trySendPendingResponse sink sending = (c, sink) ∨ ∃ response codec,
      c.trySendPendingResponse sink sending =
        ({ c.call (.response sink.streamId response) with codec := codec },
          { sink with pendingResponse := none }) := by
  unfold trySendPendingResponse
  split
  · rename_i response eof _
    refine .inr ⟨response, ?_⟩
    cases eof <;> exact ⟨_, rfl⟩
  · exact .inl rfl

lemma adds_respond (hc : Tracks c) (hl : c.sinks.lookup half = none)
    (hp : sink.pendingResponse ≠ none) (sending : Sending) :
    let y := c.trySendPendingResponse sink sending
    Tracks (y.1.store half y.2) ∧ Adds c (y.1.store half y.2) := by
  rcases trySendPendingResponse_cases c sink sending with heq | ⟨response, codec, heq⟩ <;> rw [heq]
  · exact ⟨tracks_blocked hc hl hp, .inl rfl⟩
  · refine ⟨tracks_of_same (tracks_sent hc half
      { sink with pendingResponse := none } response rfl ?_) rfl rfl, .inr ⟨_, response, rfl⟩⟩
    intro old ho
    cases hl.symm.trans ho

lemma adds_flush (hc : Tracks c) (hl : c.sinks.lookup half = some sink) (sending : Sending) :
    let y := c.trySendPendingResponse sink sending
    Tracks (y.1.flushTurn half y.2) ∧ Adds c (y.1.flushTurn half y.2) := by
  rcases trySendPendingResponse_cases c sink sending with heq | ⟨response, codec, heq⟩ <;> rw [heq]
  · exact adds_flushTurn hc hl
  · refine ⟨tracks_of_same (tracks_sent hc half
      { sink with pendingResponse := none, waiting := none } response rfl ?_) rfl rfl,
      .inr ⟨_, response, rfl⟩⟩
    intro old ho
    cases hl.symm.trans ho
    rfl

lemma withSink_eq_some (h : c.withSink half f = some c') :
    ∃ h sink, c.codec.halves.lookup half = some h ∧ c.sinks.lookup half = some sink ∧
      h.status = .held ∧ f h sink = some c' := by
  unfold withSink at h
  split at h
  · rename_i h0 sink hh hs
    split at h
    · rename_i hhe
      exact ⟨h0, sink, hh, hs, hhe, h⟩
    · cases h
  · cases h

lemma good_onCodec (hc : Tracks c) (h : c.onCodec x event = some c') :
    Good c (.codec event) c' := by
  have hready (hm : event ≠ .message) : Ready c (.codec event) := by
    cases event with
    | message => exact absurd rfl hm
    | _ => trivial
  unfold onCodec at h
  split at h
  · cases h
  · rename_i he
    cases h
    refine good_of_adds (hready ?_) ⟨tracks_of_same hc rfl rfl, .inl rfl⟩
    -- a message does not end the codec
    rintro rfl
    simp only [onEvent] at he
    split at he
    · cases he
    · split at he <;> cases he
  · rename_i hl
    cases h
    by_cases hm : event = .message
    · subst hm
      obtain ⟨calls, hca, hw⟩ := shutdowns_message hl
      rw [hca, drop_left, hw]
      cases hcl : closesWrite c.codec with
      | none =>
        refine good_of_adds (fun _ h => ?_) ⟨tracks_of_same hc rfl (by simp), .inl (by simp)⟩
        simp [hcl] at h
      | some streamId =>
        refine good_of_call (.shutdownWrite streamId) ?_ rfl ?_
        · exact tracks_of_same (tracks_call hc (.shutdownWrite streamId)
            (fun _ _ h => by cases h)) rfl rfl
        · rw [SocketCall.After, hc streamId]
          simp [Ready, hcl]
    · obtain ⟨calls, hca, hw⟩ := quiet_onEvent hm hl
      rw [hca, drop_left, hw, append_nil]
      exact good_of_adds (hready hm) ⟨tracks_of_same hc rfl rfl, .inl rfl⟩

/-- **One step** keeps the headers first exactly if it is ready. -/
lemma good_step (hc : Tracks c) (h : c.step x action = some c') : Good c action c' := by
  cases action with
  | codec =>
    obtain ⟨-, h⟩ := Option.ite_none_left_eq_some.mp h
    exact good_onCodec hc h
  | sendResponse =>
    simp only [step] at h
    split at h
    · rename_i hnone
      split at h
      · split at h
        · cases h
          exact good_of_adds trivial ⟨tracks_of_same hc rfl rfl, .inl rfl⟩
        · cases h
          exact good_of_adds trivial (adds_respond hc hnone (by simp) _)
      · cases h
    · cases h
  | write half =>
    obtain ⟨h0, sink, -, hl, -, hf⟩ := withSink_eq_some h
    split at hf
    · cases hf
      exact good_of_adds trivial ⟨tracks_store hc hl rfl rfl, .inl rfl⟩
    · rename_i hno
      have hs := (hc _).mpr ⟨half, sink, hl, rfl, Option.not_isSome_iff_eq_none.mp hno⟩
      cases hf
      refine good_of_call _ (tracks_store (tracks_call hc _ ?_) hl rfl rfl) rfl ?_
      · exact fun _ _ h => by cases h
      · exact iff_of_true trivial (fun _ => hs)
  | eof =>
    obtain ⟨h0, sink, -, hl, -, hf⟩ := withSink_eq_some h
    cases hf
    refine good_of_call _ (tracks_store (tracks_call hc _ ?_) hl rfl rfl) rfl ?_
    · exact fun _ _ h => by cases h
    · rw [SocketCall.After, hc]
      simp [Ready, hl]
  | waitWritable half capacity =>
    obtain ⟨h0, sink, -, hl, -, hf⟩ := withSink_eq_some h
    cases hf
    exact good_of_adds trivial (adds_waitBodyCapacity hc hl capacity)
  | flush =>
    obtain ⟨h0, sink, -, hl, -, hf⟩ := withSink_eq_some h
    cases hf
    exact good_of_adds trivial (adds_flushTurn hc hl)
  | woken half capacity =>
    obtain ⟨h0, sink, -, hl, -, hf⟩ := withSink_eq_some h
    obtain ⟨-, hf⟩ := Option.ite_none_right_eq_some.mp hf
    simp only at hf
    have hi : Tracks { c with codec := { c.codec with
        halves := c.codec.halves.insert half { h0 with queued := false } } } :=
      tracks_of_same hc rfl rfl
    split at hf
    · cases hf
    · cases hf
      exact good_of_adds trivial (adds_waitBodyCapacity hi hl capacity)
    · cases hf
      exact good_of_adds trivial ⟨tracks_store hi hl rfl rfl, .inl rfl⟩
    · cases hf
      exact good_of_adds trivial (adds_flush hi hl _)
  | cancelled =>
    obtain ⟨h0, sink, -, hl, -, hf⟩ := withSink_eq_some h
    cases hf
    exact good_of_adds trivial ⟨tracks_store hc hl rfl rfl, .inl rfl⟩
  | writeDatagram =>
    obtain ⟨h0, sink, -, hl, -, hf⟩ := withSink_eq_some h
    split at hf
    · rename_i hca
      cases hf
      refine good_of_call _ (tracks_call hc _ (fun _ _ h => by cases h)) rfl ?_
      rw [SocketCall.After, hc]
      simp [Ready, hl, hca]
    · rename_i hca
      cases hf
      exact good_of_adds (fun _ h => absurd h hca) ⟨hc, .inl rfl⟩

end

lemma tracks_of_reachable (h : Reachable (step x) new c) : Tracks c :=
  reachable_invariant tracks_new (fun _ _ _ hc hs => (good_step hc hs).1) h

end Connection

/-- **Headers first**, in every state of a run, exactly if what ends a stream comes when a sink of
it keeps no headers, that is, when they are sent. -/
theorem headersFirst_iff (x : Builders) :
    (∀ c, Reachable (Connection.step x) .new c →
      ∀ streamId, HeadersIn c.calls streamId ↔ c.Responded streamId) ∧
    ∀ actions, EveryState (Connection.step x) (fun c => HeadersFirst c.calls) .new actions ↔
      EveryStep (Connection.step x) Connection.Ready .new actions := by
  refine ⟨fun c hc => Connection.tracks_of_reachable hc, fun actions => ?_⟩
  have hi : Connection.Tracks .new ∧ HeadersFirst Connection.new.calls := by
    refine ⟨Connection.tracks_new, fun before call after h => ?_⟩
    have hl := congrArg length h
    simp [Connection.new] at hl
  have hkept : ∀ c action c', Connection.Tracks c ∧ HeadersFirst c.calls →
      Connection.Ready c action → Connection.step x c action = some c' →
        Connection.Tracks c' ∧ HeadersFirst c'.calls := by
    intro c action c' hc hr hs
    obtain ⟨ht, hf⟩ := Connection.good_step hc.1 hs
    exact ⟨ht, hf.mpr ⟨hc.2, hr⟩⟩
  exact everyState_iff_everyStep hkept (fun c hc => hc.2)
    (fun c action c' hc hn hs hf => hn ((Connection.good_step hc.1 hs).2.mp hf).2) actions hi

def okResponse : ResponseHeaders := ⟨.http3, 200, []⟩

/-- Ended without headers by `eof` and by the drop. -/
theorem blocked_ended :
    (run (Connection.step plain) .new [.codec (opened 0), .sendResponse 1 okResponse true .blocked,
      .eof 1]).map Connection.calls = some [.shutdownWrite 0] ∧
    (run (Connection.step plain) .new [.codec (opened 0), .sendResponse 1 okResponse true .blocked,
      .codec (.drop 1), .codec .message]).map Connection.calls = some [.shutdownWrite 0] ∧
    ¬ HeadersFirst [.shutdownWrite 0] := by
  refine ⟨rfl, rfl, fun h => ?_⟩
  obtain ⟨response, hm⟩ := h [] (.shutdownWrite 0) [] rfl
  cases hm

end TrustTunnel.Http3Codec
