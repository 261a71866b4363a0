import TrustTunnel.Http3Codec
import TrustTunnel.Lib.Runs

/-!
# Streams of an HTTP/3 connection are isolated, or not
-/

namespace TrustTunnel.Http3Codec

open Io Http Lib

section

variable {s : State} {event : QuicSocketEvent} {x : Builders} {poll : Poll} {e : IoError}

def SourceThere (s : State) (streamId : Nat) : Prop :=
  ∃ stream half, s.streams.lookup streamId = some stream ∧
    s.halves.lookup stream.readableEventTx = some half ∧ half.status ≠ .dropped

/-- A request is well formed, and data is announced only for a source that is there. -/
def Harmless (x : Builders) (s : State) : Event → Prop
  | .poll (.headers _ list) _ _ => ∃ request, requestOf x list = .ok request
  | .poll (.data streamId) _ closed => closed = false → SourceThere s streamId
  | _ => True

/-- `listen` has returned an error because of a stream. -/
def StreamFailed : Codec → Prop
  | .ended (.stream _ _) => True
  | _ => False

lemma onStreamReadable_ok_iff :
    (∃ s', onStreamReadable s streamId = .ok s') ↔ SourceThere s streamId := by
  unfold onStreamReadable SourceThere
  cases hstream : s.streams.lookup streamId with
  | none => simp
  | some stream =>
    simp only [Option.some.injEq, exists_and_left, exists_eq_left']
    unfold trySend
    cases hhalf : s.halves.lookup stream.readableEventTx with
    | none => simp
    | some half =>
      by_cases hd : half.status = .dropped
      · simp [hd]
      · cases hq : half.queued <;> simp [hd, hq]

lemma onSocketEvent_ok (h : ∀ streamId, event ≠ .readable streamId) (capacity : Nat → Option Nat)
    (s : State) : ∃ s', onSocketEvent capacity s event = .ok s' := by
  cases event with
  | request | writable => exact ⟨_, rfl⟩
  | readable streamId => exact absurd rfl (h streamId)
  | close =>
    simp only [onSocketEvent]
    split
    · exact ⟨_, rfl⟩
    · exact ⟨_, rfl⟩

lemma onPoll_of_event (h : processPendingH3Events x poll = .ok (some event))
    (capacity : Nat → Option Nat) (closed : Bool) (s : State) : onPoll x poll capacity closed s =
      if closed then .error (.connection (.ofKind .unexpectedEof))
      else onSocketEvent capacity s event := by
  simp only [onPoll, h]
  rfl

lemma processPending_headers (h : requestOf x list = .ok request) :
    processPendingH3Events x (.headers streamId list) = .ok (some (.request streamId request)) := by
  simp [processPendingH3Events, h]

lemma not_streamFailed_of_event (h : processPendingH3Events x poll = .ok (some event))
    (he : ∀ id, event ≠ .readable id) (capacity : Nat → Option Nat) (closed : Bool)
    (s : State) : ¬StreamFailed (.of (onPoll x poll capacity closed s)) := by
  rw [onPoll_of_event h]
  obtain ⟨s', hs'⟩ := onSocketEvent_ok he capacity s
  cases closed with
  | true => exact id
  | false =>
    rw [if_neg Bool.false_ne_true, hs']
    exact id

lemma not_streamFailed_of_quiet (h : processPendingH3Events x poll = .ok none)
    (capacity : Nat → Option Nat) (closed : Bool) (s : State) :
    ¬StreamFailed (.of (onPoll x poll capacity closed s)) := by
  simp only [onPoll, h]
  change ¬StreamFailed (.of (if _ then _ else if _ then _ else _))
  split
  · exact id
  · split
    · exact id
    · exact id

/-- **When a turn of the loop fails because of a stream.** -/
lemma streamError_iff (x : Builders) (s : State) (poll : Poll) (capacity : Nat → Option Nat)
    (closed : Bool) : StreamFailed (.of (onPoll x poll capacity closed s)) ↔
      ¬Harmless x s (.poll poll capacity closed) := by
  cases poll with
  | headers streamId list =>
    cases hr : requestOf x list with
    | error e =>
      have hpoll : onPoll x (.headers streamId list) capacity closed s =
        .error (.stream streamId e) := by
        simp only [onPoll, processPendingH3Events, hr]
        rfl
      rw [hpoll]
      refine iff_of_true trivial ?_
      rintro ⟨request, h⟩
      rw [hr] at h
      cases h
    | ok request =>
      refine iff_of_false (not_streamFailed_of_event (processPending_headers hr) ?_ capacity closed s)
        (not_not_intro ⟨request, hr⟩)
      intro id h
      cases h
  | data streamId =>
    have he : processPendingH3Events x (.data streamId) = .ok (some (.readable streamId)) := rfl
    rw [onPoll_of_event he]
    cases closed with
    | true => exact iff_of_false id (not_not_intro (fun h => by cases h))
    | false =>
      rw [if_neg Bool.false_ne_true, onSocketEvent]
      simp only [Harmless, true_imp_iff, ← onStreamReadable_ok_iff]
      cases onStreamReadable s streamId with
      | ok s' => exact iff_of_false id (not_not_intro ⟨s', rfl⟩)
      | error => exact iff_of_true trivial (by rintro ⟨s', h⟩; cases h)
  | finished | reset =>
    exact iff_of_false (not_streamFailed_of_event rfl (fun id h => by cases h) capacity closed s)
      (not_not_intro trivial)
  | priorityUpdate | done =>
    exact iff_of_false (not_streamFailed_of_quiet rfl capacity closed s) (not_not_intro trivial)
  | goAway | error => exact iff_of_false id (not_not_intro trivial)

lemma streamFailed_onEvent_iff {event : Event} {c : Codec} (h : onEvent x s event = some c) :
    StreamFailed c ↔ ¬Harmless x s event := by
  have hl : ∀ o : Option State, o.map Codec.listening = some c → ¬StreamFailed c := by
    intro o ho
    obtain ⟨s', -, rfl⟩ := Option.map_eq_some_iff.mp ho
    exact id
  cases event with
  | poll poll capacity closed =>
    cases h
    exact streamError_iff x s poll capacity closed
  | closeMessage closed =>
    cases h
    cases closed <;> exact iff_of_false id (not_not_intro trivial)
  | muxGone =>
    cases h
    exact iff_of_false id (not_not_intro trivial)
  | message =>
    simp only [onEvent] at h
    split at h
    · cases h
    obtain ⟨-, ⟨⟩⟩ := Option.ite_none_left_eq_some.mp h
    exact iff_of_false id (not_not_intro trivial)
  | _ => exact iff_of_false (hl _ h) (not_not_intro trivial)

def ConnectionFails : Event → Prop
  | .poll .goAway _ _ | .poll (.error _) _ _ | .muxGone => True
  | .poll _ _ closed | .closeMessage closed => closed = true
  | _ => False

lemma onSocketEvent_ne_connection : onSocketEvent capacity s event ≠ .error (.connection e) := by
  intro h
  by_cases hre : ∃ streamId, event = .readable streamId
  · obtain ⟨streamId, rfl⟩ := hre
    rw [onSocketEvent] at h
    cases hr : onStreamReadable s streamId <;> rw [hr] at h <;> cases h
  · obtain ⟨s', hs'⟩ := onSocketEvent_ok
      (fun streamId he => hre ⟨streamId, he⟩) capacity s
    rw [hs'] at h
    cases h

lemma onPoll_ne_connection {event : Option QuicSocketEvent}
    (h : processPendingH3Events x poll = .ok event) (capacity : Nat → Option Nat) (s : State)
    (e : IoError) : onPoll x poll capacity false s ≠ .error (.connection e) := by
  cases event with
  | some =>
    rw [onPoll_of_event h, if_neg Bool.false_ne_true]
    exact onSocketEvent_ne_connection
  | none =>
    simp only [onPoll, h]
    change (if _ then _ else if _ then _ else _) ≠ _
    split
    · intro hok
      cases hok
    · rw [if_neg Bool.false_ne_true]
      exact onSocketEvent_ne_connection

lemma connection_of_ended {event : Event}
    (h : onEvent x s event = some (.ended (.connection e))) : ConnectionFails event := by
  have hl : ∀ o : Option State, o.map Codec.listening ≠ some (.ended (.connection e)) := by
    intro o ho
    obtain ⟨s', -, hs'⟩ := Option.map_eq_some_iff.mp ho
    cases hs'
  cases event with
  | poll poll capacity closed =>
    have hpoll : onPoll x poll capacity closed s = .error (.connection e) := by
      cases hp : onPoll x poll capacity closed s with
      | ok =>
        rw [onEvent, hp] at h
        cases h
      | error =>
        rw [onEvent, hp] at h
        cases h
        rfl
    cases closed with
    | true => cases poll <;> trivial
    | false =>
      cases poll with
      | goAway | error => trivial
      | headers streamId list =>
        cases hr : requestOf x list with
        | ok request =>
          exact absurd hpoll (onPoll_ne_connection (processPending_headers hr) capacity s e)
        | error =>
          simp only [onPoll, processPendingH3Events, hr] at hpoll
          cases hpoll
      | data streamId
      | finished streamId
      | reset streamId code
      | priorityUpdate | done => exact absurd hpoll (onPoll_ne_connection rfl capacity s e)
  | closeMessage closed =>
    cases closed with
    | true => rfl
    | false => cases h
  | muxGone => trivial
  | message =>
    simp only [onEvent] at h
    split at h
    · cases h
    split at h <;> cases h
  | _ => exact absurd h (hl _)

/-- **Isolation**: no stream ends the connection exactly if every event is harmless. -/
theorem isolated_iff (x : Builders) (s : State) (events : List Event) :
    (EveryState (step x) (fun c => ¬StreamFailed c) (.listening s) events ↔
      EveryStep (step x) (fun c e => ∀ s, c = .listening s → Harmless x s e) (.listening s)
        events) ∧
    ∀ s event e, onEvent x s event = some (.ended (.connection e)) → ConnectionFails event := by
  refine ⟨?_, fun _ _ _ => connection_of_ended⟩
  refine everyState_iff_everyStep ?_ (fun c (h : ¬StreamFailed c) => h) ?_ events id
  · intro c e c' _ hok hs
    cases c with
    | ended => cases hs
    | listening s => exact fun hf => (streamFailed_onEvent_iff hs).mp hf (hok s rfl)
  · intro c e c' _ hb hs
    cases c with
    | ended => cases hs
    | listening =>
      refine not_not_intro ((streamFailed_onEvent_iff hs).mpr (fun hok => hb ?_))
      rintro _ ⟨⟩
      exact hok

lemma isUriText_root : isUriText "/" ∧ (some "/").all isUriText := by
  decide +kernel

def plain : Builders where
  fromLowercase name :=
    if name.any (fun b => 65 ≤ b && b ≤ 90) then none else String.fromUTF8? ⟨name.toArray⟩
  uri _ := .ok ⟨none, some "/", "/", isUriText_root⟩
  request version _ uri := .ok ⟨.get, uri, version, []⟩

def opened (streamId : Nat) : Event := .poll (.headers streamId []) (fun _ => none) false

def dataOn (streamId : Nat) : Event := .poll (.data streamId) (fun _ => none) false

/-- A name in upper case on another stream, and data for a dropped source. -/
theorem streams_not_isolated : run (step plain) (.listening init)
        [opened 0, .poll (.headers 4 [([0x58], [])]) (fun _ => none) false] =
      some (.ended (.stream 4 ⟨.invalidData, "Unexpected header name: 0x58"⟩)) ∧
    run (step plain) (.listening init) [opened 0, opened 4, .drop 2, .gone 2, dataOn 4] =
      some (.ended (.stream 4 (.other "Failed to send stream readable event: channel closed"))) :=
  ⟨rfl, rfl⟩

end

end TrustTunnel.Http3Codec
