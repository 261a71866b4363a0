import TrustTunnel.Http3Source

/-!
# Uploads over HTTP/3

`StreamSource::read` and what it waits for, with both halves held. `quiche` keeps the bytes in
order, returns `Data` once while there is something to read, and `Finished` once all was read.
-/

namespace TrustTunnel.Http3Codec

open Io Lib Option

/-! ## The system -/

/-- Where a call of `StreamSource::read` is. -/
inductive Reader where
  | idle
  /-- Before `socket.read`. -/
  | reading
  /-- There was nothing to read; before `stream_finished`. -/
  | checking
  /-- In `readable_event_rx.recv`. -/
  | receiving
  /-- An error was returned. -/
  | failed
  deriving DecidableEq

structure Upload where
  codec : State
  /-- What has arrived and was not read. -/
  buffered : Bytes
  fin : Bool
  /-- `Data` was returned, and there was something to read ever since. -/
  triggered : Bool
  /-- `Finished` was returned. -/
  reported : Bool
  reader : Reader
  /-- The chunks that `read` returned. -/
  delivered : Bytes
  /-- `read` returned `Eof`. -/
  eof : Bool
  /-- All that has arrived. -/
  body : Bytes

inductive UploadEvent where
  /-- More of the body, or its end, or both. -/
  | arrive (data : Bytes) (fin : Bool)
  /-- The codec, and the tasks that hold the other halves. -/
  | codec (event : Event)
  | call
  | socketRead
  | checkFinished
  | receive
  /-- The future of `read` is dropped where it waits. -/
  | cancel

def Upload.start (s : State) : Upload := ⟨s, [], false, false, false, .idle, [], false, []⟩

def Upload.dataDue (u : Upload) : Bool := !u.buffered.isEmpty && !u.triggered

def Upload.finishedDue (u : Upload) : Bool := u.fin && u.buffered.isEmpty && !u.reported

/-- The connection says what is due, and the halves are held. -/
def Upload.admits (u : Upload) (streamId n : Nat) : Event → Bool
  | .poll (.headers id _) _ _ | .poll (.reset id _) _ _ => id ≠ streamId
  | .poll (.data id) _ _ => id ≠ streamId || u.dataDue
  | .poll (.finished id) _ _ => id ≠ streamId || u.finishedDue
  | .drop m
  | .respondedEof m => (u.codec.halves.lookup m).all (fun half => half.streamId ≠ streamId)
  | .received m => m ≠ n
  | _ => true

def isData (streamId : Nat) : Event → Bool
  | .poll (.data id) _ _ => id = streamId
  | _ => false

def isFinished (streamId : Nat) : Event → Bool
  | .poll (.finished id) _ _ => id = streamId
  | _ => false

def Upload.noted (u : Upload) (streamId : Nat) (event : Event) (s : State) : Upload :=
  { u with
    codec := s
    triggered := u.triggered || isData streamId event
    reported := u.reported || isFinished streamId event }

def readChunkSize : Nat := 64 * 1024

/-- `QuicSocket::read`: a chunk is returned, or nothing. -/
def Upload.socketRead (u : Upload) : Upload :=
  if u.buffered = [] then { u with reader := .checking }
  else
    let rest := u.buffered.drop readChunkSize
    { u with
      buffered := rest
      triggered := u.triggered && !rest.isEmpty
      reader := .idle
      delivered := u.delivered ++ u.buffered.take readChunkSize }

/-- `QuicSocket::stream_finished`. -/
def Upload.checkFinished (u : Upload) : Upload :=
  if u.fin && u.buffered.isEmpty then { u with reader := .idle, eof := true }
  else { u with reader := .receiving }

/-- The source has the number `n`.  It is not read again after `Eof`. -/
def uploadStep (x : Builders) (streamId n : Nat) (u : Upload) (event : UploadEvent) : Option Upload :=
  match event with
  | .arrive data fin =>
    if u.fin then none
    else some { u with buffered := u.buffered ++ data, fin := fin, body := u.body ++ data }
  | .codec event =>
    if u.admits streamId n event then
      match onEvent x u.codec event with
      | some (.listening s) => some (u.noted streamId event s)
      | _ => none
    else none
  | .call => if u.reader = .idle ∧ u.eof = false then some { u with reader := .reading } else none
  | .socketRead => if u.reader = .reading then some u.socketRead else none
  | .checkFinished => if u.reader = .checking then some u.checkFinished else none
  | .receive =>
    if u.reader = .receiving then
      match onEvent x u.codec (.received n) with
      | some (.listening s) => some { u with codec := s, reader := .reading }
      | _ =>
        if (u.codec.streams.lookup streamId).any (fun stream => stream.readableEventTx = n) then none
        -- the sender is gone
        else some { u with reader := .failed }
    else none
  | .cancel => if u.reader = .receiving then some { u with reader := .idle } else none

/-- What happens when nothing more arrives. -/
def UploadEvent.internal (streamId : Nat) : UploadEvent → Bool
  | .call => true
  | .socketRead => true
  | .checkFinished => true
  | .receive => true
  | .codec event => isData streamId event || isFinished streamId event
  | .arrive _ _ => false
  | .cancel => false

def Resting (x : Builders) (streamId n : Nat) (u : Upload) : Prop :=
  ∀ event : UploadEvent, event.internal streamId = true → uploadStep x streamId n u event = none

/-- **The promise**: the body is read in order, `Eof` after all of it, and the reader gets all
that has arrived. -/
structure Delivers (x : Builders) (streamId n : Nat) (u : Upload) : Prop where
  order : u.delivered <+: u.body
  whole : u.eof = true → u.fin = true ∧ u.delivered = u.body
  rests : ∃ bound, ∀ events u', (∀ event ∈ events, event.internal streamId = true) →
    run (uploadStep x streamId n) u events = some u' → events.length ≤ bound
  complete : ∀ events u', (∀ event ∈ events, event.internal streamId = true) →
    run (uploadStep x streamId n) u events = some u' → Resting x streamId n u' →
      u'.delivered = u'.body ∧ (u'.fin = true → u'.eof = true)

def Strands (n : Nat) (u : Upload) : UploadEvent → Prop
  | .arrive data fin => data = [] ∧ fin = true ∧ u.reader = .receiving ∧ u.buffered = [] ∧
      u.codec.queued n = false
  | _ => False

instance (n : Nat) (u : Upload) : (event : UploadEvent) → Decidable (Strands n u event)
  | .arrive _ _ => inferInstanceAs (Decidable (_ ∧ _))
  | .codec _ => .isFalse id
  | .call => .isFalse id
  | .socketRead => .isFalse id
  | .checkFinished => .isFalse id
  | .receive => .isFalse id
  | .cancel => .isFalse id

/-! ## One step -/

structure UploadInv (streamId n : Nat) (u : Upload) : Prop where
  connected : Connected streamId n u.codec
  body : u.body = u.delivered ++ u.buffered
  eof : u.eof = true → u.fin = true ∧ u.buffered = []
  running : u.reader ≠ .failed
  triggered : u.triggered = true → u.buffered ≠ []
  reported : u.reported = true → u.fin = true
  told : u.reader = .checking ∨ u.reader = .receiving → u.buffered ≠ [] → u.triggered = true →
    u.codec.queued n = true
  ended : u.fin = true → u.reader = .receiving → u.buffered = [] → u.codec.queued n = true

section

variable {x : Builders} {streamId n : Nat} {u u' : Upload}

section

variable {event : Event} {s : State}

lemma UploadInv.awake (hc : Connected streamId n u.codec)
    (hb : u.body = u.delivered ++ u.buffered) (he : u.eof → u.fin ∧ u.buffered = [])
    (ht : u.triggered → u.buffered ≠ []) (hrep : u.reported → u.fin)
    (hre : u.reader = .idle ∨ u.reader = .reading) : UploadInv streamId n u := by
  refine ⟨hc, hb, he, ?_, ht, hrep, ?_, ?_⟩
  · intro hf
    rcases hre with h | h <;> cases h.symm.trans hf
  · rintro (hch | hr)
    · rcases hre with h | h <;> cases h.symm.trans hch
    · rcases hre with h | h <;> cases h.symm.trans hr
  · intro _ hr
    rcases hre with h | h <;> cases h.symm.trans hr

lemma uploadStep_codec (h : uploadStep x streamId n u (.codec event) = some u') :
    u.admits streamId n event ∧
      ∃ s, onEvent x u.codec event = some (.listening s) ∧ u' = u.noted streamId event s := by
  obtain ⟨ha, h⟩ := ite_none_right_eq_some.mp h
  split at h
  · rename_i s hs
    cases h
    exact ⟨ha, s, hs, rfl⟩
  · cases h

lemma spares_of_admits (h : u.admits streamId n event) : Spares x streamId u.codec event := by
  refine ⟨fun hr => ?_, fun m half hh hid => ⟨?_, ?_⟩⟩
  · unfold requestedBy at hr
    split at hr
    · split at hr
      · cases hr
        simp only [Upload.admits, ne_eq, not_true_eq_false, decide_false, Bool.false_eq_true] at h
      · cases hr
    · cases hr
  · rintro rfl
    simp [Upload.admits, hh, hid] at h
  · rintro rfl
    simp [Upload.admits, hh, hid] at h

lemma ne_received_of_admits (h : u.admits streamId n event) : event ≠ .received n := by
  rintro rfl
  simp [Upload.admits] at h

lemma data_of_admits (hu : Connected streamId n u.codec)
    (ha : u.admits streamId n event) (hd : isData streamId event)
    (h : onEvent x u.codec event = some (.listening s)) : u.dataDue ∧ s.queued n := by
  unfold isData at hd
  split at hd
  · rename_i id capacity closed
    obtain rfl : id = streamId := of_decide_eq_true hd
    constructor
    · simpa [Upload.admits] using ha
    · rw [onEvent_of_event rfl] at h
      cases closed with
      | true => cases h
      | false =>
        obtain ⟨s', hs', hq⟩ := onEvent_data hu capacity (x := x)
        rw [onEvent_of_event rfl] at hs'
        cases h.symm.trans hs'
        exact hq
  · cases hd

lemma finished_of_admits (hu : Connected streamId n u.codec)
    (ha : u.admits streamId n event) (hf : isFinished streamId event)
    (h : onEvent x u.codec event = some (.listening s)) :
    u.finishedDue ∧ s.halves = u.codec.halves := by
  unfold isFinished at hf
  split at hf
  · rename_i id capacity closed
    obtain rfl : id = streamId := of_decide_eq_true hf
    constructor
    · simpa [Upload.admits] using ha
    · rw [onEvent_of_event rfl] at h
      cases closed with
      | true => cases h
      | false =>
        obtain ⟨s', hs', hh⟩ := onEvent_finished hu capacity (x := x)
        rw [onEvent_of_event rfl] at hs'
        cases h.symm.trans hs'
        exact hh
  · cases hf

/-- **One step.** -/
lemma uploadInv_step {event : UploadEvent} (hu : UploadInv streamId n u)
    (hok : ¬ Strands n u event)
    (h : uploadStep x streamId n u event = some u') : UploadInv streamId n u' := by
  cases event with
  | arrive data =>
    obtain ⟨hfi, ⟨⟩⟩ := ite_none_left_eq_some.mp h
    have ho : u.eof ≠ true := fun heo => hfi (hu.eof heo).1
    have hd : u.buffered ≠ [] → u.buffered ++ data ≠ [] := by
      intro hne hn
      exact hne (List.append_eq_nil_iff.mp hn).1
    refine ⟨hu.connected, ?_, fun heo => absurd heo ho, hu.running,
      fun ht => hd (hu.triggered ht),
      fun hre => absurd (hu.reported hre) hfi, ?_, ?_⟩
    · show u.body ++ data = u.delivered ++ (u.buffered ++ data)
      rw [hu.body, List.append_assoc]
    · intro hr _ ht
      exact hu.told hr (hu.triggered ht) ht
    · intro he hr hn
      obtain ⟨hb, rfl⟩ := List.append_eq_nil_iff.mp hn
      by_contra hq
      exact hok ⟨rfl, he, hr, hb, Bool.not_eq_true _ ▸ hq⟩
  | codec =>
    obtain ⟨ha, s, hs, rfl⟩ := uploadStep_codec h
    have hq : u.codec.queued n → s.queued n :=
      queued_onEvent hu.connected (ne_received_of_admits ha) hs
    refine ⟨connected_onEvent hu.connected (spares_of_admits ha) hs, hu.body, hu.eof, hu.running,
      ?_, ?_, ?_, fun he hr hn => hq (hu.ended he hr hn)⟩
    · intro ht
      rcases Bool.or_eq_true_iff.mp ht with hold | hd
      · exact hu.triggered hold
      · have hdu := (data_of_admits hu.connected ha hd hs).1
        intro hn
        simp [Upload.dataDue, show u.buffered = [] from hn] at hdu
    · intro hre
      rcases Bool.or_eq_true_iff.mp hre with hold | hf
      · exact hu.reported hold
      · have hdu := (finished_of_admits hu.connected ha hf hs).1
        simp only [Upload.finishedDue, Bool.and_eq_true] at hdu
        exact hdu.1.1
    · intro hr hne ht
      rcases Bool.or_eq_true_iff.mp ht with hold | hd
      · exact hq (hu.told hr hne hold)
      · exact (data_of_admits hu.connected ha hd hs).2
  | call =>
    obtain ⟨-, ⟨⟩⟩ := ite_none_right_eq_some.mp h
    exact .awake hu.connected hu.body hu.eof hu.triggered hu.reported (.inr rfl)
  | socketRead =>
    obtain ⟨-, ⟨⟩⟩ := ite_none_right_eq_some.mp h
    unfold Upload.socketRead
    split
    · rename_i hn
      exact ⟨hu.connected, hu.body, hu.eof, (fun hfa => by cases hfa), hu.triggered, hu.reported,
        fun _ hne => absurd hn hne, (fun _ hr => by cases hr)⟩
    · rename_i hne
      refine .awake hu.connected ?_ (fun heo => absurd (hu.eof heo).2 hne) ?_ hu.reported (.inl rfl)
      · show u.body = u.delivered ++ u.buffered.take readChunkSize ++ u.buffered.drop readChunkSize
        rw [List.append_assoc, List.take_append_drop, hu.body]
      · intro ht hn
        simp only [Bool.and_eq_true, Bool.not_eq_true'] at ht
        rw [show List.drop readChunkSize u.buffered = [] from hn] at ht
        cases ht.2
  | checkFinished =>
    obtain ⟨hr, ⟨⟩⟩ := ite_none_right_eq_some.mp h
    unfold Upload.checkFinished
    split
    · rename_i hf
      rw [Bool.and_eq_true, List.isEmpty_iff] at hf
      exact .awake hu.connected hu.body (fun _ => hf) hu.triggered hu.reported (.inl rfl)
    · rename_i hf
      rw [Bool.and_eq_true, List.isEmpty_iff] at hf
      exact ⟨hu.connected, hu.body, hu.eof, (fun hfa => by cases hfa), hu.triggered, hu.reported,
        fun _ => hu.told (.inl hr), fun he _ hn => absurd ⟨he, hn⟩ hf⟩
  | receive =>
    obtain ⟨-, h⟩ := ite_none_right_eq_some.mp h
    rcases onEvent_received hu.connected (x := x) with ⟨s, hs, -, -⟩ | ⟨hno, -⟩
    · rw [hs] at h
      cases h
      refine .awake (connected_onEvent hu.connected ⟨?_,
        ?_⟩ hs) hu.body hu.eof hu.triggered hu.reported
        (.inr rfl)
      · intro hreq
        cases hreq
      · intro m half _ _
        constructor <;> intro hev <;> cases hev
    · rw [hno] at h
      obtain ⟨stream, hst, hc, -⟩ := hu.connected.stream
      simp [hst, hc] at h
  | cancel =>
    obtain ⟨-, ⟨⟩⟩ := ite_none_right_eq_some.mp h
    exact .awake hu.connected hu.body hu.eof hu.triggered hu.reported (.inl rfl)

end

end

/-! ## Coming to rest -/

def Reader.effort (eof : Bool) : Reader → Nat
  | .idle => if eof then 0 else 7
  | .reading => 6
  | .checking => 5
  | .receiving => 4
  | .failed => 0

def Upload.effort (n : Nat) (u : Upload) : Nat :=
  10 * u.buffered.length + u.reader.effort u.eof + 3 * (u.codec.queued n).toNat + 4 * u.dataDue.toNat +
    (!u.reported).toNat

section

variable {x : Builders} {streamId n : Nat} {u u' : Upload}

section

variable {event : UploadEvent} {events : List UploadEvent}

lemma Reader.effort_idle_le (eof : Bool) : Reader.effort eof .idle ≤ 7 := by
  cases eof <;> decide

lemma effort_socketRead (hr : u.reader = .reading) : u.socketRead.effort n + 1 ≤ u.effort n := by
  unfold Upload.socketRead
  split
  · simp only [Upload.effort, Upload.dataDue, hr, Reader.effort]
    omega
  · rename_i hne
    have hrest : (u.buffered.drop readChunkSize).length + 1 ≤ u.buffered.length := by
      have hlen := List.length_pos_iff.mpr hne
      rw [List.length_drop, readChunkSize]
      omega
    have hdue : (!(u.buffered.drop readChunkSize).isEmpty &&
        !(u.triggered && !(u.buffered.drop readChunkSize).isEmpty)).toNat ≤ u.dataDue.toNat := by
      have hb : u.buffered.isEmpty = false := by
        rw [← Bool.not_eq_true, List.isEmpty_iff]
        exact hne
      rw [Upload.dataDue, hb]
      cases (u.buffered.drop readChunkSize).isEmpty <;> cases u.triggered <;> decide
    have hidle := Reader.effort_idle_le u.eof
    have hreading : u.reader.effort u.eof = 6 := by rw [hr, Reader.effort]
    show 10 * (u.buffered.drop readChunkSize).length + Reader.effort u.eof .idle +
      3 * (u.codec.queued n).toNat + 4 * (!(u.buffered.drop readChunkSize).isEmpty &&
        !(u.triggered && !(u.buffered.drop readChunkSize).isEmpty)).toNat + (!u.reported).toNat +
          1 ≤
      u.effort n
    rw [Upload.effort]
    omega

/-- **One step on the way to rest.** -/
lemma effort_step (hu : UploadInv streamId n u) (hi : event.internal streamId)
    (h : uploadStep x streamId n u event = some u') : u'.effort n + 1 ≤ u.effort n := by
  cases event with
  | arrive | cancel => cases hi
  | codec event =>
    obtain ⟨ha, s, hs, rfl⟩ := uploadStep_codec h
    rcases Bool.or_eq_true_iff.mp hi with hda | hf
    · obtain ⟨hd, hq⟩ := data_of_admits hu.connected ha hda hs
      have hn : (u.noted streamId event s).dataDue = false := by
        simp [Upload.dataDue, Upload.noted, hda]
      have hre : (!(u.reported || isFinished streamId event)).toNat ≤ (!u.reported).toNat := by
        cases u.reported <;> cases isFinished streamId event <;> decide
      rw [Upload.effort, Upload.effort, hd, hn]
      simp only [Upload.noted, hq, Bool.toNat_true, Bool.toNat_false]
      omega
    · obtain ⟨hd, hh⟩ := finished_of_admits hu.connected ha hf hs
      simp only [Upload.finishedDue, Bool.and_eq_true, Bool.not_eq_true', List.isEmpty_iff] at hd
      obtain ⟨⟨-, hni⟩, hre⟩ := hd
      have hq : s.queued n = u.codec.queued n := by
        rw [State.queued, hh, State.queued]
      simp only [Upload.effort, Upload.dataDue, Upload.noted, hni, hre, hf, hq,
        List.isEmpty_nil, Bool.not_true, Bool.false_and, Bool.or_true, Bool.not_false,
          Bool.toNat_true,
        Bool.toNat_false]
      omega
  | call =>
    obtain ⟨hid, ⟨⟩⟩ := ite_none_right_eq_some.mp h
    simp only [Upload.effort, Upload.dataDue, hid.1, hid.2, Reader.effort, Bool.false_eq_true,
      if_false]
    omega
  | socketRead =>
    obtain ⟨hr, ⟨⟩⟩ := ite_none_right_eq_some.mp h
    exact effort_socketRead hr
  | checkFinished =>
    obtain ⟨hr, ⟨⟩⟩ := ite_none_right_eq_some.mp h
    unfold Upload.checkFinished
    split <;> simp only [Upload.effort, Upload.dataDue, hr, Reader.effort, if_true] <;> omega
  | receive =>
    obtain ⟨hr, h⟩ := ite_none_right_eq_some.mp h
    rcases onEvent_received hu.connected (x := x) with ⟨s, hs, hq, he⟩ | ⟨hno, -⟩
    · rw [hs] at h
      cases h
      simp only [Upload.effort, Upload.dataDue, hr, Reader.effort, hq, he,
        Bool.toNat_true, Bool.toNat_false]
      omega
    · rw [hno] at h
      obtain ⟨stream, hst, hc, -⟩ := hu.connected.stream
      simp [hst, hc] at h

lemma not_strands_of_internal (h : event.internal streamId) : ¬ Strands n u event := by
  cases event with
  | arrive => cases h
  | _ => exact id

lemma uploadInv_internal (hu : UploadInv streamId n u)
    (hi : ∀ event ∈ events, event.internal streamId)
    (hr : run (uploadStep x streamId n) u events = some u') : UploadInv streamId n u' := by
  induction events generalizing u with
  | nil =>
    cases hr
    exact hu
  | cons event events ih =>
    obtain ⟨u1, hs, hre⟩ := run_cons hr
    obtain ⟨hev, he⟩ := List.forall_mem_cons.mp hi
    exact ih (uploadInv_step hu (not_strands_of_internal hev) hs) he hre

lemma length_le_effort (hu : UploadInv streamId n u)
    (hi : ∀ event ∈ events, event.internal streamId)
    (hr : run (uploadStep x streamId n) u events = some u') : events.length ≤ u.effort n := by
  have hc : events.countP (fun _ => true) + u'.effort n ≤ u.effort n := by
    refine count_le_of_potential (UploadInv streamId n) (fun _ => true) (Upload.effort n) ?_ hu
      (everyStep_of_forall u hi) hr
    intro u event u' hu he hs
    exact ⟨uploadInv_step hu (not_strands_of_internal he) hs, effort_step hu he hs⟩
  rw [List.countP_true] at hc
  omega

lemma complete_of_resting (hu : UploadInv streamId n u) (hres : Resting x streamId n u) :
    u.delivered = u.body ∧ (u.fin → u.eof) := by
  have hal : u.buffered = [] → u.delivered = u.body := by
    intro hn
    rw [hu.body, hn, List.append_nil]
  cases hr : u.reader with
  | idle =>
    have hc := hres .call rfl
    simp only [uploadStep, hr, true_and] at hc
    split at hc
    · cases hc
    · rename_i heo
      rw [Bool.not_eq_false] at heo
      exact ⟨hal (hu.eof heo).2, fun _ => heo⟩
  | reading =>
    have hrea := hres .socketRead rfl
    rw [uploadStep, if_pos hr] at hrea
    cases hrea
  | checking =>
    have hch := hres .checkFinished rfl
    rw [uploadStep, if_pos hr] at hch
    cases hch
  | failed => exact absurd hr hu.running
  | receiving =>
    have hre := hres .receive rfl
    rw [uploadStep, if_pos hr] at hre
    rcases onEvent_received hu.connected (x := x) with ⟨s, hs, -, -⟩ | ⟨-, he⟩
    · rw [hs] at hre
      cases hre
    · -- with data in the buffer the codec would be told about it, or a message is in the channel
      have hn : u.buffered = [] := by
        by_contra hne
        cases ht : u.triggered with
        | true =>
          have hq := hu.told (.inr hr) hne ht
          rw [he] at hq
          cases hq
        | false =>
          have hd := hres (.codec (.poll (.data streamId) (fun _ => none) false))
            (by simp [UploadEvent.internal, isData])
          have ha : u.admits streamId n (.poll (.data streamId) (fun _ => none) false) := by
            simp [Upload.admits, Upload.dataDue, ht, hne]
          obtain ⟨s, hs, -⟩ := onEvent_data hu.connected (fun _ => none) (x := x)
          rw [uploadStep, if_pos ha, hs] at hd
          cases hd
      refine ⟨hal hn, fun hf => ?_⟩
      have hq := hu.ended hf hr hn
      rw [he] at hq
      cases hq

lemma UploadInv.delivers (hu : UploadInv streamId n u) : Delivers x streamId n u where
  order := by
    rw [hu.body]
    exact List.prefix_append u.delivered u.buffered
  whole he := by
    obtain ⟨hf, hn⟩ := hu.eof he
    exact ⟨hf, by rw [hu.body, hn, List.append_nil]⟩
  rests := ⟨u.effort n, fun _ _ hi hr => length_le_effort hu hi hr⟩
  complete _ _ hi hr hre := complete_of_resting (uploadInv_internal hu hi hr) hre

end

/-! ## The end alone -/

lemma resting_of_receiving (hu : Connected streamId n u.codec) (hr : u.reader = .receiving)
    (he : u.codec.queued n = false) (hd : u.dataDue = false) (hf : u.finishedDue = false) :
    Resting x streamId n u := by
  intro event hi
  cases event with
  | arrive | cancel => cases hi
  | call | socketRead | checkFinished => simp [uploadStep, hr]
  | receive =>
    rw [uploadStep, if_pos hr]
    rcases onEvent_received hu (x := x) with ⟨s, -, hq, -⟩ | ⟨hn, -⟩
    · rw [he] at hq
      cases hq
    · obtain ⟨stream, hst, hc, -⟩ := hu.stream
      simp [hn, hst, hc]
  | codec event =>
    cases hste : uploadStep x streamId n u (.codec event) with
    | none => rfl
    | some =>
      obtain ⟨ha, s, hs, -⟩ := uploadStep_codec hste
      rcases Bool.or_eq_true_iff.mp hi with h | h
      · cases hd.symm.trans (data_of_admits hu ha h hs).1
      · cases hf.symm.trans (finished_of_admits hu ha h hs).1

lemma not_delivers_of_strands (hu : UploadInv streamId n u)
    (hst : Strands n u event) (h : uploadStep x streamId n u event = some u') :
    ¬ Delivers x streamId n u' := by
  cases event with
  | arrive data fin =>
    obtain ⟨rfl, rfl, hre, hn, hem⟩ := hst
    obtain ⟨hf, ⟨⟩⟩ := ite_none_left_eq_some.mp h
    intro hd
    have heo : u.eof = false := by
      rw [← Bool.not_eq_true]
      exact fun heo => hf (hu.eof heo).1
    have hr : u.reported = false := by
      rw [← Bool.not_eq_true]
      exact fun hr => hf (hu.reported hr)
    -- the codec is told about the end, and shuts the read side down
    let finished : Event := .poll (.finished streamId) (fun _ => none) false
    let ended : Upload := { u with buffered := u.buffered ++ [], fin := true, body := u.body ++ [] }
    obtain ⟨s, hs, hh⟩ := onEvent_finished hu.connected (fun _ => none) (x := x)
    have ha : ended.admits streamId n finished := by
      simp [ended, finished, Upload.admits, Upload.finishedDue, hn, hr]
    have hste : run (uploadStep x streamId n) ended [.codec finished] =
        some (ended.noted streamId finished s) := by
      rw [run, uploadStep, if_pos ha, hs]
      rfl
    have hres : Resting x streamId n (ended.noted streamId finished s) := by
      have hsp : Spares x streamId ended.codec finished := spares_of_admits ha
      refine resting_of_receiving (connected_onEvent hu.connected hsp hs) hre ?_ ?_ ?_
      · show s.queued n = false
        rw [State.queued, hh]
        exact hem
      · simp [ended, Upload.dataDue, Upload.noted, hn]
      · simp [finished, Upload.finishedDue, Upload.noted, isFinished]
    have hc := hd.complete [.codec finished] _ ?_ hste hres
    · cases heo.symm.trans (hc.2 rfl)
    · intro event he
      rw [List.mem_singleton.mp he]
      simp [finished, UploadEvent.internal, isFinished]
  | _ => exact hst.elim

/-! ## Whole runs -/

lemma uploadInv_start (hs : Connected streamId n s) : UploadInv streamId n (Upload.start s) := by
  refine .awake hs rfl ?_ ?_ ?_ (.inl rfl) <;> intro h <;> cases h

end

/-- **The end of an upload**, for every schedule of the body, its end and reads. -/
theorem upload_delivered_iff (x : Builders) {events : List Event} {s : State} {requested : List Nat}
    (hrun : run (observed (step x) (noteRequest x)) (.listening init, []) events =
      some (.listening s, requested)) {streamId : Nat} (hnew : streamId ∉ requested)
    (schedule : List UploadEvent) :
    EveryState (uploadStep x streamId s.nextHalf) (Delivers x streamId s.nextHalf)
        (Upload.start (onRequest s streamId)) schedule ↔
      EveryStep (uploadStep x streamId s.nextHalf) (fun u event => ¬ Strands s.nextHalf u event)
        (Upload.start (onRequest s streamId)) schedule := by
  have hst := uploadInv_start (connected_onRequest (known_run hrun) hnew)
  refine everyState_iff_everyStep ?_ ?_ ?_ schedule hst
  · intro u event u' hu hok hs
    exact uploadInv_step hu hok hs
  · intro u hu
    exact hu.delivers
  · intro u event u' hu hb hs
    exact not_delivers_of_strands hu (not_not.mp hb) hs

/-- The last data and the end come together while a read waits. -/
def endWithData : List UploadEvent :=
  [.arrive [1, 2] false, .codec (dataOn 4), .call, .socketRead, .call, .socketRead, .checkFinished,
    .receive, .socketRead, .checkFinished, .arrive [3] true, .codec (dataOn 4), .receive, .socketRead,
    .call, .socketRead, .codec (.poll (.finished 4) (fun _ => none) false), .checkFinished]

theorem endWithData_delivered :
    (run (uploadStep plain 4 2) (Upload.start (onRequest (onRequest init 0) 4)) endWithData).map
        (fun u => (u.delivered, u.eof)) = some ([1, 2, 3], true) ∧
      EveryState (uploadStep plain 4 2) (Delivers plain 4 2)
        (Upload.start (onRequest (onRequest init 0) 4)) endWithData := by
  refine ⟨by decide, ?_⟩
  have hr : run (observed (step plain) (noteRequest plain)) (.listening init, []) [opened 0] =
      some (.listening (onRequest init 0), [0]) := rfl
  exact (upload_delivered_iff plain hr (by decide) endWithData).mpr (by decide)

def endAlone : List UploadEvent :=
  [.arrive [1, 2] false, .call, .socketRead, .call, .socketRead, .checkFinished, .arrive [] true,
    .codec (.poll (.finished 0) (fun _ => none) false)]

/-- The codec has taken the end, and the read waits on. -/
theorem endAlone_waits :
    (∃ u, run (uploadStep plain 0 0) (Upload.start (onRequest init 0)) endAlone = some u ∧
      u.fin = true ∧ u.reader = .receiving ∧ u.eof = false ∧ Resting plain 0 0 u) ∧
      ¬ EveryState (uploadStep plain 0 0) (Delivers plain 0 0)
        (Upload.start (onRequest init 0)) endAlone := by
  let codec : State := { onRequest init 0 with
    streams := (onRequest init 0).streams.insert 0 ⟨0, 1, true, false⟩, shutdowns := [(0, .read)] }
  let last : Upload := ⟨codec, [], true, false, true, .receiving, [1, 2], false, [1, 2]⟩
  have hl : run (uploadStep plain 0 0) (Upload.start (onRequest init 0)) endAlone = some last := rfl
  have hco : run (observed (step plain) (noteRequest plain)) (.listening init, [])
      [opened 0, .poll (.finished 0) (fun _ => none) false] = some (.listening codec, [0]) := rfl
  have hc : Connected 0 0 codec :=
    ⟨(known_run hco).wired, ⟨_, rfl, rfl, rfl⟩, ⟨_, rfl, rfl, rfl⟩, fun _ h => (by cases h)⟩
  have hr : Resting plain 0 0 last := resting_of_receiving hc rfl rfl rfl rfl
  refine ⟨⟨last, hl, rfl, rfl, rfl, hr⟩, fun h => ?_⟩
  have hcom := (EveryState.last h hl).complete [] last (fun _ h => (by cases h)) rfl hr
  cases hcom.2 rfl

end TrustTunnel.Http3Codec
