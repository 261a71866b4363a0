import TrustTunnel.ForwardedRequest

/-!
# Dropped reads of a forwarded request (`http_forwarded_stream.rs`)

`read_body` takes the state, leaves `Done`, and puts it back after the answer; a dropped future
takes the state with it.
-/

namespace TrustTunnel.HttpForwardedStream

open Io Lib List Option
open Pipe (Data)
open Lib.Http1 (utf8)

namespace Cancellation

/-! ## Reads -/

/-- `awaiting` is held by the future, `source` is still to come, `results` were returned. -/
structure Reading where
  stream : ForwardedStreamSource
  awaiting : Option (BodyLength × Nat)
  source : List Bytes
  results : List Data

/-- `read` is called, the client's source answers, or the future is dropped. -/
inductive Event where
  | call
  | answer
  | drop

def Reading.restored (s : Reading) : ForwardedStreamSource :=
  match s.awaiting with
  | none => s.stream
  | some (bodyLength, sentBytes) =>
    { s.stream with state := .transferringBody bodyLength sentBytes }

/-- `read` returns. -/
def Reading.complete (s : Reading) : Reading :=
  let (data, stream, source) := s.restored.read s.source
  { stream, awaiting := none, source, results := s.results ++ [data] }

def step (s : Reading) : Event → Option Reading
  | .call =>
    match s.awaiting, s.stream.state with
    | some _, _ => none
    | none, .transferringBody bodyLength sentBytes =>
      -- `std::mem::replace(&mut self.state, SourceState::Done)`
      some { s with stream := { s.stream with state := .done },
                    awaiting := some (bodyLength, sentBytes) }
    | none, _ => some s.complete
  | .answer => if s.awaiting.isSome then some s.complete else none
  | .drop => if s.awaiting.isSome then some { s with awaiting := none } else none

def init (serializedRequest : Bytes) (bodyLength : BodyLength) (source : List Bytes) : Reading :=
  ⟨intoForwarded serializedRequest bodyLength, none, source, []⟩

/-! ## The promise -/

/-- What the next `k` calls return if none of them is dropped. -/
def reads : Nat → ForwardedStreamSource → List Bytes → List Data
  | 0, _, _ => []
  | k + 1, s, source =>
    let (data, s', source') := s.read source
    data :: reads k s' source'

/-- What `read` returns is what it would return if it were never dropped. -/
def Resumes (serializedRequest : Bytes) (bodyLength : BodyLength) (source : List Bytes)
    (s : Reading) : Prop :=
  ∀ k, s.results ++ reads k s.restored s.source =
    reads (s.results.length + k) (intoForwarded serializedRequest bodyLength) source

def Reading.bodyLeft (s : Reading) : Bool :=
  match s.awaiting with
  | none => false
  | some (.determined n, sentBytes) => decide (sentBytes < n) && !s.source.isEmpty
  | some (.chunked, _) => !s.source.isEmpty

def Spares (s : Reading) (e : Event) : Prop := ¬ (e = .drop ∧ s.bodyLeft = true)

/-! ## Steps -/

lemma reads_done (k skip : Nat) (source : List Bytes) :
    reads k ⟨.done, skip⟩ source = replicate k .eof := by
  induction k with
  | zero => rfl
  | succ k ih =>
    rw [replicate_succ, ← ih]
    rfl

lemma reads_restored {s : Reading} (ha : s.awaiting.isSome) (k : Nat) :
    (s.bodyLeft = false → reads k s.restored s.source = replicate k .eof) ∧
      (s.bodyLeft → ∃ bytes, reads 1 s.restored s.source = [.chunk bytes]) := by
  obtain ⟨⟨bodyLength, sentBytes⟩, heq⟩ := isSome_iff_exists.mp ha
  have hr : s.restored = ⟨.transferringBody bodyLength sentBytes, s.stream.skipConsumeBytes⟩ := by
    rw [Reading.restored, heq]
  -- at the end of the body the state is `Done` again
  have he : s.restored.read s.source = (.eof, ⟨.done, s.stream.skipConsumeBytes⟩, s.source.tail) →
      reads k s.restored s.source = replicate k .eof := by
    intro hre
    cases k with
    | zero => rfl
    | succ k => rw [reads, hre, replicate_succ, ← reads_done k s.stream.skipConsumeBytes]
  cases hs : s.source with
  | nil =>
    rw [hs] at he
    refine ⟨fun _ => he (by rw [hr]; rfl), fun h => ?_⟩
    cases bodyLength <;> simp [Reading.bodyLeft, heq, hs] at h
  | cons bytes =>
    rw [hs] at he
    cases bodyLength with
    | determined n =>
      by_cases hlt : sentBytes < n
      · refine ⟨fun h => ?_, fun _ => ⟨bytes.take (min bytes.length (n - sentBytes)), ?_⟩⟩
        · simp [Reading.bodyLeft, heq, hs, hlt] at h
        · simp [reads, hr, ForwardedStreamSource.read, readBody, hlt]
      · refine ⟨fun _ => he ?_, fun h => ?_⟩
        · simp [hr, ForwardedStreamSource.read, readBody, hlt]
        · simp [Reading.bodyLeft, heq, hlt] at h
    | chunked =>
      refine ⟨fun h => ?_, fun _ => ⟨bytes, by rw [hr]; rfl⟩⟩
      simp [Reading.bodyLeft, heq, hs] at h

/-- While a future waits, `Done` stands in for the state it holds. -/
structure Inv (serializedRequest : Bytes) (bodyLength : BodyLength) (source : List Bytes)
    (s : Reading) : Prop where
  resumes : Resumes serializedRequest bodyLength source s
  replaced : s.awaiting.isSome = true → s.stream.state = .done

section

variable {serializedRequest : Bytes} {bodyLength : BodyLength} {source : List Bytes} {s s' : Reading}

lemma Inv.complete (hs : Inv serializedRequest bodyLength source s) :
    Inv serializedRequest bodyLength source s.complete := by
  refine ⟨fun k => ?_, (fun h => by cases h)⟩
  have hk := hs.resumes (k + 1)
  have hsu : s.results.length + (k + 1) = (s.results.length + 1) + k := by omega
  rw [reads, hsu] at hk
  simp only [Reading.complete, Reading.restored, length_append, length_singleton,
    append_assoc, singleton_append]
  exact hk

lemma reads_dropped (hs : Inv serializedRequest bodyLength source s)
    (ha : s.awaiting.isSome) (k : Nat) :
    reads k { s with awaiting := none }.restored s.source = replicate k .eof := by
  have hd : { s with awaiting := none }.restored = ⟨.done, s.stream.skipConsumeBytes⟩ := by
    rw [← hs.replaced ha]
    rfl
  rw [hd, reads_done]

lemma drop_iff (hs : Inv serializedRequest bodyLength source s) (ha : s.awaiting.isSome) :
    Resumes serializedRequest bodyLength source { s with awaiting := none } ↔
      s.bodyLeft = false := by
  constructor
  · intro h
    by_contra hl
    obtain ⟨bytes, hb⟩ := (reads_restored ha 1).2 (Bool.not_eq_false _ ▸ hl)
    have hd := h 1
    rw [reads_dropped hs ha, ← hs.resumes 1, hb] at hd
    cases append_cancel_left hd
  · intro hl k
    rw [reads_dropped hs ha, ← (reads_restored ha k).1 hl]
    exact hs.resumes k

/-- **One step.** -/
lemma resumes_step (hs : Inv serializedRequest bodyLength source s) (hst : step s e = some s') :
    (Spares s e → Inv serializedRequest bodyLength source s') ∧
      (¬ Spares s e → ¬ Resumes serializedRequest bodyLength source s') := by
  cases e with
  | call =>
    refine ⟨fun _ => ?_, fun h => absurd (fun h => by cases h.1) h⟩
    cases ha : s.awaiting with
    | some => simp [step, ha] at hst
    | none =>
      cases hsta : s.stream.state with
      | transferringBody l n =>
        simp only [step, ha, hsta, some.injEq] at hst
        subst hst
        have hr : s.restored = ⟨.transferringBody l n, s.stream.skipConsumeBytes⟩ := by
          rw [Reading.restored, ha, ← hsta]
        refine ⟨fun k => ?_, fun _ => rfl⟩
        have hk := hs.resumes k
        rw [hr] at hk
        exact hk
      | wantSendRequest | done =>
        simp only [step, ha, hsta, some.injEq] at hst
        exact hst ▸ hs.complete
  | answer =>
    refine ⟨fun _ => ?_, fun h => absurd (fun h => by cases h.1) h⟩
    obtain ⟨-, ⟨⟩⟩ := ite_none_right_eq_some.mp hst
    exact hs.complete
  | drop =>
    obtain ⟨ha, ⟨⟩⟩ := ite_none_right_eq_some.mp hst
    have hd := drop_iff hs ha
    refine ⟨fun h => ⟨hd.mpr ?_, (fun h => by cases h)⟩, fun h hre => ?_⟩
    · exact Bool.not_eq_true _ ▸ fun hl => h ⟨rfl, hl⟩
    · obtain ⟨-, hl⟩ := not_not.mp h
      rw [hd.mp hre] at hl
      cases hl

end

/-- **Dropped reads** are harmless exactly if none would have returned a part of the body. -/
theorem resumes_iff (serializedRequest : Bytes) (bodyLength : BodyLength) (source : List Bytes)
    (events : List Event) :
    EveryState step (Resumes serializedRequest bodyLength source)
        (init serializedRequest bodyLength source) events ↔
      EveryStep step Spares (init serializedRequest bodyLength source) events := by
  refine everyState_iff_everyStep ?_
    (fun s (hs : Inv serializedRequest bodyLength source s) => hs.resumes) ?_ events ?_
  · intro s e s' hs hsp hst
    exact (resumes_step hs hst).1 hsp
  · intro s e s' hs hsp hst
    exact (resumes_step hs hst).2 hsp
  · refine ⟨fun k => ?_, (fun h => by cases h)⟩
    simp only [init, nil_append, length_nil, Nat.zero_add]
    rfl

/-- The body is lost. -/
theorem hello_dropped :
    ∃ s, run step (init (utf8 "POST / HTTP/1.1\r\nContent-Length: 5\r\n\r\n") (.determined 5)
        [utf8 "hello"]) [.call, .call, .drop, .call] = some s ∧
      s.results = [.chunk (utf8 "POST / HTTP/1.1\r\nContent-Length: 5\r\n\r\n"), .eof] ∧
      ¬ Resumes (utf8 "POST / HTTP/1.1\r\nContent-Length: 5\r\n\r\n") (.determined 5)
        [utf8 "hello"] s := by
  have hru : (run step (init (utf8 "POST / HTTP/1.1\r\nContent-Length: 5\r\n\r\n") (.determined 5)
      [utf8 "hello"]) [.call, .call, .drop, .call]).map Reading.results =
        some [.chunk (utf8 "POST / HTTP/1.1\r\nContent-Length: 5\r\n\r\n"), .eof] := by
    decide +kernel
  obtain ⟨s, hs, hr⟩ := map_eq_some_iff.mp hru
  refine ⟨s, hs, hr, fun h => ?_⟩
  have hz := h 0
  rw [hr, reads, append_nil] at hz
  revert hz
  decide +kernel

end Cancellation

end TrustTunnel.HttpForwardedStream
