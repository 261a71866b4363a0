import TrustTunnel.Http3Channels

/-!
# The table of an HTTP/3 codec

A direction is shut down for many reasons, in any order, also when the stream is gone.
-/

namespace TrustTunnel.Http3Codec

open Lib AList List

/-! ## A shutdown -/

section

variable {streamId : Nat} {stream : Stream} {direction : Option Direction}

lemma mem_shutdownCalls : (streamId', d) ∈ shutdownCalls streamId stream direction ↔
      streamId' = streamId ∧ closes direction d ∧ stream.shut d = false := by
  have ha : ∀ d : Direction, d ∈ [Direction.read, Direction.write] := by
    intro d
    cases d <;> decide
  simp only [shutdownCalls, mem_map, mem_filter, ha, true_and, Bool.and_eq_true,
    Bool.not_eq_true', Prod.mk.injEq]
  constructor
  · rintro ⟨d', hd', rfl, rfl⟩
    exact ⟨rfl, hd'⟩
  · rintro ⟨rfl, hd⟩
    exact ⟨d, hd, rfl, rfl⟩

lemma nodup_shutdownCalls (streamId : Nat) (stream : Stream) (direction : Option Direction) :
    (shutdownCalls streamId stream direction).Nodup := by
  have hf : ([Direction.read, .write].filter
      (fun d => closes direction d && !stream.shut d)).Nodup :=
    List.Nodup.filter _ (by decide)
  refine hf.map ?_
  intro d d' h
  exact (Prod.mk.inj h).2

lemma Stream.bothShut_iff (stream : Stream) : stream.bothShut ↔ ∀ d, stream.shut d := by
  rw [Stream.bothShut, Bool.and_eq_true]
  refine ⟨fun h d => ?_, fun h => ⟨h .read, h .write⟩⟩
  cases d with
  | read => exact h.1
  | write => exact h.2

end

/-! ## The table -/

def BothShut (s : State) (streamId : Nat) : Prop := ∀ d : Direction, (streamId, d) ∈ s.shutdowns

structure TableInv (s : State) (requested : List Nat) : Prop where
  once : s.shutdowns.Nodup
  known : ∀ streamId d, (streamId, d) ∈ s.shutdowns → streamId ∈ requested
  listed : ∀ streamId stream, s.streams.lookup streamId = some stream → streamId ∈ requested
  flags : ∀ streamId stream, s.streams.lookup streamId = some stream →
    ∀ d, stream.shut d = true ↔ (streamId, d) ∈ s.shutdowns
  some_open : ∀ streamId stream, s.streams.lookup streamId = some stream → ¬ ∀ d, stream.shut d = true
  both_shut : ∀ streamId ∈ requested, s.streams.lookup streamId = none → BothShut s streamId

lemma tableInv_init : TableInv init [] where
  once := nodup_nil
  known _ _ h := by cases h
  listed _ _ h := by cases h
  flags _ _ h := by cases h
  some_open _ _ h := by cases h
  both_shut _ h := by cases h

section

variable {s s' : State} {requested : List Nat} {streamId : Nat}

lemma tableInv_of_eq (hs : TableInv s requested) (hst : s'.streams = s.streams)
    (hsh : s'.shutdowns = s.shutdowns) : TableInv s' requested := by
  constructor
  · rw [hsh]
    exact hs.once
  · rw [hsh]
    exact hs.known
  · rw [hst]
    exact hs.listed
  · rw [hst, hsh]
    exact hs.flags
  · rw [hst]
    exact hs.some_open
  · intro id hid h d
    rw [hst] at h
    rw [hsh]
    exact hs.both_shut id hid h d

lemma tableInv_onRequest (hs : TableInv s requested) (hn : streamId ∉ requested) :
    TableInv (onRequest s streamId) (streamId :: requested) := by
  have hno : ∀ d, (streamId, d) ∉ s.shutdowns := fun d h => hn (hs.known streamId d h)
  constructor
  · exact hs.once
  · exact fun id d h => mem_cons_of_mem _ (hs.known id d h)
  · intro id stream h
    rcases Table.lookup_insert_cases h with ⟨rfl, -⟩ | ⟨-, ho⟩
    · exact mem_cons_self
    · exact mem_cons_of_mem _ (hs.listed id stream ho)
  · intro id stream h d
    rcases Table.lookup_insert_cases h with ⟨rfl, rfl⟩ | ⟨-, ho⟩
    · refine iff_of_false ?_ (hno d)
      cases d <;> exact Bool.false_ne_true
    · exact hs.flags id stream ho d
  · intro id stream h
    rcases Table.lookup_insert_cases h with ⟨rfl, rfl⟩ | ⟨-, ho⟩
    · exact fun ha => Bool.false_ne_true (ha .read)
    · exact hs.some_open id stream ho
  · intro id hid h
    by_cases heq : id = streamId
    · subst heq
      simp only [onRequest, lookup_insert] at h
      cases h
    · simp only [onRequest, lookup_insert_ne heq] at h
      exact hs.both_shut id ((mem_cons.mp hid).resolve_left heq) h

/-- **One shutdown.** -/
lemma tableInv_shutDown (hs : TableInv s requested)
    (hstr : s.streams.lookup streamId = some stream) (direction : Option Direction) :
    TableInv (s.shutDown streamId stream direction) requested := by
  obtain ⟨s', hs'⟩ : ∃ s', s' = s.shutDown streamId stream direction := ⟨_, rfl⟩
  have hsh : s'.shutdowns = s.shutdowns ++ shutdownCalls streamId stream direction :=
    by rw [hs']; rfl
  have hst : s'.streams = if (stream.close direction).bothShut then s.streams.erase streamId
      else s.streams.insert streamId (stream.close direction) := by rw [hs']; rfl
  rw [← hs']
  have hm : ∀ id d, (id, d) ∈ s'.shutdowns ↔ (id, d) ∈ s.shutdowns ∨
      id = streamId ∧ closes direction d ∧ stream.shut d = false := by
    intro id d
    rw [hsh, mem_append, mem_shutdownCalls]
  have hl := hs.listed streamId stream hstr
  -- the flags of the stream are what was shut down with this shutdown
  have hf : ∀ d, (stream.close direction).shut d ↔ (streamId, d) ∈ s'.shutdowns := by
    intro d
    rw [hm, ← hs.flags streamId stream hstr, Stream.shut_close]
    cases stream.shut d <;> cases closes direction d <;> simp
  -- the other streams are as before
  have ho : ∀ id, id ≠ streamId → s'.streams.lookup id = s.streams.lookup id ∧
      ∀ d, (id, d) ∈ s'.shutdowns ↔ (id, d) ∈ s.shutdowns := by
    intro id hne
    refine ⟨?_, fun d => ?_⟩
    · rw [hst]
      split
      · exact lookup_erase_ne hne
      · exact lookup_insert_ne hne
    · rw [hm]
      exact or_iff_left fun hid => hne hid.1
  have hse : ∀ stream', s'.streams.lookup streamId = some stream' →
      stream' = stream.close direction ∧ ¬ ∀ d, (stream.close direction).shut d := by
    intro stream' h'
    rw [← Stream.bothShut_iff]
    rw [hst] at h'
    split at h'
    · rw [lookup_erase] at h'
      cases h'
    · rename_i hop
      rw [lookup_insert] at h'
      cases h'
      exact ⟨rfl, hop⟩
  constructor
  · rw [hsh, nodup_append']
    refine ⟨hs.once, nodup_shutdownCalls streamId stream direction, ?_⟩
    rintro ⟨id, d⟩ hold hn
    obtain ⟨rfl, -, hop⟩ := mem_shutdownCalls.mp hn
    rw [← hs.flags id stream hstr, hop] at hold
    cases hold
  · intro id d hid
    rcases (hm id d).mp hid with hold | ⟨rfl, -⟩
    · exact hs.known id d hold
    · exact hl
  · intro id stream' h'
    by_cases hid : id = streamId
    · rw [hid]
      exact hl
    · rw [(ho id hid).1] at h'
      exact hs.listed id stream' h'
  · intro id stream' h' d
    by_cases hid : id = streamId
    · subst hid
      rw [(hse stream' h').1]
      exact hf d
    · rw [(ho id hid).1] at h'
      rw [(ho id hid).2]
      exact hs.flags id stream' h' d
  · intro id stream' h'
    by_cases hid : id = streamId
    · subst hid
      obtain ⟨rfl, hop⟩ := hse stream' h'
      exact hop
    · rw [(ho id hid).1] at h'
      exact hs.some_open id stream' h'
  · intro id hr h' d
    by_cases hid : id = streamId
    · subst hid
      rw [hst] at h'
      split at h'
      · rename_i ha
        exact (hf d).mp ((Stream.bothShut_iff _).mp ha d)
      · rw [lookup_insert] at h'
        cases h'
    · rw [(ho id hid).1] at h'
      rw [(ho id hid).2]
      exact hs.both_shut id hr h' d

end

/-! ## Runs -/

def Fresh (x : Builders) (c : Codec × List Nat) (event : Event) : Prop :=
  ∀ streamId, requestedBy x event = some streamId → streamId ∉ c.2

instance (x : Builders) : DecidableRel (Fresh x) := fun c event =>
  match h : requestedBy x event with
  | none => .isTrue fun _ h' => by rw [h] at h'; cases h'
  | some streamId => decidable_of_iff (streamId ∉ c.2)
      ⟨fun hno id h' => by rw [h] at h'; cases h'; exact hno, fun hall => hall streamId h⟩

/-- **The promise**: a direction is shut down at most once, and a stream is in the table unless
both were. -/
def TableExact : Codec × List Nat → Prop
  | (.listening s, requested) => s.shutdowns.Nodup ∧
    ∀ streamId ∈ requested, streamId ∈ s.streams ↔ ¬ BothShut s streamId
  | (.ended _, _) => True

lemma TableInv.exact (hs : TableInv s requested) : TableExact (.listening s, requested) := by
  refine ⟨hs.once, fun streamId hr => ?_⟩
  constructor
  · intro hm hb
    obtain ⟨stream, hst⟩ := Table.exists_lookup hm
    exact hs.some_open streamId stream hst fun d =>
      (hs.flags streamId stream hst d).mpr (hb d)
  · intro ho
    by_contra hm
    exact ho (hs.both_shut streamId hr (lookup_eq_none.mpr hm))

def CodecInv : Codec × List Nat → Prop
  | (.listening s, requested) => TableInv s requested
  | (.ended _, _) => True

/-- **One step.** -/
lemma tableInv_step (hc : CodecInv c)
    (hfr : Fresh x c event) (h : observed (step x) (noteRequest x) c event = some c') :
    CodecInv c' := by
  obtain ⟨codec', hs, rfl⟩ := observed_eq_some h
  obtain ⟨codec, requested⟩ := c
  cases codec with
  | ended => cases hs
  | listening =>
    cases codec' with
    | ended => trivial
    | listening s' =>
      change TableInv s' ((requestedBy x event).toList ++ requested)
      cases change_onEvent hs with
      | request hr =>
        rw [hr]
        exact tableInv_onRequest hc (hfr _ hr)
      | shutdown hn _ hst =>
        rw [hn]
        exact tableInv_of_eq (tableInv_shutDown hc hst _) rfl rfl
      | frame hn _ hf =>
        rw [hn]
        exact tableInv_of_eq hc hf.streams hf.shutdowns

/-- **The table of streams**, in every run with fresh ids. -/
theorem table_exact (x : Builders) (events : List Event)
    (hfresh : EveryStep (observed (step x) (noteRequest x)) (Fresh x) (.listening init,
      []) events) :
    EveryState (observed (step x) (noteRequest x)) TableExact (.listening init, []) events := by
  refine everyState_of_everyStep ?_ ?_ (show CodecInv (.listening init,
    []) from tableInv_init) hfresh
  · intro c event c' hc hok hs
    exact tableInv_step hc hok hs
  · rintro ⟨codec, requested⟩ hc
    cases codec with
    | listening => exact TableInv.exact hc
    | ended => trivial

/-- Three messages come for the first stream when it has been removed. -/
def lateMessages : List Event :=
  [opened 0, opened 4, .poll (.finished 0) (fun _ => none) false, .respondedEof 1, .drop 0, .drop 1,
    .message, .message, .message]

theorem lateMessages_exact :
    (run (observed (step plain) (noteRequest plain)) (.listening init, []) lateMessages).isSome =
      true ∧
      EveryState (observed (step plain) (noteRequest plain)) TableExact (.listening init, [])
        lateMessages :=
  ⟨by decide, table_exact plain lateMessages (by decide)⟩

end TrustTunnel.Http3Codec
