import TrustTunnel.Http1Session

/-!
# What a session delivers

A future of `listen` that is never dropped. Chunks, the sink's end and the closed queue are served
in any order; no shutdown may begin while the sink is in use.
-/

namespace TrustTunnel.Http1Codec

open Io Lib List
open Lib.Http1 (utf8)

namespace Session

/-! ## The promises -/

/-- The bytes after the head are returned in order; only a queued chunk is left after the
client's end. -/
structure Uploaded (stream : Bytes) (s : Session) : Prop where
  order : s.head ++ s.delivered <+: stream
  complete : s.ended = true → s.source ≠ .dropped → s.head ++ s.delivered ++ s.queued = stream
  drained : s.ended = true → s.shutDown = true → s.queued = []

/-- The chunks are written in order, those before the sink's end before the shutdown. -/
structure Downloaded (s : Session) : Prop where
  order : s.written <+: s.accepted
  complete : s.shutDown = true → ∀ chunks, s.promised = some chunks → chunks <+: s.written

/-- The sink may write, and has not called `eof`. -/
def InUse (s : Session) : Prop := s.sink = .live ∧ s.promised = none

instance (s : Session) : Decidable s.InUse := inferInstanceAs (Decidable (_ ∧ _))

/-- It is not dropped; with the sink in use the client does not close and nothing goes to a
dropped source. -/
def Attended (s : Session) (e : Event) : Prop :=
  e ≠ .drop ∧ ¬ (e = .read 0 ∧ s.InUse) ∧ ¬ (e = .sent ∧ s.source = .dropped ∧ s.InUse)

instance : DecidableRel Attended := fun _ _ => inferInstanceAs (Decidable (_ ∧ _ ∧ _))

/-- `listen` has returned, or shuts down. -/
def Over (s : Session) : Prop :=
  (∃ stage, s.point = .finishing stage) ∨ ∃ result, s.point = .returned result

section

variable {P : Httparse} {U : UriCrate} {stream : Bytes} {s s' : Session} {e : Event}

/-! ## Uploads -/

/-- Nothing is left to read if the client has closed, or queued when the transport is. -/
structure Ends (s : Session) : Prop where
  ended : s.ended = true → s.Over ∧ s.state.buffer = [] ∧ s.upcoming = []
  drained : s.point = .finishing .closing ∨ s.shutDown = true →
    s.upload = none ∨ s.source = .dropped
  shut : s.shutDown = true → ∃ result, s.point = .returned result

lemma ends_start (stream : Bytes) : Ends (start stream) where
  ended h := by cases h
  drained h := by simp [start] at h
  shut h := by cases h

lemma Ends.running (hs : Ends s) (ho : ¬ s.Over) : s.ended = false ∧ s.shutDown = false := by
  refine ⟨?_, ?_⟩
  · by_contra he
    exact ho (hs.ended (Bool.not_eq_false _ ▸ he)).1
  · by_contra hsh
    exact ho (.inr (hs.shut (Bool.not_eq_false _ ▸ hsh)))

lemma ends_running (h : s.ended = false ∧ s.shutDown = false)
    (hp : s.point ≠ .finishing .closing) : Ends s where
  ended he := by simp [h.1] at he
  drained hc := by simp [h.2, hp] at hc
  shut hs := by simp [h.2] at hs

lemma ends_gracefulShutdown (ho : s.shutDown = false)
    (he : s.ended → s.state.buffer = [] ∧ s.upcoming = []) : Ends s.gracefulShutdown where
  ended h := ⟨.inl ⟨_, rfl⟩, he h⟩
  drained h := by
    have ho' : s.gracefulShutdown.shutDown = false := ho
    rcases h with h | h
    · simp only [gracefulShutdown] at h
      cases hq : s.download with
      | none | some => simp [hq] at h
    · simp [ho'] at h
  shut h := by
    have ho' : s.gracefulShutdown.shutDown = false := ho
    simp [ho'] at h

lemma not_over_selecting (h : s.point = .selecting held) : ¬ s.Over := by
  simp [Over, h]

lemma onRequestHeadersChunk_open (bytes : Bytes) :
    ((s.onRequestHeadersChunk P U bytes).ended = s.ended ∧
      (s.onRequestHeadersChunk P U bytes).shutDown = s.shutDown) ∧
    (s.onRequestHeadersChunk P U bytes).point ≠ .finishing .closing := by
  unfold onRequestHeadersChunk
  split
  · exact ⟨⟨rfl, rfl⟩, by simp⟩
  · exact ⟨⟨rfl, rfl⟩, by simp⟩
  · split
    · exact ⟨⟨rfl, rfl⟩, by simp⟩
    · exact ⟨⟨rfl, rfl⟩, by simp⟩

/-- **One step** keeps the order of the end. -/
lemma ends_next (hs : Ends s) (hk : e ≠ .drop) (h : Next P U s e s') : Ends s' := by
  cases h with
  | call hp | refused bytes hp | sent bytes hp =>
    exact ends_running (hs.running (by simp [Over, hp])) (by simp)
  | pollHead buffer hp | pollBody hp | ready buffer hp | receiveNone held hp =>
    exact ends_running (hs.running (not_over_selecting hp)) (by simp)
  | headEnd held buffer hp hst hu | bodyEnd held buffer hp hst hem hro hu =>
    exact ends_gracefulShutdown (hs.running (not_over_selecting hp)).2 fun _ => ⟨rfl, hu⟩
  | head held buffer n hp =>
    obtain ⟨⟨he, hsh⟩, hc⟩ := onRequestHeadersChunk_open (P := P) (U := U)
      (s := { s with upcoming := s.upcoming.drop n }) (held.getD buffer ++ s.upcoming.take n)
    have ho := hs.running (not_over_selecting hp)
    exact ends_running ⟨he.trans ho.1, hsh.trans ho.2⟩ hc
  | body held buffer n hp | receive held chunk hp =>
    exact ends_running (hs.running (not_over_selecting hp)) (by simp)
  | receiveEof held hp | notified held hp =>
    have ho := hs.running (not_over_selecting hp)
    exact ends_gracefulShutdown ho.2 fun h => by simp [ho.1] at h
  | wrote rest n hp | responded rest n hp =>
    refine ends_running (hs.running (by simp [Over, hp])) ?_
    by_cases hd : rest.drop n = []
    · simp [hd]
    · simp [hd]
  | wroteLast rest n hp =>
    refine ⟨fun h => ⟨.inl ⟨_, rfl⟩, (hs.ended h).2⟩, fun h => ?_, fun h => ?_⟩
    · rcases h with h | h
      · by_cases hd : rest.drop n = []
        · simp [hd] at h
        · simp [hd] at h
      · exact hs.drained (.inr h)
    · obtain ⟨result, hr⟩ := hs.shut h
      simp [hp] at hr
  | flushed hp =>
    refine ⟨fun h => ⟨.inl ⟨_, rfl⟩, (hs.ended h).2⟩, fun h => ?_, fun h => ?_⟩
    · exact hs.drained (.inr (by simpa using h))
    · obtain ⟨result, hr⟩ := hs.shut h
      simp [hp] at hr
  | reserved hp hro =>
    refine ⟨fun h => ⟨.inl ⟨_, rfl⟩, (hs.ended h).2⟩, fun _ => hro, fun h => ?_⟩
    obtain ⟨result, hr⟩ := hs.shut h
    simp [hp] at hr
  | closed hp =>
    exact ⟨fun h => ⟨.inr ⟨_, rfl⟩, (hs.ended h).2⟩, fun _ => hs.drained (.inl hp),
      fun _ => ⟨_, rfl⟩⟩
  | drop => exact absurd rfl hk
  | finish result hp ho => exact ends_gracefulShutdown ho fun h => (hs.ended h).2
  | write | eof | dropSink => exact ⟨hs.ended, hs.drained, hs.shut⟩
  | full => exact hs
  | take | dropSource => exact ⟨hs.ended, fun _ => .inl rfl, hs.shut⟩

lemma transit_over (ho : s.Over) : s.transit = [] := by
  rcases ho with ⟨stage, hp⟩ | ⟨result, hp⟩
  · simp [transit, hp]
  · simp [transit, hp]

lemma uploaded_of_inv (hs : Inv stream s) (he : Ends s) : Uploaded stream s where
  order := by
    have ha := hs.upload_eq
    simp only [append_assoc] at ha
    rw [← append_assoc] at ha
    exact ⟨_, ha⟩
  complete hen hsr := by
    obtain ⟨ho, hb, hu⟩ := he.ended hen
    have ha := hs.upload_eq
    rw [transit_over ho, hb, hu, hs.live hsr] at ha
    simpa using ha
  drained _ hsh := by
    have hupload : s.upload = none := (he.drained (.inr hsh)).elim id hs.dropped
    simp [queued, hupload]

/-! ## Downloads -/

def Promises (s : Session) : Prop :=
  (∀ chunks, s.promised = some chunks → chunks <+: s.accepted) ∧
    (s.eofNotified = true → s.promised ≠ none)

/-- A shutdown begins when the sink is done, with the promised chunks written or held. -/
structure Kept (s : Session) : Prop where
  promises : s.Promises
  settled : s.Over → ¬ s.InUse
  begun : (∃ stage, s.point = .finishing stage) ∨ s.shutDown = true →
    ∀ chunks, s.promised = some chunks → chunks <+: s.written ++ s.inflight
  responding : ∀ rest, s.point = .responding rest → ∃ buffer, s.state = .waitingRequest buffer

lemma kept_start (stream : Bytes) : Kept (start stream) where
  promises := ⟨(fun _ h => by cases h), (fun h => by cases h)⟩
  settled h := by simp [Over, start] at h
  begun h := by simp [start] at h
  responding _ h := by cases h

lemma kept_gracefulShutdown (hp : s.Promises) (hu : ¬ s.InUse)
    (hd : s.written ++ s.waiting = s.accepted) : Kept s.gracefulShutdown where
  promises := hp
  settled _ := hu
  begun _ chunks hc := by
    rw [inflight_gracefulShutdown]
    have ha : s.gracefulShutdown.written ++ s.waiting = s.accepted := hd
    rw [ha]
    exact hp.1 chunks hc
  responding _ h := by cases h

lemma kept_open (hp : s.Promises) (hop : s.shutDown = false)
    (hpo : ∀ stage, s.point ≠ .finishing stage)
    (hre : ∀ result, s.point = .returned result → ¬ s.InUse)
    (hr : ∀ rest, s.point = .responding rest → ∃ buffer, s.state = .waitingRequest buffer) :
    Kept s where
  promises := hp
  settled ho := by
    rcases ho with ⟨stage, h⟩ | ⟨result, h⟩
    · exact absurd h (hpo stage)
    · exact hre result h
  begun h := by simp [hop, hpo] at h
  responding := hr

lemma Inv.not_inUse (hs : Inv stream s) (h : s.state = .waitingRequest buffer) : ¬ s.InUse := by
  intro hu
  have ha := (hs.early buffer h).1.2
  rw [hu.1] at ha
  cases ha

lemma kept_onRequestHeadersChunk (hp : s.Promises) (ho : s.shutDown = false)
    (hu : ¬ s.InUse) (bytes : Bytes) : Kept (s.onRequestHeadersChunk P U bytes) := by
  unfold onRequestHeadersChunk
  split
  · exact kept_open hp ho (by simp) (fun _ _ => hu) (by simp)
  · exact kept_open hp ho (by simp) (by simp) (by simp)
  · split
    · exact kept_open hp ho (by simp) (by simp) (fun _ _ => ⟨[], rfl⟩)
    · exact kept_open hp ho (by simp) (by simp) (by simp)

/-- **One step** of an attended session keeps the promises. -/
lemma kept_next (hs : Inv stream s) (he : Ends s) (hk : Kept s) (ha : Attended s e)
    (h : Next P U s e s') : Kept s' := by
  obtain ⟨hdr, hre, hse⟩ := ha
  have hp := hk.promises
  have hdo := hs.download_eq
  cases h with
  | call hpo | sent bytes hpo =>
    have hop := he.running (by simp [Over, hpo])
    exact kept_open hp hop.2 (by simp) (by simp) (by simp)
  | pollHead buffer hpo | pollBody hpo | ready buffer hpo =>
    have hop := he.running (not_over_selecting hpo)
    exact kept_open hp hop.2 (by simp) (by simp) (by simp)
  | headEnd held buffer hpo hst =>
    refine kept_gracefulShutdown hp (hs.not_inUse hst) ?_
    simpa [inflight, waiting, hpo] using hdo
  | head held buffer n hpo hst =>
    have hop := he.running (not_over_selecting hpo)
    exact kept_onRequestHeadersChunk (s := { s with upcoming := s.upcoming.drop n }) hp hop.2
      (hs.not_inUse hst) _
  | bodyEnd held buffer hpo =>
    refine kept_gracefulShutdown hp (fun hu => hre ⟨rfl, hu⟩) ?_
    simpa [inflight, waiting, hpo] using hdo
  | body held buffer n hpo | receive held chunk hpo =>
    have hop := he.running (not_over_selecting hpo)
    exact kept_open hp hop.2 (by simp) (by simp) (by simp)
  | receiveEof held hpo hdow hsi heo | notified held hpo heo =>
    refine kept_gracefulShutdown ⟨hp.1, (fun h => by cases h)⟩ (fun hu => ?_) ?_
    · exact hp.2 heo hu.2
    · simpa [inflight, waiting, hpo] using hdo
  | receiveNone held hpo hdow hsi =>
    have hop := he.running (not_over_selecting hpo)
    refine kept_open hp hop.2 (by simp) (fun _ _ hu => ?_) (by simp)
    have hl := hu.1
    simp [hsi] at hl
  | refused bytes hpo hsr =>
    have hop := he.running (by simp [Over, hpo])
    exact kept_open hp hop.2 (by simp) (fun _ _ hu => hse ⟨rfl, hsr, hu⟩) (by simp)
  | wrote rest n hpo =>
    have hop := he.running (by simp [Over, hpo])
    by_cases hd : rest.drop n = []
    · rw [if_pos hd]
      exact kept_open hp hop.2 (by simp) (by simp) (by simp)
    · rw [if_neg hd]
      exact kept_open hp hop.2 (by simp) (by simp) (by simp)
  | wroteLast rest n hpo =>
    have hb := hk.begun (.inl ⟨_, hpo⟩)
    have hh : s.inflight = rest.take n ++ rest.drop n := by simp [inflight, hpo]
    refine ⟨hp, fun _ => hk.settled (.inl ⟨_, hpo⟩), fun _ chunks hc => ?_, by simp⟩
    have hf := hb chunks hc
    rw [hh, ← append_assoc] at hf
    by_cases hd : rest.drop n = []
    · rw [hd] at hf
      simpa [inflight, hd] using hf
    · simpa [inflight, hd] using hf
  | responded rest n hpo =>
    obtain ⟨buffer, hst⟩ := hk.responding rest hpo
    have hop := he.running (by simp [Over, hpo])
    have hu := hs.not_inUse hst
    by_cases hd : rest.drop n = []
    · rw [if_pos hd]
      exact kept_open hp hop.2 (by simp) (fun _ _ => hu) (by simp)
    · rw [if_neg hd]
      exact kept_open hp hop.2 (by simp) (by simp) (fun _ _ => ⟨buffer, hst⟩)
  | flushed hpo | reserved hpo | closed hpo =>
    have hb := hk.begun (.inl ⟨_, hpo⟩)
    refine ⟨hp, fun _ => hk.settled (.inl ⟨_, hpo⟩), fun _ chunks hc => ?_, by simp⟩
    simpa [inflight, hpo] using hb chunks hc
  | drop => exact absurd rfl hdr
  | finish result hpo =>
    refine kept_gracefulShutdown hp (hk.settled (.inr ⟨_, hpo⟩)) ?_
    simpa [inflight, hpo] using hdo
  | write =>
    refine ⟨⟨fun chunks hc => ?_, hp.2⟩, hk.settled, hk.begun, hk.responding⟩
    exact (hp.1 chunks hc).trans (prefix_append _ _)
  | full => exact hk
  | eof hsi =>
    cases hpr : s.promised with
    | none =>
      -- the sink is in use, so no shutdown has begun
      have ho : ¬ s.Over := fun ho => hk.settled ho ⟨hsi, hpr⟩
      refine kept_open ⟨fun chunks hc => ?_, fun _ => by simp⟩ (he.running ho).2
        (fun stage h => ho (.inl ⟨stage, h⟩)) (fun result h => absurd (.inr ⟨result, h⟩) ho)
        hk.responding
      cases hc
      exact prefix_rfl
    | some earlier =>
      refine ⟨⟨fun chunks hc => ?_, fun _ => by simp⟩, fun _ hu => ?_,
        fun h chunks hc => ?_, hk.responding⟩
      · cases hc
        exact hp.1 earlier hpr
      · cases hu.2
      · cases hc
        exact hk.begun h earlier hpr
  | dropSink =>
    refine ⟨hp, fun _ hu => ?_, hk.begun, hk.responding⟩
    cases hu.1
  | take | dropSource => exact ⟨hp, hk.settled, hk.begun, hk.responding⟩

lemma downloaded_of_kept (hs : Inv stream s) (he : Ends s) (hk : Kept s) : Downloaded s where
  order := by
    have ha := hs.download_eq
    rw [append_assoc] at ha
    exact ⟨_, ha⟩
  complete hsh chunks hc := by
    obtain ⟨result, hp⟩ := he.shut hsh
    simpa [inflight, hp] using hk.begun (.inr hsh) chunks hc

/-! ## Runs -/

lemma spares_of_ne (h : e ≠ .drop) : Spares s e := fun hd => absurd hd h

/-- **Delivery**, of a future that is never dropped: both directions in order, and complete if
the client neither ends nor writes to a dropped source while the sink is in use. -/
theorem delivery (P : Httparse) (U : UriCrate) (stream : Bytes) (events : List Event) :
    (EveryStep (step P U) (fun _ e => e ≠ .drop) (start stream) events →
      EveryState (step P U) (Uploaded stream) (start stream) events) ∧
    (EveryStep (step P U) Attended (start stream) events →
      EveryState (step P U) Downloaded (start stream) events) := by
  refine ⟨fun h => ?_, fun h => ?_⟩
  · refine everyState_of_everyStep ?_
      (fun s (hs : Inv stream s ∧ Ends s) => uploaded_of_inv hs.1 hs.2)
      ⟨inv_start stream, ends_start stream⟩ h
    intro s e s' hs hd hst
    have hn := next_of_step hst
    exact ⟨inv_next hs.1 (spares_of_ne hd) hn, ends_next hs.2 hd hn⟩
  · refine everyState_of_everyStep ?_
      (fun s (hs : (Inv stream s ∧ Ends s) ∧ Kept s) => downloaded_of_kept hs.1.1 hs.1.2 hs.2)
      ⟨⟨inv_start stream, ends_start stream⟩, kept_start stream⟩ h
    intro s e s' hs ha hst
    have hn := next_of_step hst
    exact ⟨⟨inv_next hs.1.1 (spares_of_ne ha.1) hn, ends_next hs.1.2 ha.1 hn⟩,
      kept_next hs.1.1 hs.1.2 hs.2 ha hn⟩

end

/-- The second chunk is queued when the client's end is read. -/
def exchange : List Event :=
  [.call, .read 37, .call, .write (utf8 "a"), .read 2, .sent, .take, .receive, .wrote 1,
    .write (utf8 "b"), .eof, .read 0, .wrote 1, .flushed, .reserved, .closed]

theorem exchange_delivery :
    (run (step requestScanner exampleUris) (start (bareHead ++ utf8 "xy")) exchange).map
        (fun s => (s.delivered, s.written, s.ended, s.shutDown)) =
      some (utf8 "xy", utf8 "ab", true, true) ∧
    EveryState (step requestScanner exampleUris) (Uploaded (bareHead ++ utf8 "xy"))
      (start (bareHead ++ utf8 "xy")) exchange ∧
    EveryState (step requestScanner exampleUris) Downloaded
      (start (bareHead ++ utf8 "xy")) exchange := by
  refine ⟨by decide +kernel, ?_, ?_⟩
  · exact (delivery requestScanner exampleUris (bareHead ++ utf8 "xy") exchange).1
      (by decide +kernel)
  · exact (delivery requestScanner exampleUris (bareHead ++ utf8 "xy") exchange).2
      (by decide +kernel)

/-- With the source dropped a byte comes; a chunk that is still accepted is not written. -/
theorem chunk_after_byte_lost :
    ∃ s, run (step requestScanner exampleUris) (start (bareHead ++ utf8 "x"))
        [.call, .read 37, .dropSource, .call, .write (utf8 "a"), .read 1, .sent, .finish, .wrote 1,
          .write (utf8 "b"), .eof, .flushed, .reserved, .closed] = some s ∧
      (s.promised = some (utf8 "ab") ∧ s.written = utf8 "a" ∧ s.shutDown = true) ∧
      ¬ Downloaded s := by
  have hr : (run (step requestScanner exampleUris) (start (bareHead ++ utf8 "x"))
      [.call, .read 37, .dropSource, .call, .write (utf8 "a"), .read 1, .sent, .finish, .wrote 1,
        .write (utf8 "b"), .eof, .flushed, .reserved, .closed]).map
        (fun s => (s.promised, s.written, s.shutDown)) =
      some (some (utf8 "ab"), utf8 "a", true) := by
    decide +kernel
  obtain ⟨s, hs, hf⟩ := Option.map_eq_some_iff.mp hr
  simp only [Prod.mk.injEq] at hf
  refine ⟨s, hs, hf, fun h => ?_⟩
  obtain ⟨hp, hw, hsh⟩ := hf
  have ha := h.complete hsh _ hp
  rw [hw] at ha
  revert ha
  decide +kernel

end Session

end TrustTunnel.Http1Codec
