import TrustTunnel.Io
import TrustTunnel.Lib.Runs

/-!
# The TCP pipe (`pipe.rs`)

`SimplexPipe::exchange` moves chunks to a sink that may take a part of one; it is suspended at
four places (`Point`), where it can time out or be dropped and started again by
`DuplexPipe::exchange`. The sink is a parameter, and `Sink` says that what `write` leaves unsent
is the end of what it was given.
-/

namespace TrustTunnel.Pipe

open Io Lib List Option

inductive Data where
  | chunk (bytes : Bytes)
  | eof
  deriving DecidableEq

/-- The calls of a transmitter; `α` is what the outside answers. -/
structure SinkCalls (σ α : Type) where
  write : σ → Bytes → α → σ × Except IoError Bytes
  eof : σ → α → σ × Except IoError Unit
  waitWritable : σ → α → σ × Except IoError Unit
  flush : σ → α → σ × Except IoError Unit

structure Sink (σ α : Type) extends SinkCalls σ α where
  unsent_suffix : ∀ s data a unsent, (write s data a).2 = .ok unsent → unsent <:+ data

/-- Where `exchange` is; `idle` before its first poll or after a drop. -/
inductive Point where
  | idle
  | flushing
  | reading
  | waitingWritable
  | flushingEof
  | timedOut
  | finished
  | failed (e : IoError)
  deriving DecidableEq

/-- The last five fields record the bytes read and accepted, the sums of `consume` and
`update_metrics`, and the state at each `eof`. -/
structure SimplexPipe (σ : Type) where
  sink : σ
  pendingChunk : Option Data
  lastActivity : Nat
  point : Point
  read : Bytes
  accepted : Bytes
  consumed : Nat
  metered : Nat
  eofs : List (Bytes × Bytes)

def SimplexPipe.new {σ : Type} (sink : σ) (now : Nat) : SimplexPipe σ :=
  { sink := sink, pendingChunk := none, lastActivity := now, point := .idle, read := [],
    accepted := [], consumed := 0, metered := 0, eofs := [] }

/-- `a` and `a'` are the sink's answers, `consume` is the source's. -/
inductive Event (α : Type) where
  | start
  | flushed (a : α)
  | readable (data : Except IoError Data) (a : α) (consume : Except IoError Unit)
  | writable (a a' : α) (consume : Except IoError Unit)
  | timeout
  | drop

section

variable {σ α : Type} (S : SinkCalls σ α)

namespace SimplexPipe

def iterate (p : SimplexPipe σ) (now : Nat) : SimplexPipe σ :=
  { p with lastActivity := now, point := .flushing }

def send (p : SimplexPipe σ) (now : Nat) (data : Data) (a : α) (consume : Except IoError Unit) :
    SimplexPipe σ :=
  match data with
  | .chunk bytes =>
    match S.write p.sink bytes a with
    | (sink, .error e) => { p with sink := sink, point := .failed e }
    | (sink, .ok unsentData) =>
      let sent := bytes.length - unsentData.length
      let p := { p with sink := sink, accepted := p.accepted ++ bytes.take sent,
                        metered := p.metered + sent }
      match consume with
      | .error e => { p with point := .failed e }
      | .ok _ =>
        iterate { p with
          consumed := p.consumed + sent,
          pendingChunk := if unsentData = [] then p.pendingChunk else some (.chunk unsentData) }
          now
  | .eof =>
    match S.eof p.sink a with
    | (sink, .error e) =>
      { p with sink := sink, eofs := p.eofs ++ [(p.read, p.accepted)], point := .failed e }
    | (sink, .ok _) =>
      { p with sink := sink, eofs := p.eofs ++ [(p.read, p.accepted)], point := .flushingEof }

/-- `source.read` returned. -/
def onRead (p : SimplexPipe σ) (now : Nat) (a : α) (consume : Except IoError Unit) :
    Except IoError Data → SimplexPipe σ
  | .error e => { p with point := .failed e }
  | .ok (.chunk bytes) => send S { p with read := p.read ++ bytes } now (.chunk bytes) a consume
  | .ok .eof => send S p now .eof a consume

/-- `sink.flush` returned. -/
def onFlushed (p : SimplexPipe σ) (a : α) : SimplexPipe σ :=
  match S.flush p.sink a with
  | (sink, .error e) => { p with sink := sink, point := .failed e }
  | (sink, .ok _) =>
    { p with sink := sink,
             point := if p.pendingChunk.isNone then .reading else .waitingWritable }

/-- `sink.wait_writable` returned. -/
def onWritable (p : SimplexPipe σ) (now : Nat) (a a' : α) (consume : Except IoError Unit) :
    SimplexPipe σ :=
  match S.waitWritable p.sink a with
  | (sink, .error e) => { p with sink := sink, point := .failed e }
  | (sink, .ok _) =>
    match p.pendingChunk with
    | none =>
      { p with sink := sink, point := .failed (.other "Pending chunk is unexpectedly absent") }
    | some pending => send S { p with sink := sink, pendingChunk := none } now pending a' consume

/-- The last `flush` returned. -/
def onEofFlushed (p : SimplexPipe σ) (a : α) : SimplexPipe σ :=
  match S.flush p.sink a with
  | (sink, .error e) => { p with sink := sink, point := .failed e }
  | (sink, .ok _) => { p with sink := sink, point := .finished }

/-- One event at time `now`; `none` when it is not waited for. -/
def step (timeout now : Nat) (p : SimplexPipe σ) : Event α → Option (SimplexPipe σ)
  | .start =>
    match p.point with
    | .idle | .timedOut | .finished => some (iterate p now)
    | _ => none
  | .flushed a =>
    match p.point with
    | .flushing => some (onFlushed S p a)
    | .flushingEof => some (onEofFlushed S p a)
    | _ => none
  | .readable data a consume =>
    if p.point = .reading then some (onRead S p now a consume data) else none
  | .writable a a' consume =>
    if p.point = .waitingWritable then some (onWritable S p now a a' consume) else none
  | .timeout =>
    match p.point with
    | .flushing | .reading | .waitingWritable =>
      if p.lastActivity + timeout ≤ now then some { p with point := .timedOut } else none
    | _ => none
  | .drop =>
    match p.point with
    | .flushing | .reading | .waitingWritable | .flushingEof => some { p with point := .idle }
    | _ => none

inductive Next (timeout now : Nat) (p : SimplexPipe σ) : Event α → SimplexPipe σ → Prop
  | start (h : p.point = .idle ∨ p.point = .timedOut ∨ p.point = .finished) :
      Next timeout now p .start (iterate p now)
  | flushed (a : α) (h : p.point = .flushing) : Next timeout now p (.flushed a) (onFlushed S p a)
  | eofFlushed (a : α) (h : p.point = .flushingEof) :
      Next timeout now p (.flushed a) (onEofFlushed S p a)
  | readable (data : Except IoError Data) (a : α) (consume : Except IoError Unit)
      (h : p.point = .reading) :
      Next timeout now p (.readable data a consume) (onRead S p now a consume data)
  | writable (a a' : α) (consume : Except IoError Unit) (h : p.point = .waitingWritable) :
      Next timeout now p (.writable a a' consume) (onWritable S p now a a' consume)
  | timeout (h : ∀ e, p.point ≠ .failed e) (hexpired : p.lastActivity + timeout ≤ now) :
      Next timeout now p .timeout { p with point := .timedOut }
  | drop (h : ∀ e, p.point ≠ .failed e) : Next timeout now p .drop { p with point := .idle }

variable {S} in
lemma next_of_step (h : step S timeout now p ev = some p') : Next S timeout now p ev p' := by
  cases ev with
  | start =>
    cases hp : p.point <;> simp only [step, hp, reduceCtorEq, some.injEq] at h
    all_goals
      subst h
      exact .start (by simp [hp])
  | flushed a =>
    cases hp : p.point <;> simp only [step, hp, reduceCtorEq, some.injEq] at h
    · subst h
      exact .flushed a hp
    · subst h
      exact .eofFlushed a hp
  | readable data a consume =>
    simp only [step] at h
    split at h <;> cases h
    exact .readable data a consume ‹_›
  | writable a a' consume =>
    simp only [step] at h
    split at h <;> cases h
    exact .writable a a' consume ‹_›
  | timeout =>
    cases hp : p.point <;> simp only [step, hp, reduceCtorEq] at h
    all_goals
      split at h <;> cases h
      exact .timeout (by simp [hp]) ‹_›
  | drop =>
    cases hp : p.point <;> simp only [step, hp, reduceCtorEq, some.injEq] at h
    all_goals
      subst h
      exact .drop (by simp [hp])

def timedStep (timeout : Nat) (p : SimplexPipe σ) (ev : Nat × Event α) :
    Option (SimplexPipe σ) :=
  step S timeout ev.1 p ev.2

end SimplexPipe

end

/-! ## Conservation -/

section

variable {σ α : Type} {S : Sink σ α}

namespace SimplexPipe

section

variable {p : SimplexPipe σ} {now timeout : Nat}

/-- The bytes `pending_chunk` holds. -/
def pendingBytes : Option Data → Bytes
  | some (.chunk bytes) => bytes
  | _ => []

/-- Bytes read are accepted or pending, in order, and those accepted are consumed and counted. -/
structure Conserved (p : SimplexPipe σ) : Prop where
  bytes : p.accepted ++ pendingBytes p.pendingChunk = p.read
  consumed : p.consumed = p.accepted.length
  metered : p.metered = p.accepted.length

/-- An error ends the bookkeeping, but makes no earlier `eof` wrong. -/
structure Sound (p : SimplexPipe σ) : Prop where
  conserved : (∀ e, p.point ≠ .failed e) → Conserved p
  eofs : ∀ x ∈ p.eofs, x.1 = x.2
  reading : p.point = .reading → p.pendingChunk = none

lemma sound_failed (he : ∀ x ∈ p.eofs, x.1 = x.2) (e : IoError) :
    Sound { p with point := .failed e } :=
  ⟨fun h => absurd rfl (h e), he, fun h => nomatch h⟩

lemma send_chunk_sound (hp : p.pendingChunk = none) (hb : p.accepted ++ bytes = p.read)
    (hc : p.consumed = p.accepted.length) (hm : p.metered = p.accepted.length)
    (he : ∀ x ∈ p.eofs, x.1 = x.2) : Sound (send S.toSinkCalls p now (.chunk bytes) a consume) := by
  simp only [send]
  split
  · exact ⟨fun h => absurd rfl (h _), he, fun h => nomatch h⟩
  · rename_i unsent hw
    obtain ⟨sent, rfl⟩ := S.unsent_suffix p.sink bytes a unsent (by rw [hw])
    have hl : (sent ++ unsent).length - unsent.length = sent.length := by
      rw [length_append]
      omega
    rw [hl, take_left]
    cases consume with
    | error => exact ⟨fun h => absurd rfl (h _), he, fun h => nomatch h⟩
    | ok =>
      refine ⟨fun _ => ⟨?_, ?_, ?_⟩, he, fun h => nomatch h⟩
      · rw [← hb]
        by_cases hu : unsent = [] <;> simp [iterate, hu, hp, pendingBytes]
      · simp [iterate, hc]
      · simp [iterate, hm]

lemma send_eof_sound (now : Nat) (a : α) (consume : Except IoError Unit)
    (hc : Conserved p) (hp : pendingBytes p.pendingChunk = [])
    (he : ∀ x ∈ p.eofs, x.1 = x.2) : Sound (send S.toSinkCalls p now .eof a consume) := by
  have ha : p.accepted = p.read := by
    have h := hc.bytes
    rwa [hp, append_nil] at h
  have he' : ∀ x ∈ p.eofs ++ [(p.read, p.accepted)], x.1 = x.2 := by
    intro x hx
    rcases mem_append.mp hx with hx | hx
    · exact he x hx
    · rw [mem_singleton.mp hx, ha]
  simp only [send]
  split
  · exact ⟨fun h => absurd rfl (h _), he', fun h => nomatch h⟩
  · exact ⟨fun _ => ⟨hc.bytes, hc.consumed, hc.metered⟩, he', fun h => nomatch h⟩

lemma onRead_sound (h : Sound p) (hpo : p.point = .reading) (now : Nat) (a : α)
    (consume : Except IoError Unit) (data : Except IoError Data) :
    Sound (onRead S.toSinkCalls p now a consume data) := by
  have hp := h.reading hpo
  have hc := h.conserved (by simp [hpo])
  match data with
  | .error e => exact sound_failed h.eofs e
  | .ok (.chunk bytes) =>
    refine send_chunk_sound hp ?_ hc.consumed hc.metered h.eofs
    have hb := hc.bytes
    rw [hp] at hb
    have ha : p.accepted = p.read := by
      simpa [pendingBytes] using hb
    simp [ha]
  | .ok .eof =>
    exact send_eof_sound now a consume hc (by simp [hp, pendingBytes]) h.eofs

lemma onFlushed_sound (h : Sound p) (hp : p.point = .flushing) (a : α) :
    Sound (onFlushed S.toSinkCalls p a) := by
  have hc := h.conserved (by simp [hp])
  unfold onFlushed
  split
  · exact ⟨fun h => absurd rfl (h _), h.eofs, fun h => nomatch h⟩
  · refine ⟨fun _ => ⟨hc.bytes, hc.consumed, hc.metered⟩, h.eofs, fun hr => ?_⟩
    by_cases hn : p.pendingChunk = none
    · exact hn
    · simp [isNone_iff_eq_none, hn] at hr

lemma onWritable_sound (h : Sound p) (hpo : p.point = .waitingWritable) (now : Nat) (a a' : α)
    (consume : Except IoError Unit) : Sound (onWritable S.toSinkCalls p now a a' consume) := by
  have hc := h.conserved (by simp [hpo])
  unfold onWritable
  split
  · exact ⟨fun h => absurd rfl (h _), h.eofs, fun h => nomatch h⟩
  · split
    · exact ⟨fun h => absurd rfl (h _), h.eofs, fun h => nomatch h⟩
    · rename_i pending hp
      have hb := hc.bytes
      rw [hp] at hb
      cases pending with
      | chunk =>
        exact send_chunk_sound rfl hb hc.consumed hc.metered h.eofs
      | eof =>
        exact send_eof_sound now a' consume ⟨hb, hc.consumed, hc.metered⟩ rfl h.eofs

lemma onEofFlushed_sound (h : Sound p) (hp : p.point = .flushingEof) (a : α) :
    Sound (onEofFlushed S.toSinkCalls p a) := by
  have hc := h.conserved (by simp [hp])
  unfold onEofFlushed
  split
  · exact ⟨fun h => absurd rfl (h _), h.eofs, fun h => nomatch h⟩
  · exact ⟨fun _ => ⟨hc.bytes, hc.consumed, hc.metered⟩, h.eofs, fun h => nomatch h⟩

lemma Sound.at_point (h : Sound p) (hp : ∀ e, p.point ≠ .failed e)
    (hq : q ≠ .reading) (now : Nat) : Sound { p with lastActivity := now, point := q } := by
  have hc := h.conserved hp
  exact ⟨fun _ => ⟨hc.bytes, hc.consumed, hc.metered⟩, h.eofs, fun hr => absurd hr hq⟩

lemma sound_step (h : Sound p)
    (hs : step S.toSinkCalls timeout now p ev = some p') : Sound p' := by
  cases next_of_step hs with
  | start hp => exact h.at_point (by rcases hp with h | h | h <;> simp [h]) (by simp) now
  | flushed a hp => exact onFlushed_sound h hp a
  | eofFlushed a hp => exact onEofFlushed_sound h hp a
  | readable data a consume hp => exact onRead_sound h hp now a consume data
  | writable a a' consume hp => exact onWritable_sound h hp now a a' consume
  | timeout hp | drop hp => exact h.at_point hp (by simp) p.lastActivity

lemma sound_new (sink : σ) (now : Nat) : Sound (new sink now) :=
  ⟨fun _ => ⟨rfl, rfl, rfl⟩, by simp [new], fun h => nomatch h⟩

lemma sound_of_reachable {sink : σ}
    (h : Reachable (timedStep S.toSinkCalls timeout) (new sink now) p) : Sound p :=
  reachable_invariant (sound_new sink now) (fun _ _ _ hs hst => sound_step hs hst) h

/-- **Conservation**: what was accepted and what is pending is what was read, in every run
without a failed call, and `eof` comes last. -/
theorem conserved_of_reachable (S : Sink σ α) (timeout now : Nat) (sink : σ)
    (p : SimplexPipe σ) (h : Reachable (timedStep S.toSinkCalls timeout) (new sink now) p) :
    ((∀ e, p.point ≠ .failed e) → p.accepted ++ pendingBytes p.pendingChunk = p.read ∧
        p.consumed = p.accepted.length ∧ p.metered = p.accepted.length) ∧
      ∀ x ∈ p.eofs, x.1 = x.2 := by
  have hs := sound_of_reachable h
  refine ⟨fun hp => ?_, hs.eofs⟩
  obtain ⟨hb, hc, hm⟩ := hs.conserved hp
  exact ⟨hb, hc, hm⟩

end

end SimplexPipe

def boundedSink : Sink Unit Nat where
  write _ data n := ((), .ok (data.drop n))
  eof _ _ := ((), .ok ())
  waitWritable _ _ := ((), .ok ())
  flush _ _ := ((), .ok ())
  unsent_suffix _ data n unsent h := by
    cases h
    exact drop_suffix n data

/-- Accepted in two parts, with the future dropped in between. -/
def droppedOnce : List (Nat × Event Nat) :=
  [(0, .start), (0, .flushed 0), (1, .readable (.ok (.chunk [1, 2, 3])) 1 (.ok ())), (1, .drop),
    (2, .start), (2, .flushed 0), (3, .writable 0 2 (.ok ())), (3, .flushed 0),
    (4, .readable (.ok .eof) 0 (.ok ()))]

theorem droppedOnce_conserved :
    ∃ p, run (SimplexPipe.timedStep boundedSink.toSinkCalls 10) (SimplexPipe.new () 0) droppedOnce =
      some p ∧
      p.read = [1, 2, 3] ∧ p.eofs = [([1, 2, 3], [1, 2, 3])] ∧
      p.accepted ++ SimplexPipe.pendingBytes p.pendingChunk = p.read :=
  ⟨_, rfl, rfl, rfl,
    ((SimplexPipe.conserved_of_reachable boundedSink 10 0 () _ ⟨droppedOnce, rfl⟩).1
      (fun e (h : Point.flushingEof = .failed e) => nomatch h)).1⟩

end

/-! ## Runs that finish -/

/-- What `exchange` does with a sink and the chunks of a source, as long as no call fails. -/
inductive Drives {σ : Type} (S : SinkCalls σ Unit) : σ → List Bytes → σ → Prop
  | eof {s s' : σ} (h : S.eof s () = (s', .ok ())) : Drives S s [] s'
  | sent {s s1 s' : σ} {bytes : Bytes} {chunks : List Bytes}
      (hwrite : S.write s bytes () = (s1, .ok [])) (hrest : Drives S s1 chunks s') :
      Drives S s (bytes :: chunks) s'
  | unsent {s s1 s2 s' : σ} {bytes unsent : Bytes} {chunks : List Bytes}
      (hwrite : S.write s bytes () = (s1, .ok unsent)) (hne : unsent ≠ [])
      (hwait : S.waitWritable s1 () = (s2, .ok ())) (hrest : Drives S s2 (unsent :: chunks) s') :
      Drives S s (bytes :: chunks) s'

/-- The same as a function, with fuel for the calls of `write`. -/
def drive {σ : Type} (S : SinkCalls σ Unit) : Nat → σ → List Bytes → Option σ
  | _, s, [] =>
    match S.eof s () with
    | (s', .ok _) => some s'
    | (_, .error _) => none
  | 0, _, _ :: _ => none
  | fuel + 1, s, bytes :: chunks =>
    match S.write s bytes () with
    | (_, .error _) => none
    | (s1, .ok []) => drive S fuel s1 chunks
    | (s1, .ok (b :: unsent)) =>
      match S.waitWritable s1 () with
      | (_, .error _) => none
      | (s2, .ok _) => drive S fuel s2 ((b :: unsent) :: chunks)

lemma drives_of_drive (h : drive S fuel s chunks = some s') : Drives S s chunks s' := by
  fun_induction drive S fuel s chunks with
  | case1 _ s s1 _ he =>
    cases h
    exact .eof he
  | case2 | case3 | case4 | case6 => cases h
  | case5 fuel s bytes chunks s1 hw ih => exact .sent hw (ih h)
  | case7 fuel s bytes chunks s1 b unsent hw s2 _ hwa ih =>
    exact .unsent hw (cons_ne_nil b unsent) hwa (ih h)

/-- The same calls up to `eof` or the first that fails; `Q` holds then. -/
inductive Ends {σ : Type} (S : SinkCalls σ Unit) (Q : σ → Except IoError Unit → Prop) :
    σ → List Bytes → Prop
  | eof {s s' : σ} {r : Except IoError Unit} (h : S.eof s () = (s', r)) (hQ : Q s' r) :
      Ends S Q s []
  | refused {s s1 : σ} {bytes : Bytes} {chunks : List Bytes} {e : IoError}
      (hwrite : S.write s bytes () = (s1, .error e)) (hQ : Q s1 (.error e)) :
      Ends S Q s (bytes :: chunks)
  | sent {s s1 : σ} {bytes : Bytes} {chunks : List Bytes}
      (hwrite : S.write s bytes () = (s1, .ok [])) (hrest : Ends S Q s1 chunks) :
      Ends S Q s (bytes :: chunks)
  | unready {s s1 s2 : σ} {bytes unsent : Bytes} {chunks : List Bytes} {e : IoError}
      (hwrite : S.write s bytes () = (s1, .ok unsent)) (hne : unsent ≠ [])
      (hwait : S.waitWritable s1 () = (s2, .error e)) (hQ : Q s2 (.error e)) :
      Ends S Q s (bytes :: chunks)
  | unsent {s s1 s2 : σ} {bytes unsent : Bytes} {chunks : List Bytes}
      (hwrite : S.write s bytes () = (s1, .ok unsent)) (hne : unsent ≠ [])
      (hwait : S.waitWritable s1 () = (s2, .ok ())) (hrest : Ends S Q s2 (unsent :: chunks)) :
      Ends S Q s (bytes :: chunks)

section

variable {σ : Type} {S : SinkCalls σ Unit} {Q : σ → Except IoError Unit → Prop}

lemma ends_nil (h : S.eof s () = (s', r)) : Ends S Q s [] ↔ Q s' r := by
  refine ⟨fun he => ?_, fun hQ => .eof h hQ⟩
  cases he with
  | eof h' hQ =>
    rw [h] at h'
    cases h'
    exact hQ

variable {s s1 s2 : σ} {bytes rest : Bytes} {chunks : List Bytes} {e : IoError}

lemma ends_cons : Ends S Q s (bytes :: chunks) ↔ match S.write s bytes () with
    | (s1, .error e) => Q s1 (.error e)
    | (s1, .ok []) => Ends S Q s1 chunks
    | (s1, .ok (b :: unsent)) =>
      match S.waitWritable s1 () with
      | (s2, .error e) => Q s2 (.error e)
      | (s2, .ok _) => Ends S Q s2 ((b :: unsent) :: chunks) := by
  constructor
  · intro h
    cases h with
    | refused hw hQ => simpa only [hw] using hQ
    | sent hw hr => simpa only [hw] using hr
    | @unready _ _ _ _ unsent _ _ hw hne hwa hQ =>
      obtain ⟨b, unsent, rfl⟩ := exists_cons_of_ne_nil hne
      simpa only [hw, hwa] using hQ
    | @unsent _ _ _ _ unsent _ hw hne hwa hr =>
      obtain ⟨b, unsent, rfl⟩ := exists_cons_of_ne_nil hne
      simpa only [hw, hwa] using hr
  · intro h
    split at h
    · exact .refused ‹_› h
    · exact .sent ‹_› h
    · split at h
      · exact .unready ‹_› (cons_ne_nil _ _) ‹_› h
      · exact .unsent ‹_› (cons_ne_nil _ _) ‹_› h

lemma ends_refused (hw : S.write s bytes () = (s1, .error e)) :
    Ends S Q s (bytes :: chunks) ↔ Q s1 (.error e) := by
  rw [ends_cons, hw]

lemma ends_sent (hw : S.write s bytes () = (s1, .ok [])) :
    Ends S Q s (bytes :: chunks) ↔ Ends S Q s1 chunks := by
  rw [ends_cons, hw]

lemma ends_unready (hw : S.write s bytes () = (s1, .ok rest)) (hne : rest ≠ [])
    (hwa : S.waitWritable s1 () = (s2, .error e)) :
    Ends S Q s (bytes :: chunks) ↔ Q s2 (.error e) := by
  obtain ⟨b, rest, rfl⟩ := exists_cons_of_ne_nil hne
  simp [ends_cons, hw, hwa]

lemma ends_unsent (hw : S.write s bytes () = (s1, .ok rest)) (hne : rest ≠ [])
    (hwa : S.waitWritable s1 () = (s2, .ok ())) :
    Ends S Q s (bytes :: chunks) ↔ Ends S Q s2 (rest :: chunks) := by
  obtain ⟨b, rest, rfl⟩ := exists_cons_of_ne_nil hne
  rw [ends_cons, hw]
  simp [hwa]

lemma ends_iff_drives {Q : σ → Prop} {s : σ} {chunks : List Bytes} :
    Ends S (fun s' r => r = .ok () ∧ Q s') s chunks ↔ ∃ s', Drives S s chunks s' ∧ Q s' := by
  constructor
  · intro h
    induction h with
    | eof he hQ =>
      obtain ⟨rfl, hQ⟩ := hQ
      exact ⟨_, .eof he, hQ⟩
    | refused _ hQ | unready _ _ _ hQ => cases hQ.1
    | sent hw _ ih =>
      obtain ⟨s', hd, hQ⟩ := ih
      exact ⟨s', .sent hw hd, hQ⟩
    | unsent hw hne hwa _ ih =>
      obtain ⟨s', hd, hQ⟩ := ih
      exact ⟨s', .unsent hw hne hwa hd, hQ⟩
  · rintro ⟨s', hd, hQ⟩
    induction hd with
    | eof he => exact .eof he ⟨rfl, hQ⟩
    | sent hw _ ih => exact .sent hw (ih hQ)
    | unsent hw hne hwa _ ih => exact .unsent hw hne hwa (ih hQ)

end

/-! ## Both directions -/

inductive Side where
  | left
  | right
  deriving DecidableEq

/-- Both directions, or the one that is left. -/
inductive Waiting where
  | both
  | only (side : Side)
  | returned (r : Except IoError Unit)

structure DuplexPipe (σ τ : Type) where
  leftPipe : SimplexPipe σ
  rightPipe : SimplexPipe τ
  waiting : Waiting
  now : Nat

section

variable {σ τ α β : Type} (S : Sink σ α) (T : Sink τ β)

/-- The future of `exchange` is dropped, if it is running. -/
def SimplexPipe.cancel (p : SimplexPipe σ) : SimplexPipe σ :=
  match p.point with
  | .flushing | .reading | .waitingWritable | .flushingEof => { p with point := .idle }
  | _ => p

namespace DuplexPipe

def new (sink : σ) (sink' : τ) : DuplexPipe σ τ :=
  { leftPipe := .new sink 0, rightPipe := .new sink' 0, waiting := .both, now := 0 }

inductive Event (α β : Type) where
  | left (ev : Pipe.Event α)
  | right (ev : Pipe.Event β)
  | wait (d : Nat)

/-- `exchange_once` and its loop, when a direction has come to `point`. -/
def settle (timeout : Nat) (d : DuplexPipe σ τ) (point : Point) (other : Side) : DuplexPipe σ τ :=
  let cancelled := { d with leftPipe := d.leftPipe.cancel, rightPipe := d.rightPipe.cancel }
  match point, d.waiting with
  | .failed e, _ => { cancelled with waiting := .returned (.error e) }
  | .finished, .both => { d with waiting := .only other }
  | .finished, _ => { d with waiting := .returned (.ok ()) }
  | .timedOut, .both =>
    if d.leftPipe.lastActivity + timeout < d.now ∧ d.rightPipe.lastActivity + timeout < d.now then
      { cancelled with waiting := .returned (.error (.ofKind .timedOut)) }
    else cancelled
  | .timedOut, _ => { d with waiting := .returned (.error (.ofKind .timedOut)) }
  | _, _ => d

def polls (d : DuplexPipe σ τ) (side : Side) : Bool :=
  match d.waiting with
  | .both => true
  | .only s => s = side
  | .returned _ => false

/-- A future is dropped only by the pipe itself (`settle`). -/
def step (timeout : Nat) (d : DuplexPipe σ τ) : Event α β → Option (DuplexPipe σ τ)
  | .left .drop => none
  | .right .drop => none
  | .left ev =>
    if d.polls .left then
      (d.leftPipe.step S.toSinkCalls timeout d.now ev).map
        (fun p => settle timeout { d with leftPipe := p } p.point .right)
    else none
  | .right ev =>
    if d.polls .right then
      (d.rightPipe.step T.toSinkCalls timeout d.now ev).map
        (fun p => settle timeout { d with rightPipe := p } p.point .left)
    else none
  | .wait δ => some { d with now := d.now + δ }

variable {S T}

section

variable {timeout : Nat} {d d' : DuplexPipe σ τ}

lemma cancel_sound {p : SimplexPipe σ} (h : p.Sound) : p.cancel.Sound := by
  unfold SimplexPipe.cancel
  split
  all_goals first
    | exact h
    | exact h.at_point (by simp_all) (by simp) p.lastActivity

lemma settle_sound (hl : d.leftPipe.Sound) (hr : d.rightPipe.Sound) :
    (settle timeout d point other).leftPipe.Sound ∧
      (settle timeout d point other).rightPipe.Sound := by
  have hcl := cancel_sound hl
  have hcr := cancel_sound hr
  unfold settle
  simp only
  split
  · exact ⟨hcl, hcr⟩
  · exact ⟨hl, hr⟩
  · exact ⟨hl, hr⟩
  · split <;> exact ⟨hcl, hcr⟩
  · exact ⟨hl, hr⟩
  · exact ⟨hl, hr⟩

lemma step_left (h : step S T timeout d (.left ev) = some d') : d.polls .left ∧
      ∃ p, d.leftPipe.step S.toSinkCalls timeout d.now ev = some p ∧
        d' = settle timeout { d with leftPipe := p } p.point .right := by
  cases ev <;> simp only [step, reduceCtorEq] at h
  all_goals
    obtain ⟨hpo, h⟩ := ite_none_right_eq_some.mp h
    obtain ⟨p, hp, hd'⟩ := map_eq_some_iff.mp h
    exact ⟨hpo, p, hp, hd'.symm⟩

lemma step_right (h : step S T timeout d (.right ev) = some d') : d.polls .right ∧
      ∃ p, d.rightPipe.step T.toSinkCalls timeout d.now ev = some p ∧
        d' = settle timeout { d with rightPipe := p } p.point .left := by
  cases ev <;> simp only [step, reduceCtorEq] at h
  all_goals
    obtain ⟨hpo, h⟩ := ite_none_right_eq_some.mp h
    obtain ⟨p, hp, hd'⟩ := map_eq_some_iff.mp h
    exact ⟨hpo, p, hp, hd'.symm⟩

lemma step_sound (h : d.leftPipe.Sound ∧ d.rightPipe.Sound)
    (hs : step S T timeout d ev = some d') : d'.leftPipe.Sound ∧ d'.rightPipe.Sound := by
  cases ev with
  | left =>
    obtain ⟨-, p, hp, rfl⟩ := step_left hs
    have hl : p.Sound := SimplexPipe.sound_step h.1 hp
    exact settle_sound (d := { d with leftPipe := p }) hl h.2
  | right =>
    obtain ⟨-, p, hp, rfl⟩ := step_right hs
    have hr : p.Sound := SimplexPipe.sound_step h.2 hp
    exact settle_sound (d := { d with rightPipe := p }) h.1 hr
  | wait δ =>
    cases hs
    exact h

/-- **Both directions conserve their bytes**, however their timeouts cancel each
other. -/
theorem duplex_conserved_of_reachable (h : Reachable (step S T timeout) (new sink sink') d) :
    d.leftPipe.Sound ∧ d.rightPipe.Sound := by
  have hi : (new sink sink').leftPipe.Sound ∧ (new sink sink').rightPipe.Sound :=
    ⟨SimplexPipe.sound_new sink 0, SimplexPipe.sound_new sink' 0⟩
  obtain ⟨es, hes⟩ := h
  exact run_invariant (s := new sink sink') (fun _ _ _ hs hst => step_sound hs hst) hi hes

theorem duplex_conserved_bounded : ∃ d, Reachable (step boundedSink boundedSink 10) (new () ()) d ∧
    d.leftPipe.read = [1, 2] ∧ d.leftPipe.Sound ∧ d.rightPipe.Sound := by
  have h : Reachable (step boundedSink boundedSink 10) (new () ()) _ :=
    ⟨[.left .start, .left (.flushed 0), .left (.readable (.ok (.chunk [1, 2])) 1 (.ok ()))], rfl⟩
  exact ⟨_, h, rfl, duplex_conserved_of_reachable h⟩

end

end DuplexPipe

end

end TrustTunnel.Pipe
