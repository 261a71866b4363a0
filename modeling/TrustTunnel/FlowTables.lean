import TrustTunnel.UdpEgress

/-!
# The flow tables of the pipe and of the direct forwarder

What one table removes must be reported to the other: by `on_connection_closed` or a queued
`UdpClose`. The pipe keeps the entry of a flow whose opening failed.
-/

namespace TrustTunnel.UdpPipe

open Io Forwarder Lib

section Keys

variable {φ ω η : Type} {F : UdpForwarder φ ω η} {timeout : Nat} {s : State φ}

/-! ## The keys after a step -/

@[simp] lemma mem_onDatagram (d : Downstream.UdpDatagram) (socket : Except IoError Unit)
    (k : UdpDatagramMeta) :
    k ∈ (onDatagram F s d socket).udpConnections ↔ k = d.key ∨ k ∈ s.udpConnections := by
  unfold onDatagram
  cases hk : s.udpConnections.lookup d.key with
  | some => simp [registerOutgoing]
  | none => cases ho : F.onNewUdpConnection s.fwd d.flow socket <;> simp

@[simp] lemma mem_rightRead (k : UdpDatagramMeta) : k ∈ (rightRead F s).udpConnections ↔
      k ∉ (F.beginRead s.fwd).1.map Prod.fst ∧ k ∈ s.udpConnections := by
  simp [rightRead, Table.mem_eraseAll]

@[simp] lemma mem_onTimerTick (k : UdpDatagramMeta) :
    k ∈ (onTimerTick F timeout s).udpConnections ↔
      k ∉ expired timeout s ∧ k ∈ s.udpConnections := by
  simp [onTimerTick, Table.mem_eraseAll]

lemma leftWrite_returned
    (h : F.write s.fwd d.key = .ok a) : (leftWrite F s d).returned = s.returned := by
  simp [leftWrite, h]

lemma flowOpened_returned
    (h : F.write s.fwd d.key = .ok a) : (flowOpened F s d).returned = s.returned := by
  unfold flowOpened
  split
  · exact leftWrite_returned h
  · rename_i c _
    exact leftWrite_returned (s := registerOutgoing s d c) h

end Keys

end TrustTunnel.UdpPipe

namespace TrustTunnel.UdpForwarder

open Io Forwarder Lib UdpPipe

/-! ## The direct forwarder -/

/-- Every flow has a connection or a queued `UdpClose`, and no write has missed one. -/
structure Agrees (s : State Multiplexer) : Prop where
  connected : ∀ k ∈ s.udpConnections,
    k ∈ s.fwd.connections ∨ ∃ e, (k, e) ∈ s.fwd.pendingClosures
  found : ∀ e, s.returned ≠ some (.sinkLookup e)

def Opens (settings : Settings) (s : State Multiplexer) : Event Empty PollEvent → Prop
  | .datagram d socket =>
    d.key ∈ s.udpConnections ∨
      settings.refuses d.flow.destination.ip = false ∧ socket = .ok ()
  | _ => True

/-- Between steps nothing is queued, since the source reports before it waits. -/
structure SameKeys (s : State Multiplexer) : Prop where
  keys : ∀ k, k ∈ s.udpConnections ↔ k ∈ s.fwd.connections
  queue : s.fwd.pendingClosures = []
  found : ∀ e, s.returned ≠ some (.sinkLookup e)

lemma SameKeys.agrees (h : SameKeys s) : Agrees s :=
  ⟨fun k hk => .inl ((h.keys k).mp hk), h.found⟩

@[simp] lemma mem_onConnectionClosed (f : Multiplexer) (m k : UdpDatagramMeta) :
    k ∈ (onConnectionClosed f m).connections ↔ k ≠ m.reversed ∧ k ∈ f.connections := by
  simp [onConnectionClosed, AList.mem_erase]

lemma foldl_onConnectionClosed (f : Multiplexer) (ms : List UdpDatagramMeta) :
    (∀ k, k ∈ (ms.foldl (fun f m => onConnectionClosed f m.reversed) f).connections ↔
        k ∉ ms ∧ k ∈ f.connections) ∧
      (ms.foldl (fun f m => onConnectionClosed f m.reversed) f).pendingClosures =
        f.pendingClosures := by
  induction ms generalizing f with
  | nil => simp
  | cons m ms ih =>
    obtain ⟨hk, hq⟩ := ih (onConnectionClosed f m.reversed)
    refine ⟨fun k => ?_, hq⟩
    simp only [List.foldl_cons, hk, mem_onConnectionClosed, UdpDatagramMeta.reversed_reversed,
      List.mem_cons, not_or]
    tauto

lemma mem_afterSend (f : Multiplexer) (m k : UdpDatagramMeta) :
    k ∈ (afterSend f m).1.connections ↔ k ∈ f.connections := by
  rcases afterSend_cases f m with ⟨h, -⟩ | ⟨-, e, h⟩ | ⟨c, hc, h⟩
  · rw [h]
  · rw [h]
  · simp only [h, AList.mem_insert]
    have hm : m ∈ f.connections := Table.mem_of_lookup hc
    exact ⟨fun h => h.elim (· ▸ hm) id, .inr⟩

lemma afterSend_pendingClosures (f : Multiplexer) (m : UdpDatagramMeta) :
    (afterSend f m).1.pendingClosures = f.pendingClosures := by
  rcases afterSend_cases f m with ⟨h, -⟩ | ⟨-, e, h⟩ | ⟨c, -, h⟩ <;> rw [h]

lemma write_of_mem (h : m ∈ f.connections) : ∃ a, write f m = .ok a := by
  obtain ⟨c, hc⟩ := Table.exists_lookup h
  exact ⟨c.socket.peer, by simp [write, hc]⟩

/-- `f'` lacks the connections whose close report it has queued. -/
def Reports (f f' : Multiplexer) : Prop :=
  ∀ k, k ∈ f'.connections ↔ k ∉ f'.pendingClosures.map Prod.fst ∧ k ∈ f.connections

lemma Reports.refl (hq : f.pendingClosures = []) : Reports f f := by
  intro k
  simp [hq]

lemma onSocketError_reports (hq : f.pendingClosures = [])
    (m : UdpDatagramMeta) (e : IoError) : Reports f (onSocketError f m e) := by
  intro k
  unfold onSocketError
  split
  · simp [hq, AList.mem_erase]
  · simp [hq]

/-- A wake-up queues a report for each connection it removes and hands it out. -/
lemma onPollEvent_reports (h : onPollEvent f ev = some (f', p)) (hq : f.pendingClosures = []) :
    Reports f f' ∧ (p ≠ .again → f' = f) := by
  rcases onPollEvent_cases h with ⟨rfl, rfl⟩ | ⟨rfl, -⟩ | ⟨m, e, rfl, rfl⟩
  · exact ⟨.refl hq, fun h => absurd rfl h⟩
  · exact ⟨.refl hq, fun _ => rfl⟩
  · exact ⟨onSocketError_reports hq m e, fun h => absurd rfl h⟩

section

variable {settings : Settings} {timeout : Nat} {s s' : State Multiplexer}

lemma rightRead_sameKeys (settings : Settings) (hk : ∀ k, k ∈ s.fwd.connections ↔
      k ∉ s.fwd.pendingClosures.map Prod.fst ∧ k ∈ s.udpConnections)
    (hf : ∀ e, s.returned ≠ some (.sinkLookup e)) :
    SameKeys (rightRead (multiplexer settings) s) where
  keys k := by
    rw [mem_rightRead]
    exact (hk k).symm
  queue := rfl
  found := hf

lemma SameKeys.rightRead (h : SameKeys s) : SameKeys (rightRead (multiplexer settings) s) :=
  rightRead_sameKeys settings (fun k => by simp [h.queue, h.keys k]) h.found

lemma onDatagram_known_sameKeys (h : SameKeys s)
    (socket : Except IoError Unit) (hk : d.key ∈ s.udpConnections) :
    SameKeys (onDatagram (multiplexer settings) s d socket) := by
  obtain ⟨a, ha⟩ := write_of_mem ((h.keys d.key).mp hk)
  rw [onDatagram_of_mem socket hk]
  refine ⟨fun k => by simpa using h.keys k, by simpa using h.queue, fun e => ?_⟩
  rw [flowOpened_returned (F := multiplexer settings) ha]
  exact h.found e

lemma onDatagram_opened_sameKeys (h : SameKeys s)
    (hk : d.key ∉ s.udpConnections) (hg : settings.refuses d.flow.destination.ip = false) :
    SameKeys (onDatagram (multiplexer settings) s d (.ok ())) := by
  have hn : d.key ∉ s.fwd.connections := fun hf => hk ((h.keys d.key).mpr hf)
  have ho : (multiplexer settings).onNewUdpConnection s.fwd d.flow (.ok ()) = .opened { s.fwd with
        connections := s.fwd.connections.insert d.key ⟨⟨d.flow.destination⟩, false⟩ } := by
    simp only [multiplexer, onNewUdpConnection, hg, Bool.false_eq_true, if_false]
    exact if_neg hn
  rw [onDatagram_of_opened hk ho]
  refine ⟨fun k => by simp [h.keys], by simpa using h.queue, fun e => ?_⟩
  rw [flowOpened_returned (a := d.flow.destination) (by simp [multiplexer, write])]
  exact h.found e

lemma onSent_sameKeys (h : SameKeys s) (d : Downstream.UdpDatagram) (r : Except IoError Unit) :
    SameKeys (onSent (multiplexer settings) s d r) := by
  cases r with
  | error => exact ⟨h.keys, h.queue, by simp [onSent]⟩
  | ok =>
    have hk : ∀ k, k ∈ s.udpConnections ↔ k ∈ (afterSend s.fwd d.key).1.connections :=
      fun k => (h.keys k).trans (mem_afterSend s.fwd d.key k).symm
    have hq := (afterSend_pendingClosures s.fwd d.key).trans h.queue
    simp only [onSent, multiplexer]
    split
    · rename_i heq
      rw [heq] at hk hq
      exact ⟨hk, hq, by simp⟩
    · rename_i heq
      rw [heq] at hk hq
      exact ⟨hk, hq, h.found⟩

lemma onSource_sameKeys (h : SameKeys s)
    (hs : UdpPipe.onSource (multiplexer settings) s ev = some s') : SameKeys s' := by
  obtain ⟨fwd, p, hc, rfl⟩ := onSource_eq_some hs
  obtain ⟨hr, hsa⟩ := onPollEvent_reports hc h.queue
  cases p with
  | failed =>
    obtain rfl := hsa (by simp)
    exact ⟨h.keys, h.queue, by simp [onProgress]⟩
  | read | pending =>
    obtain rfl := hsa (by simp)
    exact ⟨h.keys, h.queue, h.found⟩
  | again => exact rightRead_sameKeys settings (fun k => by rw [hr k, h.keys k]) h.found

lemma onWritten_sameKeys (h : SameKeys s) (d : UdpDatagram) (r : Except IoError Unit) :
    SameKeys (onWritten (multiplexer settings) s d r) := by
  cases r with
  | error => exact ⟨h.keys, h.queue, by simp [onWritten]⟩
  | ok =>
    simp only [onWritten]
    split
    · exact h.rightRead
    · rename_i hc
      split
      · refine SameKeys.rightRead ⟨fun k => ?_, h.queue, h.found⟩
        exact (mem_insert_of_lookup hc).trans (h.keys k)
      · refine SameKeys.rightRead ⟨fun k => ?_, h.queue, h.found⟩
        simp [multiplexer, mem_onConnectionClosed, AList.mem_erase, h.keys]

lemma onTimerTick_sameKeys (h : SameKeys s) :
    SameKeys (onTimerTick (multiplexer settings) timeout s) := by
  obtain ⟨hk, hq⟩ := foldl_onConnectionClosed s.fwd (expired timeout s)
  refine ⟨fun k => ?_, hq.trans h.queue, h.found⟩
  rw [mem_onTimerTick, h.keys]
  exact (hk k).symm

lemma sameKeys_step (h : SameKeys s)
    (hok : Opens settings s ev) (hst : step (multiplexer settings) timeout s ev = some s') :
    SameKeys s' := by
  cases next_of_step hst with
  | @datagram d socket _ =>
    by_cases hk : d.key ∈ s.udpConnections
    · exact onDatagram_known_sameKeys h socket hk
    · obtain ⟨hg, rfl⟩ := hok.resolve_left hk
      exact onDatagram_opened_sameKeys h hk hg
  | clientError => exact ⟨h.keys, h.queue, by simp⟩
  | @opened d answer _ => exact nomatch answer
  | sent => exact onSent_sameKeys h _ _
  | started => exact h.rightRead
  | source _ hs => exact onSource_sameKeys h hs
  | written => exact onWritten_sameKeys h _ _
  | tick =>
    have h' : SameKeys { s with left := .reading, right := .starting } :=
      ⟨h.keys, h.queue, h.found⟩
    exact onTimerTick_sameKeys h'
  | wait => exact ⟨h.keys, h.queue, h.found⟩

lemma not_agrees_of_not_opens (h : SameKeys s)
    (hb : ¬ Opens settings s ev) (hs : step (multiplexer settings) timeout s ev = some s') :
    ¬ Agrees s' := by
  cases next_of_step hs with
  | @datagram d socket _ =>
    simp only [Opens, not_or] at hb
    obtain ⟨hk, hb⟩ := hb
    have hn : d.key ∉ s.fwd.connections := fun hf => hk ((h.keys d.key).mpr hf)
    have ho : ∃ e, (multiplexer settings).onNewUdpConnection s.fwd d.flow socket =
        .refused e s.fwd := by
      simp only [multiplexer, onNewUdpConnection]
      by_cases hg : settings.refuses d.flow.destination.ip
      · exact ⟨_, if_pos hg⟩
      · cases socket with
        | ok => exact absurd ⟨by simpa using hg, rfl⟩ hb
        | error e => exact ⟨e, (if_neg hg).trans (if_neg hn)⟩
    obtain ⟨e, ho⟩ := ho
    intro ha
    have hm := ha.connected d.key (by simp)
    rw [onDatagram_of_refused hk ho] at hm
    simp [h.queue, hn] at hm
  | _ => exact absurd trivial hb

/-- **Flow-table agreement, direct forwarder**: exactly when every flow that is opened passes
the guard and gets its socket. -/
theorem agrees_iff_opens (settings : Settings) (timeout : Nat) (es : List (Event Empty PollEvent)) :
    EveryState (step (multiplexer settings) timeout) Agrees (init (multiplexer settings)) es ↔
      EveryStep (step (multiplexer settings) timeout) (Opens settings)
        (init (multiplexer settings)) es := by
  have hi : SameKeys (init (multiplexer settings)) :=
    ⟨fun k => by simp [init, multiplexer, makeMultiplexer], rfl, by simp [init]⟩
  exact everyState_iff_everyStep (fun s e s' => sameKeys_step) (fun s => SameKeys.agrees)
    (fun s e s' => not_agrees_of_not_opens) es hi

lemma refusedTwice_returned :
    (run (step (multiplexer (.guarded true)) 120) (init (multiplexer (.guarded true)))
      [.datagram (oneByteTo privateHost) (.ok ()),
        .datagram (oneByteTo privateHost) (.ok ())]).map State.returned =
      some (some (.sinkLookup (.ofKind .notFound))) := by
  decide +kernel

/-- A client that sends twice to a private host ends the exchange. -/
theorem refusedTwice_not_agrees : ¬ ∀ s, Reachable (step (multiplexer (.guarded true)) 120)
        (init (multiplexer (.guarded true))) s → Agrees s := by
  intro h
  obtain ⟨s, hr, hre⟩ := Option.map_eq_some_iff.mp refusedTwice_returned
  exact (h s ⟨_, hr⟩).found _ hre

end

end TrustTunnel.UdpForwarder
