import TrustTunnel.FlowTables

/-!
# The flow tables of the pipe and of the SOCKS5 forwarder

A flow is a peer of the association of its source; `agrees_iff_keeps` says which steps keep the
tables together.
-/

namespace TrustTunnel.Socks5Forwarder

open Io NetUtils Forwarder Lib UdpPipe AList Downstream.UdpDatagram

def Peer (f : DatagramTransceiver) (k : UdpDatagramMeta) : Prop :=
  ∃ a, f.associations.lookup k.source = some a ∧ k.destination ∈ a.peers

def BeingOpened (s : State DatagramTransceiver) (k : UdpDatagramMeta) : Prop :=
  ∃ d : Downstream.UdpDatagram, s.left = .opening d ∧ d.key = k

/-- With no close report queued, the open flows of the pipe are the peers of the associations. -/
def Agrees (s : State DatagramTransceiver) : Prop :=
  s.fwd.pendingClosures = [] →
    ∀ k, ¬ BeingOpened s k → (k ∈ s.udpConnections ↔ Peer s.fwd k)

def OnlySelfPeer (f : DatagramTransceiver) (source : SocketAddr) : Prop :=
  ∀ a, f.associations.lookup source = some a → ∀ peer ∈ a.peers, peer = source

/-- A new flow passes the guard, a handshake succeeds, the timer interrupts no opening, and no
socket with another peer fails. -/
def Keeps (settings : Settings) (timeout : Nat) (s : State DatagramTransceiver) :
    Event HandshakeAnswer PollEvent → Prop
  | .datagram d _ =>
    d.key ∈ s.udpConnections ∨ settings.refuses d.flow.destination.ip = false
  | .opened answer => answer = .handshake .connected
  | .tick => ∀ d, s.left = .opening d → d.key ∈ expired timeout s
  | .source (.socketError source _) => OnlySelfPeer s.fwd source
  | .source (.received (.error _)) =>
    ∀ source, s.fwd.receiving = some source → OnlySelfPeer s.fwd source
  | _ => True

lemma peer_source_mem (h : Peer f k) : k.source ∈ f.associations := by
  obtain ⟨a, ha, -⟩ := h
  exact Table.mem_of_lookup ha

lemma peer_insert (f : DatagramTransceiver) (source : SocketAddr) (a : UdpAssociation)
    (k : UdpDatagramMeta) : Peer { f with associations := f.associations.insert source a } k ↔
      if k.source = source then k.destination ∈ a.peers else Peer f k := by
  obtain ⟨src, dst⟩ := k
  unfold Peer
  by_cases h : src = source
  · subst h
    simp
  · simp [h, lookup_insert_ne h]

lemma peer_erase (f : DatagramTransceiver) (source : SocketAddr) (k : UdpDatagramMeta) :
    Peer { f with associations := f.associations.erase source } k ↔
      k.source ≠ source ∧ Peer f k := by
  obtain ⟨src, dst⟩ := k
  unfold Peer
  by_cases h : src = source
  · subst h
    simp
  · simp [h, lookup_erase_ne h]

lemma peer_of_lookup (ha : f.associations.lookup source = some a) (destination : SocketAddr) :
    Peer f ⟨source, destination⟩ ↔ destination ∈ a.peers := by
  simp [Peer, ha]

lemma peer_onConnectionClosed (f : DatagramTransceiver) (m k : UdpDatagramMeta) :
    Peer (onConnectionClosed f m) k ↔ k ≠ m.reversed ∧ Peer f k := by
  obtain ⟨ksrc, kdst⟩ := k
  simp only [onConnectionClosed, UdpDatagramMeta.reversed, ne_eq, UdpDatagramMeta.mk.injEq]
  cases ha : f.associations.lookup m.destination with
  | none =>
    refine ⟨fun h => ⟨?_, h⟩, fun h => h.2⟩
    rintro ⟨rfl, -⟩
    obtain ⟨a, ha', -⟩ := h
    simp [ha] at ha'
  | some a =>
    simp only
    by_cases hs : ksrc = m.destination
    · subst hs
      simp only [true_and, peer_of_lookup ha]
      split
      · rename_i he
        have hal : kdst ∉ (a.without m.source).peers := by
          simp [List.isEmpty_iff.mp he]
        rw [UdpAssociation.mem_without] at hal
        rw [peer_erase]
        tauto
      · rw [peer_insert, if_pos rfl, UdpAssociation.mem_without]
        tauto
    · split
      · rw [peer_erase]
        simp [hs]
      · rw [peer_insert]
        simp [hs]

lemma peer_foldl_onConnectionClosed (f : DatagramTransceiver) (ms : List UdpDatagramMeta)
    (k : UdpDatagramMeta) :
    Peer (ms.foldl (fun f m => onConnectionClosed f m.reversed) f) k ↔ k ∉ ms ∧ Peer f k := by
  induction ms generalizing f with
  | nil => simp
  | cons m ms ih =>
    rw [List.foldl_cons, ih, peer_onConnectionClosed, UdpDatagramMeta.reversed_reversed,
      List.mem_cons, not_or]
    tauto

/-! ## The invariant -/

/-- What holds between steps that keep the tables together; the right loop cannot touch a flow
that is being opened. -/
structure Consistent (s : State DatagramTransceiver) : Prop where
  queue : s.fwd.pendingClosures = []
  waker : s.fwd.newSocket ≠ .closed
  keys : ∀ k, ¬ BeingOpened s k → (k ∈ s.udpConnections ↔ Peer s.fwd k)
  opening : ∀ d, s.left = .opening d →
    d.key ∈ s.udpConnections ∧ d.flow.source ∉ s.fwd.associations
  receiving : s.right = .reading → ∀ source, s.fwd.receiving = some source →
    source ∈ s.fwd.associations
  writing : ∀ d, s.right = .writing d → d.flow.destination ∈ s.fwd.associations

lemma Consistent.agrees (h : Consistent s) : Agrees s :=
  fun _ => h.keys

lemma not_beingOpened_of_left (h : s.left = .reading)
    (k : UdpDatagramMeta) : ¬ BeingOpened s k := by
  rintro ⟨d, hd, -⟩
  simp [h] at hd

lemma mem_of_mem_onConnectionClosed (h : source ∈ (onConnectionClosed f m).associations) :
    source ∈ f.associations := by
  unfold onConnectionClosed at h
  split at h
  · exact h
  · rename_i ha
    split at h
    · exact (mem_erase.mp h).2
    · rcases (mem_insert _).mp h with rfl | h
      · exact Table.mem_of_lookup ha
      · exact h

lemma onConnectionClosed_rest (f : DatagramTransceiver) (m : UdpDatagramMeta) :
    (onConnectionClosed f m).pendingClosures = f.pendingClosures ∧
      (onConnectionClosed f m).newSocket = f.newSocket := by
  unfold onConnectionClosed
  split
  · exact ⟨rfl, rfl⟩
  · split <;> exact ⟨rfl, rfl⟩

lemma foldl_onConnectionClosed_rest (f : DatagramTransceiver) (ms : List UdpDatagramMeta) :
    (ms.foldl (fun f m => onConnectionClosed f m.reversed) f).pendingClosures = f.pendingClosures ∧
      (ms.foldl (fun f m => onConnectionClosed f m.reversed) f).newSocket = f.newSocket := by
  induction ms generalizing f with
  | nil => exact ⟨rfl, rfl⟩
  | cons m ms ih =>
    obtain ⟨hq, hw⟩ := onConnectionClosed_rest f m.reversed
    obtain ⟨hq', hw'⟩ := ih (onConnectionClosed f m.reversed)
    exact ⟨hq'.trans hq, hw'.trans hw⟩

section

variable {settings : Settings} {timeout : Nat} {s s' : State DatagramTransceiver}

section

variable {d : Downstream.UdpDatagram} {ev : PollEvent}

lemma consistent_rightRead (hw : s.fwd.newSocket ≠ .closed) (hke : ∀ k, ¬ BeingOpened s k →
      (k ∉ s.fwd.pendingClosures.map Prod.fst ∧ k ∈ s.udpConnections ↔ Peer s.fwd k))
    (ho : ∀ d, s.left = .opening d → d.key ∉ s.fwd.pendingClosures.map Prod.fst ∧
      d.key ∈ s.udpConnections ∧ d.flow.source ∉ s.fwd.associations) :
    Consistent (rightRead (datagramTransceiver settings) s) where
  queue := rfl
  waker := hw
  keys k hk := by
    rw [mem_rightRead]
    exact hke k hk
  opening d hd := by
    rw [mem_rightRead]
    obtain ⟨hno, hk, hs⟩ := ho d hd
    exact ⟨⟨hno, hk⟩, hs⟩
  receiving _ source hs := by cases hs
  writing d hd := by cases hd

lemma Consistent.rightRead (h : Consistent s) :
    Consistent (rightRead (datagramTransceiver settings) s) := by
  refine consistent_rightRead h.waker (fun k hk => ?_) (fun d hd => ?_)
  · simpa [h.queue] using h.keys k hk
  · simpa [h.queue] using h.opening d hd

lemma consistent_flowOpened (hq : s.fwd.pendingClosures = [])
    (hwa : s.fwd.newSocket ≠ .closed) (hk : ∀ k, k ∈ s.udpConnections ↔ Peer s.fwd k)
    (hr : s.right = .reading → ∀ source, s.fwd.receiving = some source →
      source ∈ s.fwd.associations)
    (hwr : ∀ d, s.right = .writing d → d.flow.destination ∈ s.fwd.associations)
    (hs : d.flow.source ∈ s.fwd.associations) :
    Consistent (flowOpened (datagramTransceiver settings) s d) := by
  have hw : (datagramTransceiver settings).write s.fwd d.key = .ok d.flow.destination :=
    if_pos hs
  have hl := flowOpened_left_of_ok hw
  constructor
  · simpa using hq
  · simpa using hwa
  · intro k _
    simpa using hk k
  · intro d' hd'
    simp [hl] at hd'
  · simpa using hr
  · simpa using hwr

lemma onDatagram_known_consistent (h : Consistent s) (hl : s.left = .reading)
    (socket : Except IoError Unit) (hk : d.key ∈ s.udpConnections) :
    Consistent (onDatagram (datagramTransceiver settings) s d socket) := by
  have hke := fun k => h.keys k (not_beingOpened_of_left hl k)
  rw [onDatagram_of_mem socket hk]
  exact consistent_flowOpened h.queue h.waker hke h.receiving h.writing
    (peer_source_mem ((hke d.key).mp hk))

lemma onDatagram_new_consistent (h : Consistent s) (hl : s.left = .reading)
    (socket : Except IoError Unit) (hk : d.key ∉ s.udpConnections)
    (hg : settings.refuses d.flow.destination.ip = false) :
    Consistent (onDatagram (datagramTransceiver settings) s d socket) := by
  have hke := fun k => h.keys k (not_beingOpened_of_left hl k)
  cases ha : s.fwd.associations.lookup d.flow.source with
  | some a =>
    have ho : (datagramTransceiver settings).onNewUdpConnection s.fwd d.flow socket =
        .opened { s.fwd with associations :=
          s.fwd.associations.insert d.flow.source ⟨a.peers.insert d.flow.destination⟩ } := by
      simp [datagramTransceiver, onNewUdpConnection, hg, ha]
    rw [onDatagram_of_opened hk ho]
    refine consistent_flowOpened h.queue h.waker (fun k => ?_) ?_ ?_ ?_
    · rw [mem_entered, peer_insert, hke]
      obtain ⟨src, dst⟩ := k
      by_cases hs : src = d.flow.source
      · subst hs
        simp [peer_of_lookup ha, key, UdpDatagramMeta.ofDownstream]
      · simp [hs, key, UdpDatagramMeta.ofDownstream]
    · intro hr source hs
      exact (mem_insert _).mpr (.inr (h.receiving hr source hs))
    · intro d' hd'
      exact (mem_insert _).mpr (.inr (h.writing d' hd'))
    · simp
  | none =>
    have ho : (datagramTransceiver settings).onNewUdpConnection s.fwd d.flow socket = .waiting := by
      simp [datagramTransceiver, onNewUdpConnection, hg, ha]
    rw [onDatagram_of_waiting hk ho]
    refine ⟨h.queue, h.waker, fun k hk' => ?_, fun d' hd' => ?_, h.receiving, h.writing⟩
    · have hne : k ≠ d.key := fun hkd => hk' ⟨d, rfl, hkd.symm⟩
      rw [mem_entered, hke]
      simp [hne]
    · cases hd'
      exact ⟨by simp, lookup_eq_none.mp ha⟩

lemma onOpened_consistent (h : Consistent s) (hl : s.left = .opening d) :
    Consistent (onOpened (datagramTransceiver settings) s d (.handshake .connected)) := by
  obtain ⟨hk, hnon⟩ := h.opening d hl
  have hf : (datagramTransceiver settings).finishOpening s.fwd d.flow (.handshake .connected) =
      ({ s.fwd with
          associations := s.fwd.associations.insert d.flow.source ⟨[d.flow.destination]⟩,
          newSocket := .full }, .ok ()) := by
    have hwaker := h.waker
    cases hc : s.fwd.newSocket <;>
      simp_all [datagramTransceiver, finishOpening, Channel.trySend]
  simp only [onOpened, hf]
  refine consistent_flowOpened h.queue (by simp) (fun k => ?_) ?_ ?_ (by simp)
  · have hpe := peer_insert { s.fwd with newSocket := .full } d.flow.source
      ⟨[d.flow.destination]⟩ k
    refine Iff.trans ?_ hpe.symm
    by_cases hkd : k = d.key
    · subst hkd
      simpa using hk
    · have hn : ¬ BeingOpened s k := by
        rintro ⟨d', hd', rfl⟩
        rw [hl] at hd'
        cases hd'
        exact hkd rfl
      rw [h.keys k hn]
      by_cases hs : k.source = d.flow.source
      · have hno : ¬ Peer s.fwd k := fun hp => hnon (hs ▸ peer_source_mem hp)
        have hde : k.destination ≠ d.flow.destination := by
          intro hd
          obtain ⟨src, dst⟩ := k
          exact hkd (by simp_all [key, UdpDatagramMeta.ofDownstream])
        simp [hno, hs, hde]
      · simp only [hs, if_false]
        rfl
  · intro hr source hs
    exact (mem_insert _).mpr (.inr (h.receiving hr source hs))
  · intro d' hd'
    exact (mem_insert _).mpr (.inr (h.writing d' hd'))

lemma onSent_consistent (h : Consistent s) (hl : s.left = .sending d)
    (r : Except IoError Unit) : Consistent (onSent (datagramTransceiver settings) s d r) := by
  have hno : ∀ k, ¬ BeingOpened s k := by
    rintro k ⟨d', hd', -⟩
    simp [hl] at hd'
  cases r with
  | error => exact ⟨h.queue, h.waker, h.keys, h.opening, h.receiving, h.writing⟩
  | ok =>
    exact ⟨h.queue, h.waker, fun k _ => h.keys k (hno k), fun d' hd' => (nomatch hd'),
      h.receiving, h.writing⟩

/-- Its reports find their flows if its only peer is the source itself. -/
lemma onSocketError_consistent (h : Consistent s) (e : IoError)
    (hse : OnlySelfPeer s.fwd source) : Consistent (rightRead (datagramTransceiver settings)
      { s with fwd := onSocketError s.fwd source e }) := by
  cases ha : s.fwd.associations.lookup source with
  | none =>
    have hsa : onSocketError s.fwd source e = s.fwd := by simp [onSocketError, ha]
    rw [hsa]
    exact h.rightRead
  | some a =>
    have hse' := hse a ha
    have hmem : source ∈ s.fwd.associations := Table.mem_of_lookup ha
    have hf : onSocketError s.fwd source e =
        { s.fwd with associations := s.fwd.associations.erase source,
                     pendingClosures := a.peers.map (fun peer => (⟨peer, source⟩, e)) } := by
      simp [onSocketError, ha, h.queue]
    have hre : ∀ k : UdpDatagramMeta, k ∈ (a.peers.map (fun peer =>
          ((⟨peer, source⟩ : UdpDatagramMeta), e))).map Prod.fst → k.source = source := by
      intro k hk
      simp only [List.map_map, List.mem_map, Function.comp_apply] at hk
      obtain ⟨peer, hpe, rfl⟩ := hk
      exact hse' peer hpe
    rw [hf]
    refine consistent_rightRead h.waker (fun k hk => ?_) (fun d hd => ?_)
    · have hke := h.keys k hk
      have he := peer_erase { s.fwd with
        pendingClosures := a.peers.map (fun peer => (⟨peer, source⟩, e)) } source k
      refine Iff.trans ?_ he.symm
      rw [hke]
      refine and_congr_left (fun hp => ⟨fun hno hs => hno ?_, fun hs hr => hs (hre k hr)⟩)
      obtain ⟨src, dst⟩ := k
      obtain rfl : src = source := hs
      have hds := (peer_of_lookup ha dst).mp hp
      have hds' := hse' dst hds
      simp only [List.map_map, List.mem_map, Function.comp_apply]
      exact ⟨dst, hds, by rw [hds']⟩
    · obtain ⟨hk, hn⟩ := h.opening d hd
      refine ⟨fun hr => hn ?_, hk, fun hs => hn (mem_erase.mp hs).2⟩
      have hs : d.flow.source = source := hre d.key hr
      rwa [hs]

/-- `onPollEvent` as a relation. -/
inductive Polled (f : DatagramTransceiver) : PollEvent → DatagramTransceiver → ReadProgress → Prop
  | woken (h : f.newSocket = .full) : Polled f .woken { f with newSocket := .empty } .again
  | shut (h : f.newSocket = .closed) : Polled f .woken f (.failed (.ofKind .unexpectedEof))
  | ready {source} (h : source ∈ f.associations) :
    Polled f (.readable source) { f with receiving := some source } .pending
  | gone {source} : Polled f (.readable source) f .again
  | received {source payload peer} (h : f.receiving = some source) :
    Polled f (.received (.ok (payload, peer))) f (.read ⟨⟨peer, source⟩, payload⟩)
  | receiveError {source e} (h : f.receiving = some source) :
    Polled f (.received (.error e)) (onSocketError f source e.toIoError) .again
  | socketError {source e} : Polled f (.socketError source e) (onSocketError f source e) .again

lemma polled_of_onPollEvent (h : onPollEvent f ev = some (f', p)) : Polled f ev f' p := by
  cases ev with
  | woken =>
    obtain ⟨-, h⟩ := Option.ite_none_left_eq_some.mp h
    split at h <;> cases h
    · exact .woken ‹_›
    · exact .shut ‹_›
  | readable =>
    obtain ⟨-, h⟩ := Option.ite_none_right_eq_some.mp h
    split at h <;> cases h
    · exact .ready ‹_›
    · exact .gone
  | received =>
    simp only [onPollEvent] at h
    split at h
    · cases h
    · split at h <;> cases h
      · exact .received ‹_›
      · exact .receiveError ‹_›
  | socketError =>
    simp only [onPollEvent] at h
    split at h <;> cases h
    exact .socketError

lemma onSource_consistent (h : Consistent s) (hri : s.right = .reading)
    (hok : Keeps settings timeout s (.source ev))
    (hs : UdpPipe.onSource (datagramTransceiver settings) s ev = some s') : Consistent s' := by
  obtain ⟨f', p, hca, hs'⟩ := onSource_eq_some hs
  subst hs'
  cases polled_of_onPollEvent hca with
  | woken =>
    simp only [onProgress]
    exact Consistent.rightRead ⟨h.queue, by simp, h.keys, h.opening, h.receiving, h.writing⟩
  | shut hc => exact absurd hc h.waker
  | ready hm =>
    simp only [onProgress]
    refine ⟨h.queue, h.waker, h.keys, h.opening, fun _ source hsr => ?_, h.writing⟩
    cases hsr
    exact hm
  | gone =>
    simp only [onProgress]
    exact h.rightRead
  | received hre =>
    simp only [onProgress]
    refine ⟨h.queue, h.waker, h.keys, h.opening, fun hr => ?_, fun d hd => ?_⟩
    · cases hr
    · cases hd
      exact h.receiving hri _ hre
  | receiveError hre =>
    simp only [onProgress]
    exact onSocketError_consistent h _ (hok _ hre)
  | socketError =>
    simp only [onProgress]
    exact onSocketError_consistent h _ hok

lemma onWritten_consistent (h : Consistent s) {d : UdpDatagram} (hr : s.right = .writing d)
    (r : Except IoError Unit) : Consistent (onWritten (datagramTransceiver settings) s d r) := by
  cases r with
  | error => exact ⟨h.queue, h.waker, h.keys, h.opening, h.receiving, h.writing⟩
  | ok =>
    simp only [onWritten]
    split
    · exact h.rightRead
    · rename_i hc
      split
      · refine Consistent.rightRead ⟨h.queue, h.waker, fun k hk => ?_, fun d' hd' => ?_,
          h.receiving, h.writing⟩
        · exact (mem_insert_of_lookup hc).trans (h.keys k hk)
        · exact ⟨(mem_insert_of_lookup hc).mpr (h.opening d' hd').1, (h.opening d' hd').2⟩
      · obtain ⟨hq, hw⟩ := onConnectionClosed_rest s.fwd d.flow
        have hq' : (onConnectionClosed s.fwd d.flow).pendingClosures = [] := hq.trans h.queue
        refine consistent_rightRead ?_ (fun k hk => ?_) (fun d' hd' => ?_)
        · exact hw ▸ h.waker
        · simp only [datagramTransceiver, hq', List.map_nil, List.not_mem_nil, not_false_eq_true,
            true_and, mem_erase, peer_onConnectionClosed]
          rw [h.keys k hk]
        · obtain ⟨hk, hn⟩ := h.opening d' hd'
          -- the reply's source has an association, the source being opened has none
          have hne : d'.key ≠ d.flow.reversed := by
            intro heq
            have hsr : d'.flow.source = d.flow.destination :=
              congrArg UdpDatagramMeta.source heq
            exact hn (hsr ▸ h.writing d hr)
          simp only [datagramTransceiver, hq', List.map_nil, List.not_mem_nil, not_false_eq_true,
            true_and, mem_erase]
          exact ⟨⟨hne, hk⟩, fun hs => hn (mem_of_mem_onConnectionClosed hs)⟩

lemma onTimerTick_consistent (h : Consistent s)
    (hok : ∀ d, s.left = .opening d → d.key ∈ expired timeout s) :
    Consistent (onTimerTick (datagramTransceiver settings) timeout
      { s with left := .reading, right := .starting }) := by
  obtain ⟨hq, hw⟩ := foldl_onConnectionClosed_rest s.fwd (expired timeout s)
  refine ⟨hq.trans h.queue, ?_, fun k _ => ?_, fun d hd => (nomatch hd),
    fun hr => (nomatch hr), fun d hd => (nomatch hd)⟩
  · intro hc
    exact h.waker (hw.symm.trans hc)
  · rw [mem_onTimerTick]
    refine Iff.trans ?_ (peer_foldl_onConnectionClosed s.fwd (expired timeout s) k).symm
    refine and_congr_right (fun hk => h.keys k ?_)
    rintro ⟨d, hd, rfl⟩
    exact hk (hok d hd)

lemma consistent_step {ev : Event HandshakeAnswer PollEvent} (h : Consistent s)
    (hok : Keeps settings timeout s ev)
    (hst : step (datagramTransceiver settings) timeout s ev = some s') : Consistent s' := by
  cases next_of_step hst with
  | @datagram d socket hl =>
    by_cases hk : d.key ∈ s.udpConnections
    · exact onDatagram_known_consistent h hl socket hk
    · exact onDatagram_new_consistent h hl socket hk (hok.resolve_left hk)
  | clientError | wait => exact ⟨h.queue, h.waker, h.keys, h.opening, h.receiving, h.writing⟩
  | opened hl =>
    obtain rfl := hok
    exact onOpened_consistent h hl
  | sent hl => exact onSent_consistent h hl _
  | started => exact h.rightRead
  | source hr hs => exact onSource_consistent h hr hok hs
  | written hr => exact onWritten_consistent h hr _
  | tick => exact onTimerTick_consistent h hok

end

/-! ## The steps that break it -/

lemma finishOpening_fails (h : answer ≠ .handshake .connected) :
    ∃ f' e, finishOpening f m answer = (f', .error e) ∧ f'.pendingClosures = f.pendingClosures ∧
      ∀ source, source ∈ f'.associations → source ∈ f.associations := by
  cases answer with
  | connectError e => exact ⟨f, e, rfl, rfl, fun _ => id⟩
  | handshake r =>
    cases r with
    | connected => exact absurd rfl h
    | failure => exact ⟨f, _, rfl, rfl, fun _ => id⟩
    | error e =>
      cases e with
      | io e => exact ⟨f, e, rfl, rfl, fun _ => id⟩
      | protocol => exact ⟨f, _, rfl, rfl, fun _ => id⟩
      | authentication => exact ⟨_, _, rfl, rfl, fun source hs => by simp at hs⟩

lemma onSocketError_not_agrees (h : Consistent s) (e : IoError)
    (ho : ¬ OnlySelfPeer s.fwd source) : ¬ Agrees (rightRead (datagramTransceiver settings)
      { s with fwd := onSocketError s.fwd source e }) := by
  simp only [OnlySelfPeer, not_forall] at ho
  obtain ⟨a, ha, peer, hpe, hne⟩ := ho
  have hm : source ∈ s.fwd.associations := Table.mem_of_lookup ha
  have hn : ¬ BeingOpened s ⟨source, peer⟩ := by
    rintro ⟨d, hd, hk⟩
    have hs : d.flow.source = source := congrArg UdpDatagramMeta.source hk
    exact (h.opening d hd).2 (hs ▸ hm)
  have hk : (⟨source, peer⟩ : UdpDatagramMeta) ∈ s.udpConnections :=
    (h.keys _ hn).mpr ((peer_of_lookup ha peer).mpr hpe)
  intro hag
  have hi := hag rfl ⟨source, peer⟩ hn
  rw [mem_rightRead] at hi
  have hp := peer_source_mem (hi.mp ⟨?_, hk⟩)
  · simp [rightRead, datagramTransceiver, beginRead, onSocketError, ha] at hp
  · simp only [datagramTransceiver, beginRead, onSocketError, ha, h.queue, List.nil_append,
      List.map_map, List.mem_map, Function.comp_apply, UdpDatagramMeta.mk.injEq]
    rintro ⟨q, -, -, hsr⟩
    exact hne hsr.symm

lemma not_agrees_of_not_keeps (h : Consistent s) (hb : ¬ Keeps settings timeout s ev)
    (hst : step (datagramTransceiver settings) timeout s ev = some s') : ¬ Agrees s' := by
  intro ha
  cases next_of_step hst with
  | @datagram d socket hl =>
    simp only [Keeps, not_or, Bool.not_eq_false] at hb
    obtain ⟨hk, hg⟩ := hb
    have ho : (datagramTransceiver settings).onNewUdpConnection s.fwd d.flow socket =
        .refused ⟨.permissionDenied, "UDP destination is in a non-routable network"⟩ s.fwd :=
      if_pos hg
    rw [onDatagram_of_refused hk ho] at ha
    have hi := ha h.queue d.key (not_beingOpened_of_left rfl d.key)
    have hp : Peer s.fwd d.key := hi.mp (by simp)
    exact hk ((h.keys d.key (not_beingOpened_of_left hl d.key)).mpr hp)
  | @opened d answer hl =>
    obtain ⟨hk, hn⟩ := h.opening d hl
    obtain ⟨f', e, hf, hq, hsu⟩ := finishOpening_fails (f := s.fwd) (m := d.flow) hb
    have hs : onOpened (datagramTransceiver settings) s d answer =
        { s with fwd := f', left := .reading } := by
      simp [onOpened, datagramTransceiver, hf]
    rw [hs] at ha
    have hi := ha (hq.trans h.queue) d.key (not_beingOpened_of_left rfl d.key)
    exact hn (hsu _ (peer_source_mem (hi.mp hk)))
  | tick =>
    simp only [Keeps, not_forall] at hb
    obtain ⟨d, hl, hk'⟩ := hb
    obtain ⟨hk, hn⟩ := h.opening d hl
    obtain ⟨hq, -⟩ := foldl_onConnectionClosed_rest s.fwd (expired timeout s)
    have hi := ha (hq.trans h.queue) d.key (not_beingOpened_of_left rfl d.key)
    rw [mem_onTimerTick] at hi
    have hp := hi.mp ⟨hk', hk⟩
    have hp' := (peer_foldl_onConnectionClosed s.fwd (expired timeout s) d.key).mp hp
    exact hn (peer_source_mem hp'.2)
  | source hright hs =>
    obtain ⟨f', p, hc, hs'⟩ := onSource_eq_some hs
    subst hs'
    cases polled_of_onPollEvent hc with
    | receiveError hr =>
      simp only [onProgress] at ha
      refine onSocketError_not_agrees h _ (fun hse => hb ?_) ha
      intro source hsr
      rw [hr] at hsr
      cases hsr
      exact hse
    | socketError =>
      simp only [onProgress] at ha
      exact onSocketError_not_agrees h _ hb ha
    | _ => exact hb trivial
  | _ => exact hb trivial

/-- **Flow-table agreement, SOCKS5 forwarder.** -/
theorem agrees_iff_keeps (settings : Settings) (timeout : Nat)
    (es : List (Event HandshakeAnswer PollEvent)) :
    EveryState (step (datagramTransceiver settings) timeout) Agrees
        (init (datagramTransceiver settings)) es ↔
      EveryStep (step (datagramTransceiver settings) timeout) (Keeps settings timeout)
        (init (datagramTransceiver settings)) es := by
  have hi : Consistent (init (datagramTransceiver settings)) :=
    ⟨rfl, by simp [init, datagramTransceiver, makeUdpDatagramMultiplexer],
      fun k _ => by simp [init, datagramTransceiver, makeUdpDatagramMultiplexer, Peer],
      fun d hd => (nomatch hd), fun hr => (nomatch hr), fun d hd => (nomatch hd)⟩
  exact everyState_iff_everyStep (fun s e s' => consistent_step) (fun s => Consistent.agrees)
    (fun s e s' => not_agrees_of_not_keeps) es hi

def failedAssociation : List (Event HandshakeAnswer PollEvent) :=
  [.datagram (oneByteTo globalHost) (.ok ()), .opened (.handshake .connected), .sent (.ok ()),
    .started, .source (.socketError (oneByteTo globalHost).flow.source (.ofKind .connectionRefused))]

lemma failedAssociation_tables : (run (step (datagramTransceiver (.guarded true)) 120)
      (init (datagramTransceiver (.guarded true))) failedAssociation).map
        (fun s => (s.udpConnections.keys, s.fwd.associations.keys, s.fwd.pendingClosures, s.left)) =
      some ([(oneByteTo globalHost).key], [], [], .reading) := by
  decide +kernel

/-- The flow outlives its association and every report. -/
theorem failedAssociation_not_agrees :
    ¬ ∀ s, Reachable (step (datagramTransceiver (.guarded true)) 120)
        (init (datagramTransceiver (.guarded true))) s → Agrees s := by
  intro h
  obtain ⟨s, hr, ht⟩ := Option.map_eq_some_iff.mp failedAssociation_tables
  simp only [Prod.mk.injEq] at ht
  obtain ⟨hk, ha, hq, hl⟩ := ht
  have hi := h s ⟨_, hr⟩ hq (oneByteTo globalHost).key
    (not_beingOpened_of_left hl _)
  have hm : (oneByteTo globalHost).key ∈ s.udpConnections := by
    rw [mem_keys, hk]
    simp
  have hs := peer_source_mem (hi.mp hm)
  rw [mem_keys, ha] at hs
  simp at hs

end

end TrustTunnel.Socks5Forwarder
