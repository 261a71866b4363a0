import TrustTunnel.Socks5Forwarder
import TrustTunnel.UdpForwarder

/-!
# Where UDP payloads go

Forwarders refuse to open a flow to a private address, but the pipe has entered it in its table
before.
-/

namespace TrustTunnel.UdpPipe

open Io NetUtils Forwarder Lib

def HandedGlobal {φ : Type} (s : State φ) : Prop := ∀ x ∈ s.handed, isGlobalIp x.1.ip = true

end TrustTunnel.UdpPipe

namespace TrustTunnel.UdpForwarder

open Io NetUtils Forwarder Lib UdpPipe

/-! ## The direct forwarder -/

section

variable {f : Multiplexer} {settings : Settings} {timeout : Nat} {s : State Multiplexer}

def PeersGlobal (f : Multiplexer) : Prop :=
  ∀ m c, f.connections.lookup m = some c → isGlobalIp c.socket.peer.ip = true

lemma PeersGlobal.erase (hf : PeersGlobal f) (m : UdpDatagramMeta) :
    PeersGlobal { f with connections := f.connections.erase m } := by
  intro k c hk
  refine hf k c ?_
  by_cases hkm : k = m
  · subst hkm
    simp at hk
  · rwa [AList.lookup_erase_ne hkm] at hk

lemma PeersGlobal.insert (hf : PeersGlobal f) (m : UdpDatagramMeta)
    (hc : isGlobalIp c.socket.peer.ip) :
    PeersGlobal { f with connections := f.connections.insert m c } := by
  intro k c' hk
  by_cases hkm : k = m
  · subst hkm
    simp only [AList.lookup_insert, Option.some.injEq] at hk
    exact hk ▸ hc
  · refine hf k c' ?_
    rwa [AList.lookup_insert_ne hkm] at hk

lemma onSocketError_peersGlobal (hf : PeersGlobal f) (m : UdpDatagramMeta) (e : IoError) :
    PeersGlobal (onSocketError f m e) := by
  unfold onSocketError
  split
  · exact hf.erase m
  · exact hf

lemma multiplexer_preserves_peersGlobal (hs : settings.allowPrivateNetworkConnections = false) :
    (multiplexer settings).Preserves PeersGlobal where
  empty := by
    intro m c h
    simp [multiplexer, makeMultiplexer] at h
  opening f m r hf := by
    rcases onNewUdpConnection_cases settings f m r with ⟨e, h⟩ | ⟨hg, h⟩
    · simp only [multiplexer, h]
      exact hf
    · simp only [multiplexer, h]
      refine hf.insert _ ?_
      simpa [Settings.refuses, hs] using hg
  finish f m a hf := nomatch a
  closed f m hf := hf.erase m.reversed
  sent f m hf := by
    rcases afterSend_cases f m with ⟨h, -⟩ | ⟨-, e, h⟩ | ⟨c, hc, h⟩
    · simp only [multiplexer, h]
      exact hf
    · simp only [multiplexer, h]
      exact hf
    · simp only [multiplexer, h]
      exact hf.insert (c := { c with beingListened := true }) m (hf m c hc)
  begin f hf := hf
  source f ev f' p h hf := by
    rcases onPollEvent_cases h with ⟨rfl, -⟩ | ⟨rfl, -⟩ | ⟨m, e, rfl, -⟩
    · exact hf
    · exact hf
    · exact onSocketError_peersGlobal hf m e

lemma write_global (hf : PeersGlobal f) (h : write f m = .ok a) : isGlobalIp a.ip := by
  unfold write at h
  split at h
  · cases h
  · rename_i c hc
    cases h
    exact hf m c hc

structure Guarded (s : State Multiplexer) : Prop where
  peers : PeersGlobal s.fwd
  handed : HandedGlobal s

lemma guarded_step (hs : settings.allowPrivateNetworkConnections = false) (hi : Guarded s)
    (h : step (multiplexer settings) timeout s ev = some s') : Guarded s' := by
  have hp := step_preserves (multiplexer_preserves_peersGlobal hs) h hi.peers
  refine ⟨hp, fun x hx => ?_⟩
  rcases step_handed h hx with hold | ⟨d, hw, -⟩
  · exact hi.handed x hold
  · exact write_global hp hw

/-- **Behind the direct forwarder nothing leaks**, over every run. -/
lemma direct_handedGlobal (hs : settings.allowPrivateNetworkConnections = false)
    (h : Reachable (step (multiplexer settings) timeout) (init (multiplexer settings)) s) :
    HandedGlobal s := by
  have hi : Guarded (init (multiplexer settings)) :=
    ⟨(multiplexer_preserves_peersGlobal hs).empty, by simp [HandedGlobal, init]⟩
  exact (reachable_invariant hi (fun s e s' => guarded_step hs) h).handed

end

end TrustTunnel.UdpForwarder

namespace TrustTunnel.Socks5Forwarder

open Io NetUtils Forwarder Lib UdpPipe

/-! ## The SOCKS5 forwarder -/

/-- It sends to a private address on a flow of the table, with an association for its source. -/
def SkipsGuard (s : State DatagramTransceiver) : Event HandshakeAnswer PollEvent → Prop
  | .datagram d _ =>
    isGlobalIp d.flow.destination.ip = false ∧ d.key ∈ s.udpConnections ∧
      d.flow.source ∈ s.fwd.associations
  | _ => False

/-- A flow that is being opened has passed the guard. -/
structure Guarded (s : State DatagramTransceiver) : Prop where
  handed : HandedGlobal s
  opening : ∀ d, s.left = .opening d → isGlobalIp d.flow.destination.ip = true

lemma write_ok (h : write f m = .ok a) : m.source ∈ f.associations ∧ a = m.destination := by
  unfold write at h
  split at h
  · cases h
    exact ⟨‹_›, rfl⟩
  · cases h

section

variable {settings : Settings} {timeout : Nat} {s s' : State DatagramTransceiver}
  {ev : Event HandshakeAnswer PollEvent}

lemma global_of_not_refused (hs : settings.allowPrivateNetworkConnections = false)
    (h : ∀ e g, onNewUdpConnection settings f m r ≠ .refused e g) :
    isGlobalIp m.destination.ip := by
  by_contra hno
  refine h _ _ (if_pos ?_)
  simpa [Settings.refuses, hs] using hno

lemma fwd_of_known (hk : d.key ∈ s.udpConnections)
    (h : step (datagramTransceiver settings) timeout s (.datagram d socket) = some s') :
    s'.fwd = s.fwd := by
  obtain ⟨c, hc⟩ := Table.exists_lookup hk
  cases next_of_step h
  simp [onDatagram, hc]

lemma guarded_step (hs : settings.allowPrivateNetworkConnections = false) (hi : Guarded s)
    (hok : ¬ SkipsGuard s ev)
    (h : step (datagramTransceiver settings) timeout s ev = some s') : Guarded s' := by
  constructor
  · intro x hx
    rcases step_handed h hx with hold | ⟨d, hw, hc⟩
    · exact hi.handed x hold
    · obtain ⟨ha, hde⟩ := write_ok hw
      rw [hde]
      rcases hc with hl | ⟨socket, rfl, hk | ⟨fwd, ho⟩⟩
      · exact hi.opening d hl
      · rw [show s'.fwd = s.fwd from fwd_of_known hk h] at ha
        by_contra hno
        exact hok ⟨by simpa using hno, hk, ha⟩
      · refine global_of_not_refused hs (f := s.fwd) (r := socket) (fun e g hr => ?_)
        exact absurd (ho.symm.trans hr) (by simp)
  · intro d hd
    rcases step_opening h hd with hl | ⟨socket, -, -, ho⟩
    · exact hi.opening d hl
    · refine global_of_not_refused hs (f := s.fwd) (r := socket) (fun e g hr => ?_)
      exact absurd (ho.symm.trans hr) (by simp)

lemma skipsGuard_leaks (hs : SkipsGuard s ev)
    (h : step (datagramTransceiver settings) timeout s ev = some s') : ¬ HandedGlobal s' := by
  cases next_of_step h with
  | @datagram d socket _ =>
    obtain ⟨hno, hk, ha⟩ := hs
    obtain ⟨c, hc⟩ := Table.exists_lookup hk
    intro hg
    have hx : (d.flow.destination, d.payload) ∈
        (onDatagram (datagramTransceiver settings) s d socket).handed := by
      have hw : write s.fwd d.key = .ok d.flow.destination := if_pos ha
      simp [onDatagram, hc, leftWrite, datagramTransceiver, hw]
    have := hg _ hx
    simp_all
  | _ => exact hs.elim

/-- **The only way out** to private addresses is a step that skips the guard. -/
lemma socks5_handedGlobal_iff (hs : settings.allowPrivateNetworkConnections = false)
    (es : List (Event HandshakeAnswer PollEvent)) :
    EveryState (step (datagramTransceiver settings) timeout) HandedGlobal
        (init (datagramTransceiver settings)) es ↔
      EveryStep (step (datagramTransceiver settings) timeout) (fun s ev => ¬ SkipsGuard s ev)
        (init (datagramTransceiver settings)) es := by
  have hin : Guarded (init (datagramTransceiver settings)) :=
    ⟨by simp [HandedGlobal, init], by simp [init]⟩
  exact everyState_iff_everyStep (fun s e s' hi hok => guarded_step hs hi hok)
    (fun s hi => hi.handed)
    (fun s e s' _ hb hst => skipsGuard_leaks (not_not.mp hb) hst) es hin

end

end TrustTunnel.Socks5Forwarder

namespace TrustTunnel.UdpPipe

open Io NetUtils Forwarder Lib

/-! ## Both forwarders -/

/-- **UDP egress.** The direct forwarder leaks nothing, the SOCKS5 forwarder exactly when a step
skips the guard. -/
theorem handedGlobal_iff (ipv6Available : Bool) (timeout : Nat) :
    (∀ s, Reachable (step (UdpForwarder.multiplexer (.guarded ipv6Available)) timeout)
        (init (UdpForwarder.multiplexer (.guarded ipv6Available))) s → HandedGlobal s) ∧
      ∀ es, EveryState (step (Socks5Forwarder.datagramTransceiver (.guarded ipv6Available)) timeout)
          HandedGlobal (init (Socks5Forwarder.datagramTransceiver (.guarded ipv6Available))) es ↔
        EveryStep (step (Socks5Forwarder.datagramTransceiver (.guarded ipv6Available)) timeout)
          (fun s ev => ¬ Socks5Forwarder.SkipsGuard s ev)
          (init (Socks5Forwarder.datagramTransceiver (.guarded ipv6Available))) es :=
  ⟨fun _ h => UdpForwarder.direct_handedGlobal rfl h,
    fun es => Socks5Forwarder.socks5_handedGlobal_iff rfl es⟩

def oneByteTo (destination : SocketAddr) : Downstream.UdpDatagram :=
  ⟨⟨.v4 ⟨10, 0, 0, 2⟩ 4000, destination, none⟩, [1]⟩

def globalHost : SocketAddr := .v4 ⟨8, 8, 8, 8⟩ 443

def privateHost : SocketAddr := .v4 ⟨192, 168, 1, 1⟩ 443

/-- A refused datagram to a private host is repeated. -/
def repeatedRefusedFlow : List (Event Socks5Forwarder.HandshakeAnswer Socks5Forwarder.PollEvent) :=
  [.datagram (oneByteTo globalHost) (.ok ()), .opened (.handshake .connected), .sent (.ok ()),
    .datagram (oneByteTo privateHost) (.ok ()), .datagram (oneByteTo privateHost) (.ok ())]

lemma repeatedRefusedFlow_handed :
    (run (step (Socks5Forwarder.datagramTransceiver (.guarded true)) 120)
      (init (Socks5Forwarder.datagramTransceiver (.guarded true))) repeatedRefusedFlow).map
        State.handed = some [(globalHost, [1]), (privateHost, [1])] := by
  decide +kernel

theorem repeatedRefusedFlow_leaks :
    ¬ ∀ s, Reachable (step (Socks5Forwarder.datagramTransceiver (.guarded true)) 120)
        (init (Socks5Forwarder.datagramTransceiver (.guarded true))) s → HandedGlobal s := by
  intro h
  obtain ⟨s, hr, hh⟩ := Option.map_eq_some_iff.mp repeatedRefusedFlow_handed
  have hg := h s ⟨repeatedRefusedFlow, hr⟩ (privateHost, [1]) (by simp [hh])
  exact absurd hg (by decide)

end TrustTunnel.UdpPipe
