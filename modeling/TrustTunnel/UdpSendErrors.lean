import TrustTunnel.Socks5Forwarder
import TrustTunnel.UdpForwarder

/-!
# Errors of sending (`udp_pipe.rs`, with both forwarders)

An error of one flow's socket is the sink's, and ends the exchange for all flows.
-/

namespace TrustTunnel.UdpPipe

open Io NetUtils Forwarder Lib

section Generic

variable {φ ω η : Type} {F : UdpForwarder φ ω η} {timeout : Nat} {s s' : State φ}

def Unharmed (s : State φ) : Prop := ∀ e, s.returned ≠ some (.sinkSend e)

def SendsWell (_ : State φ) : Event ω η → Prop
  | .sent (.error _) => False
  | _ => True

lemma leftWrite_unharmed (hs : Unharmed s) (d : Downstream.UdpDatagram) :
    Unharmed (leftWrite F s d) := by
  unfold leftWrite
  split
  · intro e h
    cases h
  · exact hs

lemma flowOpened_unharmed (hs : Unharmed s) (d : Downstream.UdpDatagram) :
    Unharmed (flowOpened F s d) := by
  unfold flowOpened
  split
  · exact leftWrite_unharmed hs d
  · refine leftWrite_unharmed ?_ d
    exact hs

lemma onDatagram_unharmed (hs : Unharmed s) (d : Downstream.UdpDatagram)
    (socket : Except IoError Unit) : Unharmed (onDatagram F s d socket) := by
  unfold onDatagram
  split
  · refine leftWrite_unharmed ?_ d
    exact hs
  · split
    · exact hs
    · refine flowOpened_unharmed ?_ d
      exact hs
    · exact hs

lemma onOpened_unharmed (hs : Unharmed s) (d : Downstream.UdpDatagram) (answer : ω) :
    Unharmed (onOpened F s d answer) := by
  unfold onOpened
  split
  · exact hs
  · refine flowOpened_unharmed ?_ d
    exact hs

lemma onWritten_unharmed (hs : Unharmed s) (d : UdpDatagram) (r : Except IoError Unit) :
    Unharmed (onWritten F s d r) := by
  cases r with
  | error =>
    intro e' h
    cases h
  | ok =>
    simp only [onWritten]
    split
    · exact hs
    · split <;> exact hs

lemma onSource_unharmed (hs : Unharmed s) (h : onSource F s ev = some s') : Unharmed s' := by
  obtain ⟨fwd, p, -, rfl⟩ := onSource_eq_some h
  cases p with
  | failed =>
    intro e' h
    cases h
  | read | again | pending => exact hs

lemma step_sinkSend (h : step F timeout s ev = some s') :
    Unharmed s' ∨ (∃ e, ev = .sent (.error e)) ∨
      ∃ d e, s.left = .sending d ∧ (F.afterSend s.fwd d.key).2 = .error e := by
  have hs : Unharmed s := by
    rw [Unharmed, returned_of_step h]
    exact fun e heq => by cases heq
  cases next_of_step h with
  | datagram => exact .inl (onDatagram_unharmed hs _ _)
  | clientError => exact .inl (fun e h => by cases h)
  | opened => exact .inl (onOpened_unharmed hs _ _)
  | @sent d r hl =>
    cases r with
    | error e => exact .inr (.inl ⟨e, rfl⟩)
    | ok =>
      simp only [onSent]
      split
      · rename_i e ha
        exact .inr (.inr ⟨d, e, hl, by rw [ha]⟩)
      · exact .inl hs
  | started | tick | wait => exact .inl hs
  | source _ hsr => exact .inl (onSource_unharmed hs hsr)
  | written => exact .inl (onWritten_unharmed hs _ _)

lemma not_unharmed_of_error (h : step F timeout s (.sent (.error e)) = some s') :
    ¬ Unharmed s' := by
  cases next_of_step h with
  | sent => exact fun hs => hs e rfl

lemma unharmed_iff_sendsWell (hF : F.Preserves I)
    (hw : ∀ f m, I f → (F.afterSend f m).2 = .ok ()) (es : List (Event ω η)) :
    EveryState (step F timeout) Unharmed (init F) es ↔
      EveryStep (step F timeout) SendsWell (init F) es := by
  have hst : ∀ s ev s', (I s.fwd ∧ Unharmed s) → SendsWell s ev → step F timeout s ev = some s' →
      I s'.fwd ∧ Unharmed s' := by
    intro s ev s' hs hok h
    refine ⟨step_preserves hF h hs.1, ?_⟩
    rcases step_sinkSend h with hs' | ⟨e, rfl⟩ | ⟨d, e, -, he⟩
    · exact hs'
    · exact hok.elim
    · rw [hw s.fwd d.key hs.1] at he
      cases he
  have hb : ∀ s ev s', (I s.fwd ∧ Unharmed s) → ¬ SendsWell s ev →
      step F timeout s ev = some s' → ¬ Unharmed s' := by
    intro s ev s' hs hb h
    cases ev with
    | sent r =>
      cases r with
      | error => exact not_unharmed_of_error h
      | ok => exact absurd trivial hb
    | _ => exact absurd trivial hb
  exact everyState_iff_everyStep hst (fun s hs => hs.2) hb es ⟨hF.empty, fun e h => by cases h⟩

end Generic

end TrustTunnel.UdpPipe

namespace TrustTunnel.UdpForwarder

open Io Forwarder UdpPipe

/-- The source holds the wake channel as long as the pipe is there. -/
lemma wake_preserved (settings : Settings) :
    (multiplexer settings).Preserves (fun f => f.wake ≠ .closed) where
  empty := by simp [multiplexer, makeMultiplexer]
  opening f m r hf := by
    rcases onNewUdpConnection_cases settings f m r with ⟨e, h⟩ | ⟨-, h⟩ <;>
      simp only [multiplexer, h] <;> exact hf
  finish f m a _ := a.elim
  closed f m hf := hf
  sent f m hf := by
    rcases afterSend_cases f m with ⟨h, -⟩ | ⟨-, e, h⟩ | ⟨c, -, h⟩
    · simp only [multiplexer, h]
      exact hf
    · simp only [multiplexer, h]
      exact hf
    · simp [multiplexer, h]
  begin f hf := hf
  source f ev f' p h hf := by
    rcases onPollEvent_cases h with ⟨rfl, -⟩ | ⟨rfl, -⟩ | ⟨m, e, rfl, -⟩
    · simp
    · exact hf
    · unfold onSocketError
      split <;> exact hf

lemma afterSend_ok (hf : f.wake ≠ .closed) (m : UdpDatagramMeta) :
    (afterSend f m).2 = .ok () := by
  rcases afterSend_cases f m with ⟨h, -⟩ | ⟨hc, -⟩ | ⟨c, -, h⟩
  · rw [h]
  · exact absurd hc hf
  · rw [h]

end TrustTunnel.UdpForwarder

namespace TrustTunnel.UdpPipe

open Io NetUtils Forwarder Lib

/-! ## Both forwarders -/

/-- **Errors of sending** end the exchange exactly when a send fails. -/
theorem sendErrors_local_iff (settings : Settings) (timeout : Nat) :
    (∀ es, EveryState (step (UdpForwarder.multiplexer settings) timeout) Unharmed
        (init (UdpForwarder.multiplexer settings)) es ↔
      EveryStep (step (UdpForwarder.multiplexer settings) timeout) SendsWell
        (init (UdpForwarder.multiplexer settings)) es) ∧
    ∀ es, EveryState (step (Socks5Forwarder.datagramTransceiver settings) timeout) Unharmed
        (init (Socks5Forwarder.datagramTransceiver settings)) es ↔
      EveryStep (step (Socks5Forwarder.datagramTransceiver settings) timeout) SendsWell
        (init (Socks5Forwarder.datagramTransceiver settings)) es := by
  constructor
  · exact unharmed_iff_sendsWell (UdpForwarder.wake_preserved settings)
      (fun f m hf => UdpForwarder.afterSend_ok hf m)
  · have hF : (Socks5Forwarder.datagramTransceiver settings).Preserves (fun _ => True) :=
      ⟨trivial, fun f m r _ => ?_, fun _ _ _ _ => trivial, fun _ _ _ => trivial,
        fun _ _ _ => trivial, fun _ _ => trivial, fun _ _ _ _ _ _ => trivial⟩
    · exact unharmed_iff_sendsWell hF (fun f m _ => rfl)
    · cases (Socks5Forwarder.datagramTransceiver settings).onNewUdpConnection f m r <;> trivial

def refusedHost : SocketAddr := .v4 ⟨1, 1, 1, 1⟩ 443

def otherHost : SocketAddr := .v4 ⟨9, 9, 9, 9⟩ 443

def datagramTo (destination : SocketAddr) : Downstream.UdpDatagram :=
  ⟨⟨.v4 ⟨10, 0, 0, 2⟩ 4000, destination, none⟩, [1]⟩

def connectionRefused : IoError := .ofKind .connectionRefused

/-- The second flow is refused. -/
def refusedSend {ω η : Type} (opening : List (Event ω η)) : List (Event ω η) :=
  .datagram (datagramTo otherHost) (.ok ()) :: opening ++ [.sent (.ok ()),
    .datagram (datagramTo refusedHost) (.ok ()), .sent (.error connectionRefused)]

lemma not_everyState_unharmed {φ ω η : Type} {F : UdpForwarder φ ω η} {timeout : Nat}
    {ev : Event ω η} {es : List (Event ω η)} {e : IoError}
    (h : (run (step F timeout) (init F) (ev :: es)).map State.returned =
      some (some (.sinkSend e))) : ¬ EveryState (step F timeout) Unharmed (init F) (ev :: es) := by
  intro he
  obtain ⟨s, hr, hre⟩ := Option.map_eq_some_iff.mp h
  exact he.last hr e hre

/-- The first flow is not served any more. -/
theorem refusedSend_ends :
    ¬ EveryState (step (UdpForwarder.multiplexer (.guarded true)) 120) Unharmed
        (init (UdpForwarder.multiplexer (.guarded true))) (refusedSend []) ∧
    (run (step (UdpForwarder.multiplexer (.guarded true)) 120)
        (init (UdpForwarder.multiplexer (.guarded true)))
        (refusedSend [] ++ [.datagram (datagramTo otherHost) (.ok ())])).isNone = true ∧
    ¬ EveryState (step (Socks5Forwarder.datagramTransceiver (.guarded true)) 120) Unharmed
        (init (Socks5Forwarder.datagramTransceiver (.guarded true)))
        (refusedSend [.opened (.handshake .connected)]) := by
  refine ⟨not_everyState_unharmed (e := connectionRefused) (by decide +kernel), by decide +kernel,
    not_everyState_unharmed (e := connectionRefused) (by decide +kernel)⟩

end TrustTunnel.UdpPipe
