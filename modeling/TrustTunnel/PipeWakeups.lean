import TrustTunnel.UdpWakeup

/-!
# The wake-ups in the UDP pipe

Every run of the pipe is an interleaving of `UdpWakeup.lean`.
-/

namespace TrustTunnel.UdpWakeup

open Io Forwarder Lib UdpForwarder Option

variable {settings : Settings} {timeout : Nat}

def sending : UdpPipe.LeftPoint → Option UdpDatagramMeta
  | .sending d => some d.key
  | _ => none

structure Follows (p : UdpPipe.State Multiplexer) (s : State) : Prop where
  shared : s.shared = p.fwd
  sink : s.sink.map Prod.fst = sending p.left
  source : s.awaited.isSome = true ↔ p.right = .reading

/-- Some events lead from `s` to a state that follows `p'`. -/
def Leads (settings : Settings) (s : State) (p' : UdpPipe.State Multiplexer) : Prop :=
  ∃ es s', run (step settings) s es = some s' ∧ Follows p' s'

lemma Leads.trans
    (hr : run (step settings) s es = some s') (h : Leads settings s' p) : Leads settings s p := by
  obtain ⟨es', s'', hr', hs''⟩ := h
  exact ⟨es ++ es', s'', run_append hr hr', hs''⟩

lemma Follows.leads (h : Follows p s) : Leads settings s p :=
  ⟨[], s, rfl, h⟩

/-! ## The calls of the left loop -/

section Left

variable {p : UdpPipe.State Multiplexer} {s : State}

lemma leads_leftWrite (hs : Follows p s) (hl : sending p.left = none) (d : Downstream.UdpDatagram)
    (hr : (UdpPipe.leftWrite (multiplexer settings) p d).returned = none) :
    Leads settings s (UdpPipe.leftWrite (multiplexer settings) p d) := by
  have hsi : s.sink = none := map_eq_none_iff.mp (hs.sink.trans hl)
  cases hw : UdpForwarder.write p.fwd d.key with
  | error => simp [UdpPipe.leftWrite, multiplexer, hw] at hr
  | ok =>
    refine ⟨[.write d.key], { s with sink := some (d.key, s.born d.key) }, ?_, ?_⟩
    · simp [run, step, hsi, hs.shared, hw]
    · simp only [UdpPipe.leftWrite, multiplexer, hw]
      exact ⟨hs.shared, rfl, hs.source⟩

lemma leads_flowOpened (hs : Follows p s) (hl : sending p.left = none)
    (d : Downstream.UdpDatagram)
    (hr : (UdpPipe.flowOpened (multiplexer settings) p d).returned = none) :
    Leads settings s (UdpPipe.flowOpened (multiplexer settings) p d) := by
  unfold UdpPipe.flowOpened at hr ⊢
  split at hr
  · exact leads_leftWrite hs hl d hr
  · rename_i c _
    have hre : Follows (UdpPipe.registerOutgoing p d c) s :=
      ⟨hs.shared, hs.sink, hs.source⟩
    exact leads_leftWrite hre hl d hr

lemma leads_onDatagram (hs : Follows p s) (hl : p.left = .reading)
    (d : Downstream.UdpDatagram) (socket : Except IoError Unit)
    (hr : (UdpPipe.onDatagram (multiplexer settings) p d socket).returned = none) :
    Leads settings s (UdpPipe.onDatagram (multiplexer settings) p d socket) := by
  have hi : sending p.left = none := by rw [hl]; rfl
  by_cases hk : d.key ∈ p.udpConnections
  · rw [UdpPipe.onDatagram_of_mem socket hk] at hr ⊢
    exact leads_flowOpened hs hi d hr
  · rcases onNewUdpConnection_cases settings p.fwd d.flow socket with ⟨e, ho⟩ | ⟨-, ho⟩
    · rw [UdpPipe.onDatagram_of_refused (F := multiplexer settings) hk ho]
      have hd : Follows { UdpPipe.entered p d with fwd := p.fwd, left := .reading } s :=
        ⟨hs.shared, hs.sink.trans hi, hs.source⟩
      exact hd.leads
    · rw [UdpPipe.onDatagram_of_opened (F := multiplexer settings) hk ho] at hr ⊢
      have hc : run (step settings) s [.create d.flow socket] =
          some (onCreate settings s d.flow socket) := rfl
      refine Leads.trans hc (leads_flowOpened ?_ ?_ d hr)
      · simp only [onCreate, hs.shared, ho]
        exact ⟨rfl, hs.sink, hs.source⟩
      · exact hi

lemma leads_onSent (hs : Follows p s) (hl : p.left = .sending d) (r : Except IoError Unit)
    (hr : (UdpPipe.onSent (multiplexer settings) p d r).returned = none) :
    Leads settings s (UdpPipe.onSent (multiplexer settings) p d r) := by
  cases r with
  | error => cases hr
  | ok u =>
    have hsi := hs.sink
    rw [hl] at hsi
    obtain ⟨⟨k, n⟩, hso, hk⟩ := map_eq_some_iff.mp hsi
    simp only at hk
    subst hk
    cases ha : afterSend p.fwd d.key with
    | mk fwd result =>
      cases result with
      | error => simp [UdpPipe.onSent, multiplexer, ha] at hr
      | ok =>
        refine ⟨[.sent (.ok u)], onSent s d.key n, by simp [run, step, hso], ?_⟩
        simp only [UdpPipe.onSent, multiplexer, onSent, hs.shared, ha]
        exact ⟨rfl, rfl, hs.source⟩

end Left

/-! ## The calls of the right loop -/

section Right

variable {p : UdpPipe.State Multiplexer} {s : State}

lemma leads_rightRead (hs : s.shared = p.fwd) (hsi : s.sink.map Prod.fst = sending p.left)
    (hi : s.awaited = none) : Leads settings s (UdpPipe.rightRead (multiplexer settings) p) := by
  refine ⟨[.read], { s with shared := (beginRead s.shared).2, awaited := some (snapshot s) },
    by simp [run, step, hi], ?_, hsi, ?_⟩
  · simp [UdpPipe.rightRead, multiplexer, hs]
  · simp [UdpPipe.rightRead]

lemma leads_onSource (hs : Follows p s) (hri : p.right = .reading)
    (h : UdpPipe.onSource (multiplexer settings) p ev = some p') (hr : p'.returned = none) :
    Leads settings s p' := by
  obtain ⟨fwd, progress, hev, rfl⟩ := UdpPipe.onSource_eq_some h
  have hev : onPollEvent s.shared ev = some (fwd, progress) := by
    rw [hs.shared]
    exact hev
  have hpoll : run (step settings) s [.poll ev] =
      some { s with shared := fwd, awaited := none } := by
    simp [run, step, hs.source.mpr hri, hev]
  refine Leads.trans hpoll ?_
  cases progress with
  | failed => cases hr
  | read d =>
    have hre : Follows { p with fwd := fwd, right := .writing d }
        { s with shared := fwd, awaited := none } := ⟨rfl, hs.sink, by simp⟩
    exact hre.leads
  | again => exact leads_rightRead rfl hs.sink rfl
  | pending =>
    -- the source goes on whenever it is woken up
    rcases onPollEvent_cases hev with ⟨-, h⟩ | ⟨-, h⟩ | ⟨_, _, -, h⟩
    · cases h
    · exact absurd rfl h
    · cases h

lemma leads_onWritten (hs : Follows p s) (hri : p.right = .writing d) (r : Except IoError Unit)
    (hr : (UdpPipe.onWritten (multiplexer settings) p d r).returned = none) :
    Leads settings s (UdpPipe.onWritten (multiplexer settings) p d r) := by
  have hi : s.awaited = none := by
    rw [← not_isSome_iff_eq_none, hs.source, hri]
    exact fun h => by cases h
  cases r with
  | error => cases hr
  | ok =>
    simp only [UdpPipe.onWritten]
    split
    · exact leads_rightRead hs.shared hs.sink hi
    · split
      · exact leads_rightRead hs.shared hs.sink hi
      · have hc : run (step settings) s [.close d.flow] =
            some { s with shared := onConnectionClosed s.shared d.flow } := rfl
        refine Leads.trans hc (leads_rightRead ?_ hs.sink hi)
        simp [hs.shared, multiplexer]

end Right

/-! ## Ticks -/

lemma run_closes (ms : List UdpDatagramMeta) (s : State) :
    run (step settings) s (ms.map (fun m => .close m.reversed)) =
      some { s with shared := ms.foldl (fun f m => onConnectionClosed f m.reversed) s.shared } := by
  induction ms generalizing s with
  | nil => rfl
  | cons m ms ih => exact ih { s with shared := onConnectionClosed s.shared m.reversed }

lemma run_drops (settings : Settings) (s : State) :
    ∃ es, run (step settings) s es = some { s with sink := none, awaited := none } := by
  obtain ⟨es, hes⟩ : ∃ es, run (step settings) s es = some { s with sink := none } := by
    cases hs : s.sink with
    | none => exact ⟨[], by rw [run, ← hs]⟩
    | some => exact ⟨[.dropWrite], by simp [run, step, hs]⟩
  obtain ⟨es', hes'⟩ : ∃ es', run (step settings) { s with sink := none } es' =
      some { s with sink := none, awaited := none } := by
    cases s.awaited with
    | none => exact ⟨[], by simp [run]⟩
    | some => exact ⟨[.dropRead], by simp [run, step]⟩
  exact ⟨es ++ es', run_append hes hes'⟩

lemma leads_tick (hs : Follows p s) :
    Leads settings s (UdpPipe.onTimerTick (multiplexer settings) timeout
      { p with left := .reading, right := .starting }) := by
  obtain ⟨es, hes⟩ := run_drops settings s
  refine Leads.trans hes ⟨_, _, run_closes (UdpPipe.expired timeout p) _, ?_, rfl, by
    simp [UdpPipe.onTimerTick]⟩
  simp only [hs.shared]
  rfl

/-! ## Runs -/

section

variable {p p' : UdpPipe.State Multiplexer} {ev : UdpPipe.Event Empty PollEvent}

lemma follows_step (hs : Follows p s)
    (h : UdpPipe.step (multiplexer settings) timeout p ev = some p')
    (hr : p'.returned = none) : Leads settings s p' := by
  cases UdpPipe.next_of_step h with
  | datagram hl => exact leads_onDatagram hs hl _ _ hr
  | clientError => cases hr
  | @opened d answer _ => exact answer.elim
  | sent hl => exact leads_onSent hs hl _ hr
  | started hri =>
    refine leads_rightRead hs.shared hs.sink ?_
    rw [← not_isSome_iff_eq_none, hs.source, hri]
    exact fun h => by cases h
  | source hri hsr => exact leads_onSource hs hri hsr hr
  | written hri => exact leads_onWritten hs hri _ hr
  | tick => exact leads_tick hs
  | @wait d =>
    have hla : Follows { p with now := p.now + d } s := ⟨hs.shared, hs.sink, hs.source⟩
    exact hla.leads

/-- Until the exchange ends, the events reach a state that follows `p`. -/
def Reached (settings : Settings) (p : UdpPipe.State Multiplexer) : Prop :=
  p.returned = none → ∃ s, Reachable (step settings) init s ∧ Follows p s

lemma reached_step (hp : Reached settings p)
    (h : UdpPipe.step (multiplexer settings) timeout p ev = some p') : Reached settings p' := by
  intro hr
  obtain ⟨s, hre, hs⟩ := hp (UdpPipe.returned_of_step h)
  obtain ⟨es, s', hru, hs'⟩ := follows_step hs h hr
  exact ⟨s', hre.run hru, hs'⟩

lemma reachable_follows (h : Reachable (UdpPipe.step (multiplexer settings) timeout)
      (UdpPipe.init (multiplexer settings)) p) : Reached settings p := by
  have hi : Reached settings (UdpPipe.init (multiplexer settings)) :=
    fun _ => ⟨init, ⟨[], rfl⟩, rfl, rfl, by simp [init, UdpPipe.init]⟩
  exact reachable_invariant hi (fun _ _ _ hp hs => reached_step hp hs) h

/-- Every listened-to socket is waited for, or a wake-up is queued. -/
def Attends (settings : Settings) (p : UdpPipe.State Multiplexer) : Prop :=
  ∃ s, Reachable (step settings) init s ∧ Follows p s ∧
    ∀ m c, p.fwd.connections.lookup m = some c → c.beingListened →
      Awaits m (s.born m) s ∨ p.fwd.wake = .full

end

end TrustTunnel.UdpWakeup
