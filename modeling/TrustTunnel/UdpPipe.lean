import TrustTunnel.Forwarder
import TrustTunnel.Lib.Runs
import TrustTunnel.Lib.Table

/-!
# The UDP pipe (`udp_pipe.rs`)

`DuplexPipe::exchange` runs two loops as one task. A state is a pair of points of the loops with the
flow table, a step runs one loop from an answer to its next point, and a timer restarts both
(`tick`). The forwarder is a parameter (`UdpForwarder`).
-/

namespace TrustTunnel.UdpPipe

open Io NetUtils Forwarder Lib Option

def plainDnsPortNumber : UInt16 := 53

/-! ## Flows -/

/-- `plainDnsInfo` is the number of pending queries of a flow to port 53. -/
structure UdpConnection where
  lastActivity : Nat
  plainDnsInfo : Option Nat

inductive UdpConnectionStatus where
  | continue
  | done

def UdpConnection.registerOutgoingPacket (now : Nat) (c : UdpConnection) : UdpConnection :=
  { lastActivity := now, plainDnsInfo := c.plainDnsInfo.map (· + 1) }

def UdpConnection.registerIncomingPacket (now : Nat) (c : UdpConnection) :
    UdpConnection × UdpConnectionStatus :=
  match c.plainDnsInfo with
  | none => ({ c with lastActivity := now }, .continue)
  | some pendingQueries =>
    ({ lastActivity := now, plainDnsInfo := some (pendingQueries - 1) },
      if pendingQueries - 1 = 0 then .done else .continue)

def UdpConnection.fresh (now : Nat) (flow : Downstream.UdpDatagramMeta) : UdpConnection :=
  { lastActivity := now,
    plainDnsInfo := if flow.destination.port = plainDnsPortNumber then some 0 else none }

/-! ## Forwarders -/

/-- It refuses, opens, or suspends until the forwarder gets an answer. -/
inductive Opening (φ : Type) where
  | refused (e : IoError) (fwd : φ)
  | opened (fwd : φ)
  | waiting

/-- An error, a datagram, another turn of the loop, or a suspension. -/
inductive ReadProgress where
  | failed (e : IoError)
  | read (d : UdpDatagram)
  | again
  | pending

/-- What the pipe uses of a forwarder: `ω` answers an opening, `η` wakes its source.
`onNewUdpConnection` and `finishOpening` are the halves of one function; `write` looks the
socket up, `afterSend` is the rest; `beginRead` and `onSource` are `read` before and after its
suspension. -/
structure UdpForwarder (φ ω η : Type) where
  empty : φ
  onNewUdpConnection : φ → Downstream.UdpDatagramMeta → Except IoError Unit → Opening φ
  finishOpening : φ → Downstream.UdpDatagramMeta → ω → φ × Except IoError Unit
  onConnectionClosed : φ → UdpDatagramMeta → φ
  write : φ → UdpDatagramMeta → Except IoError SocketAddr
  afterSend : φ → UdpDatagramMeta → φ × Except IoError Unit
  beginRead : φ → List (UdpDatagramMeta × IoError) × φ
  onSource : φ → η → Option (φ × ReadProgress)

/-! ## States and events -/

/-- The `await` the left loop is suspended at. -/
inductive LeftPoint where
  | reading
  | opening (d : Downstream.UdpDatagram)
  | sending (d : Downstream.UdpDatagram)
  deriving DecidableEq

/-- `starting` when it was not polled yet. At `writing` it is not suspended: the client's sink
answers at once. -/
inductive RightPoint where
  | starting
  | reading
  | writing (d : UdpDatagram)
  deriving DecidableEq

/-- The call whose error ended `exchange`. -/
inductive ExchangeError where
  | clientSource (e : IoError)
  | sinkLookup (e : IoError)
  | sinkSend (e : IoError)
  | forwarderSource (e : IoError)
  | clientSink (e : IoError)
  deriving DecidableEq

/-- `handed` lists the payloads with their destinations. -/
structure State (φ : Type) where
  udpConnections : Table UdpDatagramMeta UdpConnection
  fwd : φ
  left : LeftPoint
  right : RightPoint
  now : Nat
  handed : List (SocketAddr × Bytes)
  returned : Option ExchangeError

inductive Event (ω η : Type) where
  | datagram (d : Downstream.UdpDatagram) (socket : Except IoError Unit)
  | clientError (e : IoError)
  | opened (answer : ω)
  | sent (r : Except IoError Unit)
  | started
  | source (ev : η)
  | written (r : Except IoError Unit)
  | tick
  | wait (d : Nat)

section Steps

variable {φ ω η : Type} (F : UdpForwarder φ ω η)

/-- The tail of an iteration of `LeftPipe::exchange`: `self.sink.write`. -/
def leftWrite (s : State φ) (d : Downstream.UdpDatagram) : State φ :=
  match F.write s.fwd d.key with
  | .error e => { s with returned := some (.sinkLookup e) }
  | .ok destination =>
    { s with left := .sending d, handed := s.handed ++ [(destination, d.payload)] }

def registerOutgoing (s : State φ) (d : Downstream.UdpDatagram) (c : UdpConnection) : State φ :=
  { s with udpConnections := s.udpConnections.insert d.key (c.registerOutgoingPacket s.now) }

/-- The entry may have been removed while the flow was opened. -/
def flowOpened (s : State φ) (d : Downstream.UdpDatagram) : State φ :=
  match s.udpConnections.lookup d.key with
  | none => leftWrite F s d
  | some c => leftWrite F (registerOutgoing s d c) d

/-- The entry goes into the table first, and stays if refused. -/
def entered (s : State φ) (d : Downstream.UdpDatagram) : State φ :=
  { s with udpConnections := s.udpConnections.insert d.key (.fresh s.now d.flow) }

/-- An iteration of `LeftPipe::exchange` from a datagram on. -/
def onDatagram (s : State φ) (d : Downstream.UdpDatagram) (socket : Except IoError Unit) :
    State φ :=
  match s.udpConnections.lookup d.key with
  | some c => leftWrite F (registerOutgoing s d c) d
  | none =>
    match F.onNewUdpConnection s.fwd d.flow socket with
    -- the entry stays
    | .refused _ fwd => { entered s d with fwd := fwd, left := .reading }
    | .opened fwd => flowOpened F { entered s d with fwd := fwd } d
    | .waiting => { entered s d with left := .opening d }

def onOpened (s : State φ) (d : Downstream.UdpDatagram) (answer : ω) : State φ :=
  match F.finishOpening s.fwd d.flow answer with
  | (fwd, .error _) => { s with fwd := fwd, left := .reading }
  | (fwd, .ok _) => flowOpened F { s with fwd := fwd } d

def onSent (s : State φ) (d : Downstream.UdpDatagram) : Except IoError Unit → State φ
  | .error e => { s with returned := some (.sinkSend e) }
  | .ok _ =>
    match F.afterSend s.fwd d.key with
    | (fwd, .error e) => { s with fwd := fwd, returned := some (.sinkSend e) }
    | (fwd, .ok _) => { s with fwd := fwd, left := .reading }

/-- `RightPipe::exchange` from the top of its loop. -/
def rightRead (s : State φ) : State φ :=
  let (closures, fwd) := F.beginRead s.fwd
  { s with udpConnections := s.udpConnections.eraseAll (closures.map Prod.fst), fwd := fwd,
           right := .reading }

/-- `RightPipe::exchange` once its `read` has got that far. -/
def onProgress (s : State φ) : ReadProgress → State φ
  | .failed e => { s with returned := some (.forwarderSource e) }
  | .read d => { s with right := .writing d }
  | .again => rightRead F s
  | .pending => s

def onSource (s : State φ) (ev : η) : Option (State φ) :=
  (F.onSource s.fwd ev).map (fun r => onProgress F { s with fwd := r.1 } r.2)

/-- The end of `RightPipe::on_udp_packet`. -/
def onWritten (s : State φ) (d : UdpDatagram) : Except IoError Unit → State φ
  | .error e => { s with returned := some (.clientSink e) }
  | .ok _ =>
    match s.udpConnections.lookup d.flow.reversed with
    | none => rightRead F s
    | some c =>
      match c.registerIncomingPacket s.now with
      | (c', .continue) =>
        rightRead F { s with udpConnections := s.udpConnections.insert d.flow.reversed c' }
      | (_, .done) =>
        rightRead F { s with
          udpConnections := s.udpConnections.erase d.flow.reversed,
          fwd := F.onConnectionClosed s.fwd d.flow }

/-- The flows `on_timer_tick` expires. -/
def expired (timeout : Nat) (s : State φ) : List UdpDatagramMeta :=
  Table.keysWhere s.udpConnections (fun c => decide (c.lastActivity + timeout < s.now))

def onTimerTick (timeout : Nat) (s : State φ) : State φ :=
  { s with
    udpConnections := s.udpConnections.eraseAll (expired timeout s),
    fwd := (expired timeout s).foldl (fun fwd m => F.onConnectionClosed fwd m.reversed) s.fwd }

/-- Nothing comes between a reply and the answer of the client's sink. -/
def State.busy (s : State φ) : Event ω η → Bool
  | .written _ => false
  | _ =>
    match s.right with
    | .writing _ => true
    | _ => false

/-- One step of `DuplexPipe::exchange`. -/
def step (timeout : Nat) (s : State φ) (ev : Event ω η) : Option (State φ) :=
  if s.returned.isSome || s.busy ev then none
  else
    match ev with
    | .datagram d socket => if s.left = .reading then some (onDatagram F s d socket) else none
    | .clientError e =>
      if s.left = .reading then some { s with returned := some (.clientSource e) } else none
    | .opened answer =>
      match s.left with
      | .opening d => some (onOpened F s d answer)
      | _ => none
    | .sent r =>
      match s.left with
      | .sending d => some (onSent F s d r)
      | _ => none
    | .started => if s.right = .starting then some (rightRead F s) else none
    | .source ev => if s.right = .reading then onSource F s ev else none
    | .written r =>
      match s.right with
      | .writing d => some (onWritten F s d r)
      | _ => none
    | .tick => some (onTimerTick F timeout { s with left := .reading, right := .starting })
    | .wait d => some { s with now := s.now + d }

def init : State φ :=
  { udpConnections := ∅, fwd := F.empty, left := .reading, right := .starting, now := 0,
    handed := [], returned := none }

/-! ## What a step does -/

/-- `step` as a relation: one case for each event. -/
inductive Next (timeout : Nat) (s : State φ) : Event ω η → State φ → Prop
  | datagram {d socket} (h : s.left = .reading) :
    Next timeout s (.datagram d socket) (onDatagram F s d socket)
  | clientError {e} (h : s.left = .reading) :
    Next timeout s (.clientError e) { s with returned := some (.clientSource e) }
  | opened {d answer} (h : s.left = .opening d) :
    Next timeout s (.opened answer) (onOpened F s d answer)
  | sent {d r} (h : s.left = .sending d) : Next timeout s (.sent r) (onSent F s d r)
  | started (h : s.right = .starting) : Next timeout s .started (rightRead F s)
  | source {ev s'} (h : s.right = .reading) (hs : onSource F s ev = some s') :
    Next timeout s (.source ev) s'
  | written {d r} (h : s.right = .writing d) : Next timeout s (.written r) (onWritten F s d r)
  | tick :
    Next timeout s .tick (onTimerTick F timeout { s with left := .reading, right := .starting })
  | wait {d} : Next timeout s (.wait d) { s with now := s.now + d }

variable {F} {timeout : Nat}

section

variable {s s' : State φ} {ev : Event ω η} {d : Downstream.UdpDatagram}
  {socket : Except IoError Unit} {fwd : φ} {x : SocketAddr × Bytes}

lemma next_of_step (h : step F timeout s ev = some s') : Next F timeout s ev s' := by
  by_cases hr : s.returned.isSome || s.busy ev
  · rw [step.eq_def, if_pos hr] at h
    cases h
  · rw [step.eq_def, if_neg hr] at h
    cases ev with
    | datagram =>
      simp only at h
      split at h <;> cases h
      exact .datagram ‹_›
    | clientError =>
      simp only at h
      split at h <;> cases h
      exact .clientError ‹_›
    | opened =>
      cases hp : s.left <;> simp only [hp, some.injEq, reduceCtorEq] at h
      subst h
      exact .opened hp
    | sent =>
      cases hp : s.left <;> simp only [hp, some.injEq, reduceCtorEq] at h
      subst h
      exact .sent hp
    | started =>
      simp only at h
      split at h <;> cases h
      exact .started ‹_›
    | source =>
      simp only at h
      split at h
      · exact .source ‹_› h
      · cases h
    | written =>
      cases hp : s.right <;> simp only [hp, some.injEq, reduceCtorEq] at h
      subst h
      exact .written hp
    | tick =>
      cases h
      exact .tick
    | wait =>
      cases h
      exact .wait

lemma returned_of_step (h : step F timeout s ev = some s') : s.returned = none := by
  by_contra hr
  rw [step.eq_def, if_pos (by simp [isSome_iff_ne_none.mpr hr])] at h
  cases h

lemma written_of_step (h : step F timeout s ev = some s') (hd : s.right = .writing d') :
    ∃ r, ev = .written r ∧ s' = onWritten F s d' r := by
  cases ev with
  | written r =>
    cases next_of_step h with
    | written hd' =>
      cases hd.symm.trans hd'
      exact ⟨r, rfl, rfl⟩
  | _ => simp [step, State.busy, hd] at h

lemma onSource_eq_some {ev : η} (h : onSource F s ev = some s') :
    ∃ fwd p, F.onSource s.fwd ev = some (fwd, p) ∧ s' = onProgress F { s with fwd := fwd } p := by
  obtain ⟨⟨fwd, p⟩, hc, rfl⟩ := map_eq_some_iff.mp h
  exact ⟨fwd, p, hc, rfl⟩

@[simp] lemma registerOutgoing_fwd (s : State φ) (d : Downstream.UdpDatagram)
    (c : UdpConnection) : (registerOutgoing s d c).fwd = s.fwd := rfl

@[simp] lemma entered_fwd (s : State φ) (d : Downstream.UdpDatagram) :
    (entered s d).fwd = s.fwd := rfl

@[simp] lemma mem_entered (s : State φ) (d : Downstream.UdpDatagram) (k : UdpDatagramMeta) :
    k ∈ (entered s d).udpConnections ↔ k = d.key ∨ k ∈ s.udpConnections :=
  AList.mem_insert _

@[simp] lemma leftWrite_udpConnections (s : State φ) (d : Downstream.UdpDatagram) :
    (leftWrite F s d).udpConnections = s.udpConnections := by
  unfold leftWrite
  split <;> rfl

@[simp] lemma leftWrite_fwd (s : State φ) (d : Downstream.UdpDatagram) :
    (leftWrite F s d).fwd = s.fwd := by
  unfold leftWrite
  split <;> rfl

@[simp] lemma flowOpened_fwd (s : State φ) (d : Downstream.UdpDatagram) :
    (flowOpened F s d).fwd = s.fwd := by
  unfold flowOpened
  split <;> simp

lemma mem_insert_of_lookup {t : Table UdpDatagramMeta UdpConnection} (h : t.lookup m = some c) :
    k ∈ t.insert m c' ↔ k ∈ t := by
  rw [AList.mem_insert]
  constructor
  · rintro (rfl | hk)
    · exact Table.mem_of_lookup h
    · exact hk
  · exact Or.inr

@[simp] lemma mem_flowOpened (s : State φ) (d : Downstream.UdpDatagram) (k : UdpDatagramMeta) :
    k ∈ (flowOpened F s d).udpConnections ↔ k ∈ s.udpConnections := by
  unfold flowOpened
  split
  · simp
  · rename_i hc
    rw [leftWrite_udpConnections]
    exact mem_insert_of_lookup hc

@[simp] lemma leftWrite_right (s : State φ) (d : Downstream.UdpDatagram) :
    (leftWrite F s d).right = s.right := by
  unfold leftWrite
  split <;> rfl

@[simp] lemma flowOpened_right (s : State φ) (d : Downstream.UdpDatagram) :
    (flowOpened F s d).right = s.right := by
  unfold flowOpened
  split <;> simp [registerOutgoing]

lemma flowOpened_left_of_ok (h : F.write s.fwd d.key = .ok a) :
    (flowOpened F s d).left = .sending d := by
  unfold flowOpened
  split <;> simp [leftWrite, registerOutgoing, h]

lemma onDatagram_of_mem (socket : Except IoError Unit) (hk : d.key ∈ s.udpConnections) :
    onDatagram F s d socket = flowOpened F s d := by
  obtain ⟨c, hc⟩ := Table.exists_lookup hk
  simp [onDatagram, flowOpened, hc]

lemma onDatagram_of_opened (hk : d.key ∉ s.udpConnections)
    (ho : F.onNewUdpConnection s.fwd d.flow socket = .opened fwd) :
    onDatagram F s d socket = flowOpened F { entered s d with fwd := fwd } d := by
  simp [onDatagram, AList.lookup_eq_none.mpr hk, ho]

lemma onDatagram_of_refused (hk : d.key ∉ s.udpConnections)
    (ho : F.onNewUdpConnection s.fwd d.flow socket = .refused e fwd) :
    onDatagram F s d socket = { entered s d with fwd := fwd, left := .reading } := by
  simp [onDatagram, AList.lookup_eq_none.mpr hk, ho]

lemma onDatagram_of_waiting (hk : d.key ∉ s.udpConnections)
    (ho : F.onNewUdpConnection s.fwd d.flow socket = .waiting) :
    onDatagram F s d socket = { entered s d with left := .opening d } := by
  simp [onDatagram, AList.lookup_eq_none.mpr hk, ho]

lemma leftWrite_handed (s : State φ) (d : Downstream.UdpDatagram)
    (hx : x ∈ (leftWrite F s d).handed) : x ∈ s.handed ∨ F.write s.fwd d.key = .ok x.1 := by
  unfold leftWrite at hx
  split at hx
  · exact .inl hx
  · rename_i hw
    rcases List.mem_append.mp hx with h | h
    · exact .inl h
    · rw [List.mem_singleton.mp h]
      exact .inr hw

lemma flowOpened_handed (s : State φ) (d : Downstream.UdpDatagram)
    (hx : x ∈ (flowOpened F s d).handed) : x ∈ s.handed ∨ F.write s.fwd d.key = .ok x.1 := by
  unfold flowOpened at hx
  split at hx
  · exact leftWrite_handed s d hx
  · rename_i c _
    exact leftWrite_handed (registerOutgoing s d c) d hx

end

/-! ## Forwarder invariants -/

/-- The state an opening leaves satisfies `I`. -/
def Opening.All (I : φ → Prop) : Opening φ → Prop
  | .refused _ fwd => I fwd
  | .opened fwd => I fwd
  | .waiting => True

variable (F) in
/-- Every call the pipe makes keeps `I`. -/
structure UdpForwarder.Preserves (I : φ → Prop) : Prop where
  empty : I F.empty
  opening : ∀ f m r, I f → (F.onNewUdpConnection f m r).All I
  finish : ∀ f m a, I f → I (F.finishOpening f m a).1
  closed : ∀ f m, I f → I (F.onConnectionClosed f m)
  sent : ∀ f m, I f → I (F.afterSend f m).1
  begin : ∀ f, I f → I (F.beginRead f).2
  source : ∀ f ev f' p, F.onSource f ev = some (f', p) → I f → I f'

section Preserves

variable {I : φ → Prop} {s s' : State φ}

lemma onDatagram_preserves (hF : F.Preserves I) (d : Downstream.UdpDatagram)
    (socket : Except IoError Unit) (hs : I s.fwd) : I (onDatagram F s d socket).fwd := by
  unfold onDatagram
  split
  · simpa using hs
  · have h := hF.opening s.fwd d.flow socket hs
    cases ho : F.onNewUdpConnection s.fwd d.flow socket with
    | refused | opened => simpa [ho, Opening.All] using h
    | waiting => exact hs

lemma onOpened_preserves (hF : F.Preserves I) (d : Downstream.UdpDatagram) (answer : ω)
    (hs : I s.fwd) : I (onOpened F s d answer).fwd := by
  have h := hF.finish s.fwd d.flow answer hs
  unfold onOpened
  split <;> simp_all

lemma onSent_preserves (hF : F.Preserves I) (d : Downstream.UdpDatagram)
    (r : Except IoError Unit) (hs : I s.fwd) : I (onSent F s d r).fwd := by
  have h := hF.sent s.fwd d.key hs
  cases r with
  | error => exact hs
  | ok =>
    simp only [onSent]
    split <;> simp_all

lemma rightRead_preserves (hF : F.Preserves I) (hs : I s.fwd) : I (rightRead F s).fwd :=
  hF.begin s.fwd hs

lemma onSource_preserves (hF : F.Preserves I) (h : onSource F s ev = some s')
    (hs : I s.fwd) : I s'.fwd := by
  obtain ⟨fwd, p, hc, rfl⟩ := onSource_eq_some h
  have hI := hF.source _ _ _ _ hc hs
  cases p with
  | again => exact rightRead_preserves hF hI
  | _ => exact hI

lemma onWritten_preserves (hF : F.Preserves I) (d : UdpDatagram) (r : Except IoError Unit)
    (hs : I s.fwd) : I (onWritten F s d r).fwd := by
  cases r with
  | error => exact hs
  | ok =>
    simp only [onWritten]
    split
    · exact rightRead_preserves hF hs
    · split
      · exact rightRead_preserves hF hs
      · exact rightRead_preserves hF (hF.closed s.fwd d.flow hs)

lemma onTimerTick_preserves (hF : F.Preserves I) (hs : I s.fwd) :
    I (onTimerTick F timeout s).fwd :=
  List.foldlRecOn (expired timeout s) _ hs (fun fwd hf m _ => hF.closed fwd m.reversed hf)

lemma step_preserves (hF : F.Preserves I)
    (h : step F timeout s ev = some s') (hs : I s.fwd) : I s'.fwd := by
  cases next_of_step h with
  | datagram => exact onDatagram_preserves hF _ _ hs
  | clientError | wait => exact hs
  | opened => exact onOpened_preserves hF _ _ hs
  | sent => exact onSent_preserves hF _ _ hs
  | started => exact rightRead_preserves hF hs
  | source _ hsr => exact onSource_preserves hF hsr hs
  | written => exact onWritten_preserves hF _ _ hs
  | tick => exact onTimerTick_preserves hF hs

end Preserves

/-! ## What a step hands over and opens -/

section Effects

variable {s s' : State φ}

section

variable {x : SocketAddr × Bytes} {ev : Event ω η} {d : Downstream.UdpDatagram}

lemma onDatagram_handed (d : Downstream.UdpDatagram) (socket : Except IoError Unit)
    (hx : x ∈ (onDatagram F s d socket).handed) :
    x ∈ s.handed ∨ F.write (onDatagram F s d socket).fwd d.key = .ok x.1 ∧
      (d.key ∈ s.udpConnections ∨
        ∃ fwd, F.onNewUdpConnection s.fwd d.flow socket = .opened fwd) := by
  by_cases hk : d.key ∈ s.udpConnections
  · rw [onDatagram_of_mem socket hk] at hx ⊢
    rcases flowOpened_handed _ d hx with h | h
    · exact .inl h
    · exact .inr ⟨by simpa using h, .inl hk⟩
  · cases ho : F.onNewUdpConnection s.fwd d.flow socket with
    | refused =>
      rw [onDatagram_of_refused hk ho] at hx
      exact .inl hx
    | opened fwd =>
      rw [onDatagram_of_opened hk ho] at hx ⊢
      rcases flowOpened_handed _ d hx with h | h
      · exact .inl h
      · exact .inr ⟨by simpa using h, .inr ⟨fwd, rfl⟩⟩
    | waiting =>
      rw [onDatagram_of_waiting hk ho] at hx
      exact .inl hx

lemma onOpened_handed (d : Downstream.UdpDatagram) (answer : ω)
    (hx : x ∈ (onOpened F s d answer).handed) :
    x ∈ s.handed ∨ F.write (onOpened F s d answer).fwd d.key = .ok x.1 := by
  unfold onOpened at hx ⊢
  split at hx
  · exact .inl hx
  · rcases flowOpened_handed _ d hx with h | h
    · exact .inl h
    · exact .inr (by simpa using h)

@[simp] lemma onSent_handed (d : Downstream.UdpDatagram) (r : Except IoError Unit) :
    (onSent F s d r).handed = s.handed := by
  cases r with
  | error => rfl
  | ok =>
    simp only [onSent]
    split <;> rfl

@[simp] lemma onWritten_handed (d : UdpDatagram) (r : Except IoError Unit) :
    (onWritten F s d r).handed = s.handed := by
  cases r with
  | error => rfl
  | ok =>
    simp only [onWritten]
    split
    · rfl
    · split <;> rfl

lemma onSource_handed {ev : η} (h : onSource F s ev = some s') : s'.handed = s.handed := by
  obtain ⟨fwd, p, -, rfl⟩ := onSource_eq_some h
  cases p <;> rfl

/-- A payload handed over is that of the datagram read or of the flow opened. -/
lemma step_handed (h : step F timeout s ev = some s') (hx : x ∈ s'.handed) :
    x ∈ s.handed ∨ ∃ d : Downstream.UdpDatagram, F.write s'.fwd d.key = .ok x.1 ∧
      (s.left = .opening d ∨ ∃ socket, ev = .datagram d socket ∧ (d.key ∈ s.udpConnections ∨
          ∃ fwd, F.onNewUdpConnection s.fwd d.flow socket = .opened fwd)) := by
  cases next_of_step h with
  | @datagram d socket _ =>
    rcases onDatagram_handed d socket hx with hold | ⟨hw, hk⟩
    · exact .inl hold
    · exact .inr ⟨d, hw, .inr ⟨socket, rfl, hk⟩⟩
  | @opened d answer hl =>
    rcases onOpened_handed d answer hx with hold | hw
    · exact .inl hold
    · exact .inr ⟨d, hw, .inl hl⟩
  | clientError | started | tick | wait => exact .inl hx
  | sent | written => exact .inl (by simpa using hx)
  | source _ hs => exact .inl (onSource_handed hs ▸ hx)

lemma leftWrite_left (d : Downstream.UdpDatagram) :
    (leftWrite F s d).left = s.left ∨ (leftWrite F s d).left = .sending d := by
  unfold leftWrite
  split
  · exact .inl rfl
  · exact .inr rfl

lemma flowOpened_left (d : Downstream.UdpDatagram) :
    (flowOpened F s d).left = s.left ∨ (flowOpened F s d).left = .sending d := by
  unfold flowOpened
  split
  · exact leftWrite_left d
  · rename_i c _
    exact leftWrite_left (s := registerOutgoing s d c) d

lemma onDatagram_opening
    (hleft : s.left = .reading) (h : (onDatagram F s d socket).left = .opening d') :
    d' = d ∧ d.key ∉ s.udpConnections ∧ F.onNewUdpConnection s.fwd d.flow socket = .waiting := by
  by_cases hk : d.key ∈ s.udpConnections
  · rw [onDatagram_of_mem socket hk] at h
    rcases flowOpened_left (F := F) (s := s) d with hl | hl <;> simp_all
  · cases ho : F.onNewUdpConnection s.fwd d.flow socket with
    | refused => simp [onDatagram_of_refused hk ho] at h
    | opened fwd =>
      rw [onDatagram_of_opened hk ho] at h
      rcases flowOpened_left (F := F) (s := { entered s d with fwd := fwd }) d with hl | hl <;>
        simp_all [entered]
    | waiting =>
      simp only [onDatagram_of_waiting hk ho, LeftPoint.opening.injEq] at h
      exact ⟨h.symm, hk, rfl⟩

lemma step_opening (h : step F timeout s ev = some s') (hd : s'.left = .opening d) :
    s.left = .opening d ∨ ∃ socket, ev = .datagram d socket ∧ d.key ∉ s.udpConnections ∧
      F.onNewUdpConnection s.fwd d.flow socket = .waiting := by
  cases next_of_step h with
  | @datagram d' socket hle =>
    obtain ⟨rfl, hk, ho⟩ := onDatagram_opening hle hd
    exact .inr ⟨socket, rfl, hk, ho⟩
  | @opened d' answer hle =>
    refine .inl ?_
    unfold onOpened at hd
    split at hd
    · cases hd
    · rename_i fwd _ _
      rcases flowOpened_left (F := F) (s := { s with fwd := fwd }) d' with hl | hl <;> simp_all
  | clientError | started | wait => exact .inl hd
  | @sent d' r hle =>
    cases r with
    | error => exact .inl hd
    | ok =>
      simp only [onSent] at hd
      split at hd
      · exact .inl hd
      · cases hd
  | source _ hs =>
    obtain ⟨fwd, p, -, rfl⟩ := onSource_eq_some hs
    cases p <;> exact .inl hd
  | @written d' r hright =>
    cases r with
    | error => exact .inl hd
    | ok =>
      simp only [onWritten] at hd
      split at hd
      · exact .inl hd
      · split at hd <;> exact .inl hd
  | tick => cases hd

end

end Effects

end Steps

end TrustTunnel.UdpPipe
