import Mathlib.Data.List.Count
import TrustTunnel.UdpPipe

/-!
# One flow of the UDP pipe (`udp_pipe.rs`)

The entry of one flow, and the calls that close it, as a recording forwarder sees them.
-/

namespace TrustTunnel.UdpPipe

open Io Forwarder Lib AList List Table Option

variable {φ ω η : Type}

/-! ## The calls that close a flow -/

/-- `closed`: by the pipe; `reported`: by the source. -/
inductive Call where
  | closed (m : UdpDatagramMeta)
  | reported (m : UdpDatagramMeta)
  deriving DecidableEq

structure Recorded (φ : Type) where
  fwd : φ
  log : List Call

def Opening.map {ψ : Type} (f : φ → ψ) : Opening φ → Opening ψ
  | .refused e fwd => .refused e (f fwd)
  | .opened fwd => .opened (f fwd)
  | .waiting => .waiting

/-- `F`, with the calls that close a flow written down. -/
def recorded (F : UdpForwarder φ ω η) : UdpForwarder (Recorded φ) ω η where
  empty := { fwd := F.empty, log := [] }
  onNewUdpConnection f m socket :=
    (F.onNewUdpConnection f.fwd m socket).map (fun fwd => { f with fwd := fwd })
  finishOpening f m answer :=
    ({ f with fwd := (F.finishOpening f.fwd m answer).1 }, (F.finishOpening f.fwd m answer).2)
  onConnectionClosed f m :=
    { fwd := F.onConnectionClosed f.fwd m, log := f.log ++ [.closed m] }
  write f m := F.write f.fwd m
  afterSend f m := ({ f with fwd := (F.afterSend f.fwd m).1 }, (F.afterSend f.fwd m).2)
  beginRead f :=
    ((F.beginRead f.fwd).1,
      { fwd := (F.beginRead f.fwd).2,
        log := f.log ++ (F.beginRead f.fwd).1.map (fun r => .reported r.1) })
  onSource f ev := (F.onSource f.fwd ev).map (fun r => ({ f with fwd := r.1 }, r.2))

section

variable {F : UdpForwarder φ ω η}

lemma foldl_recorded (ms : List UdpDatagramMeta) (f : Recorded φ) :
    ms.foldl (fun f m => (recorded F).onConnectionClosed f m.reversed) f =
      { fwd := ms.foldl (fun f m => F.onConnectionClosed f m.reversed) f.fwd,
        log := f.log ++ ms.map (fun m => .closed m.reversed) } := by
  induction ms generalizing f with
  | nil => simp
  | cons m ms ih =>
    rw [foldl_cons, ih]
    simp [recorded]

end

/-! ## The packets of a flow -/

/-- The entry of a new flow `k`. -/
def UdpConnection.new (now : Nat) (k : UdpDatagramMeta) : UdpConnection :=
  { lastActivity := now,
    plainDnsInfo := if k.destination.port = plainDnsPortNumber then some 0 else none }

def Opening.isOpened : Opening φ → Bool
  | .opened _ => true
  | _ => false

section Packets

variable (F : UdpForwarder φ ω η) (k : UdpDatagramMeta) (s : State φ)

/-- A datagram of `k` for which there is no entry. -/
def creates : Event ω η → Bool
  | .datagram d _ => decide (d.key = k) && (s.udpConnections.lookup k).isNone
  | _ => false

/-- Its flow is there, or was opened. -/
def registers : Event ω η → Bool
  | .datagram d socket =>
    decide (d.key = k) && ((s.udpConnections.lookup k).isSome ||
      (F.onNewUdpConnection s.fwd d.flow socket).isOpened)
  | .opened answer =>
    match s.left with
    | .opening d =>
      decide (d.key = k) && (s.udpConnections.lookup k).isSome &&
        (F.finishOpening s.fwd d.flow answer).2.isOk
    | _ => false
  | _ => false

/-- A reply of `k` is registered: it was handed to the client. -/
def answers : Event ω η → Bool
  | .written (.ok _) =>
    match s.right with
    | .writing d => decide (d.flow.reversed = k) && (s.udpConnections.lookup k).isSome
    | _ => false
  | _ => false

/-- A packet of `k` is registered, or has made its entry. -/
def hasPacket (ev : Event ω η) : Bool :=
  creates k s ev || registers F k s ev || answers k s ev

/-- What a step makes of the entry of `k`, and how often it is closed. -/
inductive Fate (timeout : Nat) (ev : Event ω η) : Option UdpConnection → Nat → Prop
  | created (h : creates k s ev = true) :
    Fate timeout ev (some (if registers F k s ev then
      (UdpConnection.new s.now k).registerOutgoingPacket s.now else .new s.now k)) 0
  | outgoing {c} (h : registers F k s ev = true) (hc : s.udpConnections.lookup k = some c) :
    Fate timeout ev (some (c.registerOutgoingPacket s.now)) 0
  | reply {c c'} (h : answers k s ev = true) (hc : s.udpConnections.lookup k = some c)
    (hreg : c.registerIncomingPacket s.now = (c', .continue)) : Fate timeout ev (some c') 0
  | completed {c c'} (h : answers k s ev = true) (hc : s.udpConnections.lookup k = some c)
    (hreg : c.registerIncomingPacket s.now = (c', .done)) : Fate timeout ev none 1
  | expired {c} (h : ev = .tick) (hc : s.udpConnections.lookup k = some c)
    (hlate : c.lastActivity + timeout < s.now) : Fate timeout ev none 1
  | quiet (hcreates : creates k s ev = false) (hregisters : registers F k s ev = false)
    (hanswers : answers k s ev = false)
    (htick : ev = .tick → ∀ c, s.udpConnections.lookup k = some c →
      s.now ≤ c.lastActivity + timeout) : Fate timeout ev (s.udpConnections.lookup k) 0

variable {k s} in
lemma creates_of_lookup (h : s.udpConnections.lookup k = some c) : creates k s ev = false := by
  cases ev <;> simp [creates, h]

lemma registerIncomingPacket_lastActivity {now : Nat} {c c' : UdpConnection}
    {status : UdpConnectionStatus} (h : c.registerIncomingPacket now = (c', status)) :
    c'.lastActivity = now := by
  unfold UdpConnection.registerIncomingPacket at h
  split at h <;> cases h <;> rfl

variable {F k s} in
lemma Fate.activity (h : Fate F k s timeout ev e n) (he : e = some c') :
    hasPacket F k s ev ∧ c'.lastActivity = s.now ∨
      hasPacket F k s ev = false ∧ s.udpConnections.lookup k = some c' ∧
        (ev = .tick → s.now ≤ c'.lastActivity + timeout) := by
  cases h with
  | created hcreates =>
    refine .inl ⟨by simp [hasPacket, hcreates], ?_⟩
    rw [← some.inj he]
    split <;> rfl
  | outgoing hregisters =>
    rw [← some.inj he]
    exact .inl ⟨by simp [hasPacket, hregisters], rfl⟩
  | reply hanswers _ hr =>
    rw [← some.inj he]
    exact .inl ⟨by simp [hasPacket, hanswers], registerIncomingPacket_lastActivity hr⟩
  | completed | expired => cases he
  | quiet hcreates hregisters hanswers htick =>
    exact .inr ⟨by simp [hasPacket, hcreates, hregisters, hanswers], he, fun h => htick h c' he⟩

end Packets

section Lookup

variable {F : UdpForwarder φ ω η} {k : UdpDatagramMeta} {s : State φ} {d : Downstream.UdpDatagram}

lemma lookup_flowOpened (s : State φ) (d : Downstream.UdpDatagram) (k : UdpDatagramMeta) :
    (flowOpened F s d).udpConnections.lookup k =
      if k = d.key then (s.udpConnections.lookup k).map (·.registerOutgoingPacket s.now)
      else s.udpConnections.lookup k := by
  by_cases hd : k = d.key
  · subst hd
    cases hc : s.udpConnections.lookup d.key <;> simp [flowOpened, hc, registerOutgoing]
  · cases hc : s.udpConnections.lookup d.key <;>
      simp [flowOpened, hc, registerOutgoing, hd, lookup_insert_ne hd]

lemma lookup_onDatagram_ne (h : k ≠ d.key) (socket : Except IoError Unit) :
    (onDatagram F s d socket).udpConnections.lookup k = s.udpConnections.lookup k := by
  by_cases hk : d.key ∈ s.udpConnections
  · rw [onDatagram_of_mem socket hk, lookup_flowOpened, if_neg h]
  · have he : (entered s d).udpConnections.lookup k = s.udpConnections.lookup k :=
      lookup_insert_ne h
    cases ho : F.onNewUdpConnection s.fwd d.flow socket with
    | refused => rw [onDatagram_of_refused hk ho, he]
    | opened => rw [onDatagram_of_opened hk ho, lookup_flowOpened, if_neg h, he]
    | waiting => rw [onDatagram_of_waiting hk ho, he]

lemma lookup_onDatagram_new (h : s.udpConnections.lookup d.key = none)
    (socket : Except IoError Unit) : (onDatagram F s d socket).udpConnections.lookup d.key =
      some (if registers F d.key s (.datagram d socket) then
        (UdpConnection.new s.now d.key).registerOutgoingPacket s.now else .new s.now d.key) := by
  have hk : d.key ∉ s.udpConnections := lookup_eq_none.mp h
  have he : (entered s d).udpConnections.lookup d.key = some (.new s.now d.key) :=
    lookup_insert _
  cases ho : F.onNewUdpConnection s.fwd d.flow socket with
  | refused =>
    rw [onDatagram_of_refused hk ho, he]
    simp [registers, h, ho, Opening.isOpened]
  | opened =>
    rw [onDatagram_of_opened hk ho, lookup_flowOpened, if_pos rfl, he]
    simp [registers, ho, Opening.isOpened, entered]
  | waiting =>
    rw [onDatagram_of_waiting hk ho, he]
    simp [registers, h, ho, Opening.isOpened]

end Lookup

/-- The step from `s` to `s'` with what it writes down. -/
def Undergoes (F : UdpForwarder φ ω η) (timeout : Nat) (k : UdpDatagramMeta)
    (s : State (Recorded φ)) (ev : Event ω η) (s' : State (Recorded φ)) : Prop :=
  ∃ e n news, Fate (recorded F) k s timeout ev e n ∧ s'.fwd.log = s.fwd.log ++ news ∧
    news.count (.closed k.reversed) = n ∧
    s'.udpConnections.lookup k = if .reported k ∈ news then none else e

section Fate

variable {F : UdpForwarder φ ω η} {timeout : Nat} {k : UdpDatagramMeta}
  {s s' : State (Recorded φ)}

lemma undergoes_of_fate (hl : s'.fwd.log = s.fwd.log)
    (h : Fate (recorded F) k s timeout ev (s'.udpConnections.lookup k) 0) :
    Undergoes F timeout k s ev s' :=
  ⟨_, 0, [], h, by simp [hl], rfl, by simp⟩

lemma undergoes_rightRead {ev : Event ω η} {s1 : State (Recorded φ)} {n : Nat} (news : List Call)
    (h : Fate (recorded F) k s timeout ev (s1.udpConnections.lookup k) n)
    (hl : s1.fwd.log = s.fwd.log ++ news) (hc : news.count (.closed k.reversed) = n)
    (hn : .reported k ∉ news) : Undergoes F timeout k s ev (rightRead (recorded F) s1) := by
  refine ⟨_, n, news ++ (F.beginRead s1.fwd.fwd).1.map (fun r => .reported r.1), h, ?_, ?_, ?_⟩
  · simp [rightRead, recorded, hl]
  · rw [count_append, hc, Nat.add_eq_left, count_eq_zero]
    simp
  · have hm : .reported k ∈ news ++ (F.beginRead s1.fwd.fwd).1.map (fun r => Call.reported r.1) ↔
        k ∈ (F.beginRead s1.fwd.fwd).1.map Prod.fst := by
      simp [hn]
    simp only [rightRead, recorded, lookup_eraseAll, hm]

lemma onDatagram_log (d : Downstream.UdpDatagram) (socket : Except IoError Unit) :
    (onDatagram (recorded F) s d socket).fwd.log = s.fwd.log := by
  unfold onDatagram
  split
  · simp
  · cases ho : F.onNewUdpConnection s.fwd.fwd d.flow socket <;> simp [recorded, ho, Opening.map]

lemma datagram_undergoes (d : Downstream.UdpDatagram) (socket : Except IoError Unit) :
    Undergoes F timeout k s (.datagram d socket) (onDatagram (recorded F) s d socket) := by
  refine undergoes_of_fate (onDatagram_log d socket) ?_
  by_cases hd : k = d.key
  · subst hd
    cases hc : s.udpConnections.lookup d.key with
    | none =>
      rw [lookup_onDatagram_new hc]
      exact .created (by simp [creates, hc])
    | some =>
      have hk : d.key ∈ s.udpConnections := mem_of_lookup hc
      rw [onDatagram_of_mem socket hk, lookup_flowOpened, if_pos rfl, hc]
      exact .outgoing (by simp [registers, hc]) hc
  · rw [lookup_onDatagram_ne hd]
    have hd' : d.key ≠ k := Ne.symm hd
    exact .quiet (by simp [creates, hd']) (by simp [registers, hd']) rfl (fun h => by cases h)

lemma opened_undergoes (hl : s.left = .opening d) (answer : ω) :
    Undergoes F timeout k s (.opened answer) (onOpened (recorded F) s d answer) := by
  cases ho : F.finishOpening s.fwd.fwd d.flow answer with
  | mk fwd r =>
    cases r with
    | error =>
      have hop : onOpened (recorded F) s d answer =
          { s with fwd := { s.fwd with fwd := fwd }, left := .reading } := by
        simp [onOpened, recorded, ho]
      rw [hop]
      refine undergoes_of_fate rfl (.quiet rfl ?_ rfl (fun h => by cases h))
      simp [registers, hl, recorded, ho, Except.isOk, Except.toBool]
    | ok =>
      have hop : onOpened (recorded F) s d answer =
          flowOpened (recorded F) { s with fwd := { s.fwd with fwd := fwd } } d := by
        simp [onOpened, recorded, ho]
      rw [hop]
      refine undergoes_of_fate (by simp) ?_
      rw [lookup_flowOpened]
      by_cases hd : k = d.key
      · rw [if_pos hd]
        cases hc : s.udpConnections.lookup k with
        | none =>
          rw [map_none, ← hc]
          exact .quiet rfl (by simp [registers, hl, hc]) rfl (fun h => by cases h)
        | some =>
          refine .outgoing ?_ hc
          simp [registers, hl, hc, hd, recorded, ho, Except.isOk, Except.toBool]
      · rw [if_neg hd]
        have hd' : d.key ≠ k := Ne.symm hd
        exact .quiet rfl (by simp [registers, hl, hd']) rfl (fun h => by cases h)

lemma written_undergoes (hr : s.right = .writing d) (r : Except IoError Unit) :
    Undergoes F timeout k s (.written r) (onWritten (recorded F) s d r) := by
  cases r with
  | error => exact undergoes_of_fate rfl (.quiet rfl rfl rfl (fun h => by cases h))
  | ok u =>
    cases hc : s.udpConnections.lookup d.flow.reversed with
    | none =>
      have hw : onWritten (recorded F) s d (.ok u) = rightRead (recorded F) s := by
        simp [onWritten, hc]
      rw [hw]
      refine undergoes_rightRead [] (.quiet rfl rfl ?_ (fun h => by cases h)) (by simp) rfl
        (by simp)
      by_cases hk : d.flow.reversed = k
      · rw [hk] at hc
        simp [answers, hr, hc]
      · simp [answers, hr, hk]
    | some c =>
      have ho : d.flow.reversed ≠ k → answers k s (.written (.ok u) : Event ω η) = false :=
        fun hk => by simp [answers, hr, hk]
      cases hre : c.registerIncomingPacket s.now with
      | mk c' status =>
        cases status with
        | «continue» =>
          have hw : onWritten (recorded F) s d (.ok u) = rightRead (recorded F)
              { s with udpConnections := s.udpConnections.insert d.flow.reversed c' } := by
            simp [onWritten, hc, hre]
          rw [hw]
          refine undergoes_rightRead [] ?_ (by simp) rfl (by simp)
          by_cases hk : d.flow.reversed = k
          · subst hk
            rw [lookup_insert]
            exact .reply (by simp [answers, hr, hc]) hc hre
          · rw [lookup_insert_ne (Ne.symm hk)]
            exact .quiet rfl rfl (ho hk) (fun h => by cases h)
        | done =>
          have hw : onWritten (recorded F) s d (.ok u) = rightRead (recorded F)
              { s with udpConnections := s.udpConnections.erase d.flow.reversed,
                       fwd := (recorded F).onConnectionClosed s.fwd d.flow } := by
            simp [onWritten, hc, hre]
          rw [hw]
          refine undergoes_rightRead [.closed d.flow] ?_ rfl rfl (by simp)
          by_cases hk : d.flow.reversed = k
          · subst hk
            simp only [lookup_erase, UdpDatagramMeta.reversed_reversed, count_singleton_self]
            exact .completed (by simp [answers, hr, hc]) hc hre
          · have hf : d.flow ≠ k.reversed := fun h => hk (by rw [h]; rfl)
            rw [lookup_erase_ne (Ne.symm hk), count_eq_zero.mpr (by simpa using hf.symm)]
            exact .quiet rfl rfl (ho hk) (fun h => by cases h)

lemma mem_expired {φ : Type} {s : State φ} : k ∈ expired timeout s ↔
      ∃ c, s.udpConnections.lookup k = some c ∧ c.lastActivity + timeout < s.now := by
  simp [expired, mem_keysWhere]

lemma tick_undergoes : Undergoes F timeout k s .tick
    (onTimerTick (recorded F) timeout { s with left := .reading, right := .starting }) := by
  -- the expired flows are the same with the loops dropped
  have hs : expired timeout { s with left := .reading, right := .starting } =
      expired timeout s := rfl
  have hi : Function.Injective (fun m : UdpDatagramMeta => Call.closed m.reversed) := by
    intro m m' h
    exact congrArg UdpDatagramMeta.reversed (Call.closed.inj h)
  have hco : ((expired timeout s).map (fun m => Call.closed m.reversed)).count
      (.closed k.reversed) = (expired timeout s).count k :=
    count_map_of_injective _ _ hi k
  simp only [onTimerTick, hs, foldl_recorded]
  refine ⟨if k ∈ expired timeout s then none else s.udpConnections.lookup k, _,
    (expired timeout s).map (fun m => Call.closed m.reversed), ?_, rfl, hco, ?_⟩
  · by_cases hk : k ∈ expired timeout s
    · have hn : (expired timeout s).Nodup := nodup_keysWhere _ _
      rw [if_pos hk, count_eq_one_of_mem hn hk]
      obtain ⟨c, hc, hlate⟩ := mem_expired.mp hk
      exact .expired rfl hc hlate
    · rw [if_neg hk, count_eq_zero.mpr hk]
      refine .quiet rfl rfl rfl (fun _ c hc => Nat.not_lt.mp (fun hlate => hk ?_))
      exact mem_expired.mpr ⟨c, hc, hlate⟩
  · simp [lookup_eraseAll]

lemma source_undergoes (h : onSource (recorded F) s ev = some s') :
    Undergoes F timeout k s (.source ev) s' := by
  obtain ⟨f, p, hc, rfl⟩ := onSource_eq_some h
  have hl : f.log = s.fwd.log := by
    obtain ⟨r, -, hr⟩ := map_eq_some_iff.mp hc
    cases hr
    rfl
  have hq : Fate (recorded F) k s timeout (.source ev) (s.udpConnections.lookup k) 0 :=
    .quiet rfl rfl rfl (fun h => by cases h)
  cases p with
  | again => exact undergoes_rightRead [] hq (by simpa using hl) rfl (by simp)
  | _ => exact undergoes_of_fate hl hq

lemma sent_undergoes (d : Downstream.UdpDatagram) (r : Except IoError Unit) :
    Undergoes F timeout k s (.sent r) (onSent (recorded F) s d r) := by
  have hq : Fate (recorded F) k s timeout (.sent r) (s.udpConnections.lookup k) 0 :=
    .quiet rfl rfl rfl (fun h => by cases h)
  cases r with
  | error => exact undergoes_of_fate rfl hq
  | ok u =>
    simp only [onSent]
    split
    · rename_i ha
      exact undergoes_of_fate (by rw [← (Prod.mk.inj ha).1]) hq
    · rename_i ha
      exact undergoes_of_fate (by rw [← (Prod.mk.inj ha).1]) hq

lemma step_fate (k : UdpDatagramMeta)
    (h : step (recorded F) timeout s ev = some s') : Undergoes F timeout k s ev s' := by
  cases next_of_step h with
  | datagram => exact datagram_undergoes _ _
  | clientError | wait => exact undergoes_of_fate rfl (.quiet rfl rfl rfl (fun h => by cases h))
  | opened hl => exact opened_undergoes hl _
  | sent => exact sent_undergoes _ _
  | started =>
    exact undergoes_rightRead [] (.quiet rfl rfl rfl (fun h => by cases h)) (by simp) rfl (by simp)
  | source _ hs => exact source_undergoes hs
  | written hr => exact written_undergoes hr _
  | tick => exact tick_undergoes

lemma mem_or_reported {t : Table UdpDatagramMeta UdpConnection} {c : UdpConnection}
    {news : List Call} (h : t.lookup k = if .reported k ∈ news then none else some c) :
    k ∈ t ∨ .reported k ∈ news := by
  by_cases hn : .reported k ∈ news
  · exact .inr hn
  · rw [if_neg hn] at h
    exact .inl (mem_of_lookup h)

lemma step_activity (h : step (recorded F) timeout s ev = some s')
    (hc' : s'.udpConnections.lookup k = some c') :
    hasPacket (recorded F) k s ev ∧ c'.lastActivity = s.now ∨
      hasPacket (recorded F) k s ev = false ∧ s.udpConnections.lookup k = some c' ∧
        (ev = .tick → s.now ≤ c'.lastActivity + timeout) := by
  obtain ⟨e, n, news, hf, -, -, he⟩ := step_fate k h
  rw [he] at hc'
  split at hc'
  · cases hc'
  · exact hf.activity hc'

end Fate

end TrustTunnel.UdpPipe
