import TrustTunnel.UdpFlow
import TrustTunnel.UdpForwarder

/-!
# When an idle flow expires (`udp_pipe.rs`)

Ticks come each quarter of the timeout and expire idle flows. A packet counts when it comes in and
when it is registered. Proved for every forwarder and run:

* `registered_of_reachable`: the last packet of a flow is registered, or is the reply at hand;
* `accounted_of_reachable`: a flow is there, was closed once, or was reported closed;
* `idle_expiry`: no flow expires early, and none stays for more than five quarters of the timeout.
-/

namespace TrustTunnel.UdpPipe

open Io Forwarder Lib List

variable {φ ω η : Type}

/-! ## Ticks on time -/

structure Timed (φ : Type) where
  pipe : State φ
  deadline : Nat

def Timed.onTime (x : Timed φ) : Event ω η → Bool
  | .tick => x.pipe.now = x.deadline
  | .wait d => x.pipe.now + d ≤ x.deadline
  | _ => true

/-- `tokio::time::timeout(self.timeout / 4, ..)`. -/
def Timed.nextDeadline (timeout : Nat) (x : Timed φ) : Event ω η → Nat
  | .tick => x.pipe.now + timeout / 4
  | _ => x.deadline

def timedStep (F : UdpForwarder φ ω η) (timeout : Nat) (x : Timed φ) (ev : Event ω η) :
    Option (Timed φ) :=
  if x.onTime ev then
    (step F timeout x.pipe ev).map (fun s => { pipe := s, deadline := x.nextDeadline timeout ev })
  else none

def Timed.init (F : UdpForwarder φ ω η) (timeout : Nat) : Timed φ :=
  { pipe := UdpPipe.init F, deadline := timeout / 4 }

lemma timedStep_eq_some (h : timedStep F timeout x ev = some y) :
    x.onTime ev ∧ ∃ s, step F timeout x.pipe ev = some s ∧
      y = { pipe := s, deadline := x.nextDeadline timeout ev } := by
  obtain ⟨hok, h⟩ := Option.ite_none_right_eq_some.mp h
  obtain ⟨s, hs, rfl⟩ := Option.map_eq_some_iff.mp h
  exact ⟨hok, s, hs, rfl⟩

/-! ## Watching a flow -/

/-- `mark` was written down with the last entry; `last` is the last packet. -/
structure Watch where
  created : Bool
  mark : Nat
  last : Nat
  deriving DecidableEq

/-- A reply of `k` was read from the forwarder. -/
def comesIn (k : UdpDatagramMeta) (s s' : State φ) : Bool :=
  match s.right, s'.right with
  | .reading, .writing d => decide (d.flow.reversed = k)
  | _, _ => false

def Watch.next (F : UdpForwarder (Recorded φ) ω η) (k : UdpDatagramMeta)
    (x : Timed (Recorded φ)) (ev : Event ω η) (y : Timed (Recorded φ)) (w : Watch) : Watch :=
  { created := w.created || creates k x.pipe ev,
    mark := if creates k x.pipe ev then x.pipe.fwd.log.length else w.mark,
    last := if hasPacket F k x.pipe ev || comesIn k x.pipe y.pipe then x.pipe.now else w.last }

def Watch.start : Watch := { created := false, mark := 0, last := 0 }

/-- The pipe, its ticks and the observer of `k`. -/
def watched (F : UdpForwarder φ ω η) (timeout : Nat) (k : UdpDatagramMeta) :
    Timed (Recorded φ) × Watch → Event ω η → Option (Timed (Recorded φ) × Watch) :=
  observed (timedStep (recorded F) timeout) (Watch.next (recorded F) k)

def watchedInit (F : UdpForwarder φ ω η) (timeout : Nat) : Timed (Recorded φ) × Watch :=
  (Timed.init (recorded F) timeout, .start)

section Steps

variable {F : UdpForwarder φ ω η} {timeout : Nat} {k : UdpDatagramMeta}

lemma watched_eq_some (h : watched F timeout k x ev = some y) :
    x.1.onTime ev ∧ step (recorded F) timeout x.1.pipe ev = some y.1.pipe ∧
      y.1.deadline = x.1.nextDeadline timeout ev ∧ y.2 = x.2.next (recorded F) k x.1 ev y.1 := by
  obtain ⟨t, ht, rfl⟩ := observed_eq_some h
  obtain ⟨hok, s, hs, rfl⟩ := timedStep_eq_some ht
  exact ⟨hok, hs, rfl, rfl⟩

end Steps

/-! ## What a step leaves alone -/

section Frame

variable {F : UdpForwarder φ ω η} {timeout : Nat} {s s' : State φ}

@[simp] lemma leftWrite_now (s : State φ) (d : Downstream.UdpDatagram) :
    (leftWrite F s d).now = s.now := by
  unfold leftWrite
  split <;> rfl

@[simp] lemma flowOpened_now (s : State φ) (d : Downstream.UdpDatagram) :
    (flowOpened F s d).now = s.now := by
  unfold flowOpened
  split <;> simp [registerOutgoing]

lemma onDatagram_frame (d : Downstream.UdpDatagram) (socket : Except IoError Unit) :
    (onDatagram F s d socket).now = s.now ∧ (onDatagram F s d socket).right = s.right := by
  unfold onDatagram
  split
  · simp [registerOutgoing]
  · cases ho : F.onNewUdpConnection s.fwd d.flow socket <;> simp [entered]

lemma onOpened_frame (d : Downstream.UdpDatagram) (answer : ω) :
    (onOpened F s d answer).now = s.now ∧ (onOpened F s d answer).right = s.right := by
  unfold onOpened
  split <;> simp

lemma onSent_frame (d : Downstream.UdpDatagram) (r : Except IoError Unit) :
    (onSent F s d r).now = s.now ∧ (onSent F s d r).right = s.right := by
  cases r with
  | error => exact ⟨rfl, rfl⟩
  | ok =>
    simp only [onSent]
    split <;> exact ⟨rfl, rfl⟩

lemma onWritten_now (d : UdpDatagram) (r : Except IoError Unit) :
    (onWritten F s d r).now = s.now := by
  cases r with
  | error => rfl
  | ok =>
    simp only [onWritten]
    split
    · rfl
    · split <;> rfl

lemma step_now (h : step F timeout s ev = some s') :
    s'.now = s.now ∨ ∃ d, ev = .wait d ∧ s'.now = s.now + d := by
  cases next_of_step h with
  | datagram => exact .inl (onDatagram_frame _ _).1
  | clientError | started | tick => exact .inl rfl
  | opened => exact .inl (onOpened_frame _ _).1
  | sent => exact .inl (onSent_frame _ _).1
  | source _ hs =>
    obtain ⟨fwd, p, -, rfl⟩ := onSource_eq_some hs
    cases p <;> exact .inl rfl
  | written => exact .inl (onWritten_now _ _)
  | @wait d => exact .inr ⟨d, rfl, rfl⟩

end Frame

/-! ## How long an entry stays -/

/-- The next tick comes within five quarters of the timeout after the last packet. -/
structure Lingers (timeout : Nat) (k : UdpDatagramMeta) (x : Timed (Recorded φ) × Watch) :
    Prop where
  clock : x.1.pipe.now ≤ x.1.deadline
  period : x.1.deadline ≤ x.1.pipe.now + timeout / 4
  past : x.2.last ≤ x.1.pipe.now
  entry : ∀ c, x.1.pipe.udpConnections.lookup k = some c →
    c.lastActivity ≤ x.2.last ∧ x.1.deadline ≤ c.lastActivity + timeout + timeout / 4

section Lingers

variable {F : UdpForwarder φ ω η} {timeout : Nat} {k : UdpDatagramMeta}
  {x y : Timed (Recorded φ) × Watch} {ev : Event ω η}

lemma clock_step (hclock : x.1.pipe.now ≤ x.1.deadline)
    (hperiod : x.1.deadline ≤ x.1.pipe.now + timeout / 4) (h : watched F timeout k x ev = some y) :
    x.1.pipe.now ≤ y.1.pipe.now ∧ y.1.pipe.now ≤ y.1.deadline ∧
      y.1.deadline ≤ y.1.pipe.now + timeout / 4 ∧ (ev ≠ .tick → y.1.deadline = x.1.deadline) ∧
      (ev = .tick → y.1.deadline = x.1.pipe.now + timeout / 4) := by
  obtain ⟨ho, hs, hd, -⟩ := watched_eq_some h
  rcases step_now hs with hn | ⟨d, rfl, hn⟩
  · cases ev <;> simp only [Timed.nextDeadline, Timed.onTime, decide_eq_true_eq] at hd ho <;>
      refine ⟨by omega, by omega, by omega, ?_, ?_⟩ <;> simp_all
  · simp only [Timed.nextDeadline, Timed.onTime, decide_eq_true_eq] at hd ho
    refine ⟨by omega, by omega, by omega, fun _ => hd, fun h => by cases h⟩

lemma lingers_step (hx : Lingers timeout k x) (h : watched F timeout k x ev = some y) :
    Lingers timeout k y := by
  obtain ⟨hlater, hcl, hp, ho, htick⟩ := clock_step hx.clock hx.period h
  obtain ⟨-, hs, -, hw⟩ := watched_eq_some h
  have hpast := hx.past
  have hlast : x.2.last ≤ y.2.last ∧ y.2.last ≤ x.1.pipe.now := by
    rw [hw]
    simp only [Watch.next]
    split <;> omega
  have hdead : y.1.deadline ≤ x.1.pipe.now + timeout / 4 := by
    by_cases hev : ev = .tick
    · exact (htick hev).le
    · exact (ho hev).trans_le hx.period
  refine ⟨hcl, hp, by omega, fun c hc => ?_⟩
  rcases step_activity hs hc with ⟨hpa, hact⟩ | ⟨-, hold, hk⟩
  · have hnow : y.2.last = x.1.pipe.now := by
      rw [hw]
      simp [Watch.next, hpa]
    omega
  · have hentry := hx.entry c hold
    by_cases hev : ev = .tick
    · have hunexpired := hk hev
      omega
    · have hsame := ho hev
      omega

lemma lingers_of_reachable
    (h : Reachable (watched F timeout k) (watchedInit F timeout) x) : Lingers timeout k x := by
  refine reachable_invariant ?_ (fun x ev y hx hxy => lingers_step hx hxy) h
  exact ⟨Nat.zero_le _, by simp [watchedInit, Timed.init], Nat.zero_le _, fun c hc => by cases hc⟩

end Lingers

/-! ## The calls for a flow -/

def life (x : Timed (Recorded φ) × Watch) : List Call := x.1.pipe.fwd.log.drop x.2.mark

/-- A flow that had an entry is there, closed once, or reported closed. -/
structure Accounted (k : UdpDatagramMeta) (x : Timed (Recorded φ) × Watch) : Prop where
  mark : x.2.mark ≤ x.1.pipe.fwd.log.length
  present : x.2.created = true → k ∈ x.1.pipe.udpConnections →
    (life x).count (.closed k.reversed) = 0
  gone : x.2.created = true → k ∉ x.1.pipe.udpConnections →
    (life x).count (.closed k.reversed) = 1 ∨
      (life x).count (.closed k.reversed) = 0 ∧ .reported k ∈ life x

section Accounted

variable {F : UdpForwarder φ ω η} {timeout : Nat} {k : UdpDatagramMeta}
  {x y : Timed (Recorded φ) × Watch} {ev : Event ω η}

lemma life_step (hx : Accounted k x) (h : watched F timeout k x ev = some y)
    (hcreates : creates k x.1.pipe ev = false) (hl : y.1.pipe.fwd.log = x.1.pipe.fwd.log ++ news) :
    y.2.created = x.2.created ∧ y.2.mark ≤ y.1.pipe.fwd.log.length ∧ life y = life x ++ news := by
  obtain ⟨-, -, -, hw⟩ := watched_eq_some h
  have hm : y.2.mark = x.2.mark := by simp [hw, Watch.next, hcreates]
  refine ⟨by simp [hw, Watch.next, hcreates], ?_, ?_⟩
  · rw [hm, hl, length_append]
    exact hx.mark.trans (Nat.le_add_right _ _)
  · rw [life, life, hl, hm, drop_append_of_le_length hx.mark]

lemma accounted_stays (hx : Accounted k x) (h : watched F timeout k x ev = some y)
    (hlo : y.1.pipe.fwd.log = x.1.pipe.fwd.log ++ news) (hco : news.count (.closed k.reversed) = 0)
    (hc : x.1.pipe.udpConnections.lookup k = some c) (he : y.1.pipe.udpConnections.lookup k =
      if .reported k ∈ news then none else some c') : Accounted k y := by
  obtain ⟨hcr, hm, hl⟩ := life_step hx h (creates_of_lookup hc) hlo
  have hk : k ∈ x.1.pipe.udpConnections := Table.mem_of_lookup hc
  have hz : x.2.created → (life y).count (.closed k.reversed) = 0 := by
    intro hw
    rw [hl, count_append, hco, hx.present hw hk]
  refine ⟨hm, ?_, ?_⟩
  · exact fun hw _ => hz (hcr ▸ hw)
  · intro hw hg
    have hr := (mem_or_reported he).resolve_left hg
    refine .inr ⟨hz (hcr ▸ hw), ?_⟩
    rw [hl]
    exact mem_append_right _ hr

lemma accounted_closes (hx : Accounted k x) (h : watched F timeout k x ev = some y)
    (hlo : y.1.pipe.fwd.log = x.1.pipe.fwd.log ++ news) (hco : news.count (.closed k.reversed) = 1)
    (hc : x.1.pipe.udpConnections.lookup k = some c)
    (he : y.1.pipe.udpConnections.lookup k = none) : Accounted k y := by
  obtain ⟨hcr, hm, hl⟩ := life_step hx h (creates_of_lookup hc) hlo
  have hk : k ∈ x.1.pipe.udpConnections := Table.mem_of_lookup hc
  refine ⟨hm, ?_, ?_⟩
  · exact fun _ hs => absurd hs (AList.lookup_eq_none.mp he)
  · intro hw _
    refine .inl ?_
    rw [hl, count_append, hco, hx.present (hcr ▸ hw) hk]

lemma accounted_step (hx : Accounted k x) (h : watched F timeout k x ev = some y) :
    Accounted k y := by
  obtain ⟨-, hs, -, hw⟩ := watched_eq_some h
  obtain ⟨e, n, news, hf, hl, hco, he⟩ := step_fate k hs
  cases hf with
  | created hcreates =>
    have hm : y.2.mark = x.1.pipe.fwd.log.length := by simp [hw, Watch.next, hcreates]
    have hli : life y = news := by rw [life, hl, hm, drop_left]
    refine ⟨by rw [hm, hl, length_append]; omega, fun _ _ => by rw [hli, hco], ?_⟩
    intro _ hg
    rw [hli]
    exact .inr ⟨hco, (mem_or_reported he).resolve_left hg⟩
  | outgoing _ hc | reply _ hc => exact accounted_stays hx h hl hco hc he
  | completed _ hc _
  | expired _ hc => exact accounted_closes hx h hl hco hc (by rw [he, ite_self])
  | quiet hcreates =>
    cases hc : x.1.pipe.udpConnections.lookup k with
    | some =>
      rw [hc] at he
      exact accounted_stays hx h hl hco hc he
    | none =>
      obtain ⟨hcr, hm, hli⟩ := life_step hx h hcreates hl
      have hg : k ∉ y.1.pipe.udpConnections :=
        AList.lookup_eq_none.mp (by rw [he, hc, ite_self])
      refine ⟨hm, fun _ hst => absurd hst hg, ?_⟩
      intro hwa _
      rw [hli, count_append, hco, mem_append]
      exact (hx.gone (hcr ▸ hwa) (AList.lookup_eq_none.mp hc)).imp_right
        (fun hr => ⟨hr.1, .inl hr.2⟩)

lemma accounted_of_reachable
    (h : Reachable (watched F timeout k) (watchedInit F timeout) x) : Accounted k x := by
  refine reachable_invariant ?_ (fun x ev y hx hxy => accounted_step hx hxy) h
  exact ⟨Nat.le_refl _, (fun h => by cases h), (fun h => by cases h)⟩

end Accounted

/-! ## No early expiry -/

/-- The last packet of `k` is registered, or is the reply at hand. -/
def Registered (k : UdpDatagramMeta) (x : Timed (Recorded φ) × Watch) : Prop :=
  ∀ c, x.1.pipe.udpConnections.lookup k = some c →
    x.2.last ≤ c.lastActivity ∨ ∃ d, x.1.pipe.right = .writing d ∧ d.flow.reversed = k

section Early

variable {F : UdpForwarder φ ω η} {timeout : Nat} {k : UdpDatagramMeta}
  {x y : Timed (Recorded φ) × Watch} {ev : Event ω η}

lemma comesIn_eq_true (h : comesIn k s s') :
    ∃ d, s'.right = .writing d ∧ d.flow.reversed = k := by
  unfold comesIn at h
  split at h
  · rename_i d hreading hd
    exact ⟨d, hd, of_decide_eq_true h⟩
  · cases h

lemma registered_step (hx : Registered k x) (h : watched F timeout k x ev = some y) :
    Registered k y := by
  obtain ⟨-, hs, -, hw⟩ := watched_eq_some h
  intro c hc
  rcases step_activity hs hc with ⟨hp, ha⟩ | ⟨hn, hold, -⟩
  · refine .inl ?_
    simp [hw, Watch.next, hp, ha]
  · cases hin : comesIn k x.1.pipe y.1.pipe with
    | true => exact .inr (comesIn_eq_true hin)
    | false =>
      have hl : y.2.last = x.2.last := by simp [hw, Watch.next, hn, hin]
      rw [hl]
      rcases hx c hold with hle | ⟨d, hd, hk⟩
      · exact .inl hle
      · -- the answer to the reply registers it, or ends `exchange`
        obtain ⟨r, rfl, hy⟩ := written_of_step hs hd
        cases r with
        | ok => simp [hasPacket, answers, hd, hk, hold] at hn
        | error => exact .inr ⟨d, by rw [hy]; exact hd, hk⟩

lemma registered_of_reachable
    (h : Reachable (watched F timeout k) (watchedInit F timeout) x) : Registered k x := by
  refine reachable_invariant ?_ (fun x ev y hx hxy => registered_step hx hxy) h
  exact fun c hc => by cases hc

/-- **Expiry of idle flows.** A tick expires only flows without a packet within the timeout, and
one without a packet for five quarters of it is gone and was closed once, or reported. -/
theorem idle_expiry (F : UdpForwarder φ ω η) (timeout : Nat) (k : UdpDatagramMeta) :
    (∀ x y, Reachable (watched F timeout k) (watchedInit F timeout) x →
      watched F timeout k x .tick = some y → k ∈ x.1.pipe.udpConnections →
      x.1.pipe.now ≤ x.2.last + timeout → k ∈ y.1.pipe.udpConnections) ∧
    ∀ x, Reachable (watched F timeout k) (watchedInit F timeout) x → x.2.created = true →
      4 * x.2.last + 5 * timeout ≤ 4 * x.1.pipe.now →
      (4 * x.2.last + 5 * timeout = 4 * x.1.pipe.now → x.1.pipe.now < x.1.deadline) →
      k ∉ x.1.pipe.udpConnections ∧ ((life x).count (.closed k.reversed) = 1 ∨
          (life x).count (.closed k.reversed) = 0 ∧ .reported k ∈ life x) := by
  constructor
  · intro x y hx hxy hm hnow
    obtain ⟨-, hs, -, -⟩ := watched_eq_some hxy
    obtain ⟨c, hc⟩ := Table.exists_lookup hm
    have hlast : x.2.last ≤ c.lastActivity := by
      rcases registered_of_reachable hx c hc with hle | ⟨d, hd, -⟩
      · exact hle
      · obtain ⟨r, hr, -⟩ := written_of_step hs hd
        cases hr
    have hy := next_of_step hs
    generalize y.1.pipe = s' at hy ⊢
    cases hy with
    | tick =>
      refine (Table.mem_eraseAll _ _ k).mpr ⟨fun he => ?_, hm⟩
      obtain ⟨c', hc', hlate⟩ := mem_expired.mp he
      cases hc.symm.trans hc'
      simp only at hlate
      omega
  · intro x hx hcr hidle hdue
    have hl := lingers_of_reachable hx
    have hg : k ∉ x.1.pipe.udpConnections := by
      intro hm
      obtain ⟨c, hc⟩ := Table.exists_lookup hm
      have hentry := hl.entry c hc
      have hclock := hl.clock
      omega
    exact ⟨hg, (accounted_of_reachable hx).gone hcr hg⟩

end Early

def talk : Downstream.UdpDatagram :=
  ⟨⟨.v4 ⟨10, 0, 0, 2⟩ 4000, .v4 ⟨9, 9, 9, 9⟩ 443, none⟩, [1]⟩

/-- The socket of the flow is refused, and five ticks follow. -/
def brokenFlow : List (Event Empty UdpForwarder.PollEvent) :=
  [.started, .datagram talk (.ok ()), .sent (.ok ()), .source .woken,
    .source (.pendingRead talk.key (.error (.ofKind .connectionRefused)))] ++
    (replicate 5 [.wait 30, .tick]).flatten

/-- Its source has reported it, so nothing closes it. -/
theorem brokenFlow_unclosed :
    (run (watched (UdpForwarder.multiplexer (.guarded true)) 120 talk.key)
      (watchedInit (UdpForwarder.multiplexer (.guarded true)) 120) brokenFlow).map
        (fun x => (x.1.pipe.now, x.1.pipe.returned, x.2,
          (x.1.pipe.udpConnections.lookup talk.key).isSome, x.1.pipe.fwd.log)) =
      some (150, none, ⟨true, 0, 0⟩, false, [.reported talk.key]) := by
  decide +kernel

end TrustTunnel.UdpPipe
