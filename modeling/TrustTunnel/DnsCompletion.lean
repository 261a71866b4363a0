import TrustTunnel.UdpFlow
import TrustTunnel.UdpForwarder

/-!
# When a DNS flow is complete (`udp_pipe.rs`)

A flow to port 53 is closed by the reply after which no query is pending.
-/

namespace TrustTunnel.UdpPipe

open Forwarder Lib UdpConnection

variable {φ ω η : Type}

/-! ## Counting -/

/-- The datagrams and replies of a flow since its entry was made. -/
structure Tally where
  outgoing : Nat
  replies : Nat
  deriving DecidableEq

def Tally.next (F : UdpForwarder φ ω η) (k : UdpDatagramMeta) (s : State φ) (ev : Event ω η)
    (_ : State φ) (t : Tally) : Tally :=
  let since := if creates k s ev then ⟨0, 0⟩ else t
  { outgoing := since.outgoing + (registers F k s ev).toNat,
    replies := since.replies + (answers k s ev).toNat }

section Packets

variable {F : UdpForwarder φ ω η} {k : UdpDatagramMeta} {s : State φ} {ev : Event ω η}

lemma answers_of_creates (h : creates k s ev) : answers k s ev = false := by
  cases ev <;> first | rfl | cases h

lemma answers_of_registers (h : registers F k s ev) : answers k s ev = false := by
  cases ev <;> first | rfl | cases h

lemma registers_of_answers (h : answers k s ev) : registers F k s ev = false := by
  cases ev <;> first | rfl | cases h

lemma registerIncomingPacket_continue {c c' : UdpConnection}
    (h : c.registerIncomingPacket now = (c', .continue)) :
    c.plainDnsInfo = none ∧ c'.plainDnsInfo = none ∨
      ∃ n, 1 < n ∧ c.plainDnsInfo = some n ∧ c'.plainDnsInfo = some (n - 1) := by
  unfold registerIncomingPacket at h
  split at h
  · rename_i hi
    cases h
    exact .inl ⟨hi, hi⟩
  · rename_i n hi
    split at h
    · cases h
    · cases h
      exact .inr ⟨n, by omega, hi, rfl⟩

lemma registerIncomingPacket_done {c : UdpConnection}
    (h : c.registerIncomingPacket now = (c', .done)) : ∃ n, n ≤ 1 ∧ c.plainDnsInfo = some n := by
  unfold registerIncomingPacket at h
  split at h
  · cases h
  · rename_i n hi
    split at h
    · exact ⟨n, by omega, hi⟩
    · cases h

end Packets

/-! ## The pending queries -/

/-- A flow to port 53 has their difference as pending queries, any other none. -/
def Tallied (k : UdpDatagramMeta) (x : State φ × Tally) : Prop :=
  ∀ c, x.1.udpConnections.lookup k = some c →
    c.plainDnsInfo = none ∧ k.destination.port ≠ plainDnsPortNumber ∨
      ∃ n, c.plainDnsInfo = some n ∧ x.2.replies + n = x.2.outgoing ∧
        k.destination.port = plainDnsPortNumber

section Runs

variable {F : UdpForwarder φ ω η} {timeout : Nat} {k : UdpDatagramMeta}

lemma step_tallied {t : Tally}
    (h : step (recorded F) timeout s ev = some s') (ht : Tallied k (s, t)) :
    Tallied k (s', t.next (recorded F) k s ev s') := by
  obtain ⟨e, n, news, hf, -, -, he⟩ := step_fate k h
  intro c' hc'
  rw [he] at hc'
  split at hc'
  · cases hc'
  cases hf with
  | created hcreates =>
    have hanswers := answers_of_creates hcreates
    simp only [Tally.next, hcreates, hanswers, if_true, Bool.toNat_false]
    by_cases hp : k.destination.port = plainDnsPortNumber <;>
      cases hregisters : registers (recorded F) k s ev <;>
      simp only [hregisters, if_true, if_false, Bool.false_eq_true, Option.some.injEq] at hc' <;>
      simp [← hc', new, registerOutgoingPacket, hp]
  | @outgoing c hregisters hc =>
    cases hc'
    have hanswers := answers_of_registers hregisters
    simp only [Tally.next, creates_of_lookup hc, hregisters, hanswers, Bool.toNat_false,
      Bool.toNat_true]
    rcases ht c hc with ⟨hi, hp⟩ | ⟨n, hi, hn, hp⟩
    · exact .inl ⟨by simp [registerOutgoingPacket, hi], hp⟩
    · refine .inr ⟨n + 1, by simp [registerOutgoingPacket, hi], ?_, hp⟩
      simp only [Bool.false_eq_true, if_false] at hn ⊢
      omega
  | @reply c c1 hanswers hc hr =>
    cases hc'
    simp only [Tally.next, creates_of_lookup hc, registers_of_answers hanswers, hanswers,
      Bool.toNat_false, Bool.toNat_true]
    rcases ht c hc with ⟨hi, hp⟩ | ⟨n, hi, hn, hp⟩ <;>
      rcases registerIncomingPacket_continue hr with ⟨hold, hne⟩ | ⟨m, hm, hold, hne⟩
    · exact .inl ⟨hne, hp⟩
    · rw [hi] at hold
      cases hold
    · rw [hi] at hold
      cases hold
    · rw [hi] at hold
      cases hold
      refine .inr ⟨n - 1, hne, ?_, hp⟩
      simp only [Bool.false_eq_true, if_false] at hn ⊢
      omega
  | completed | expired => cases hc'
  | quiet hcreates hregisters hanswers =>
    simp only [Tally.next, hcreates, hregisters, hanswers, Bool.toNat_false]
    exact ht c' hc'

lemma tallied_of_reachable
    (h : Reachable (observed (step (recorded F) timeout) (Tally.next (recorded F) k))
      (init (recorded F), ⟨0, 0⟩) (s, t)) : Tallied k (s, t) := by
  have hi : Tallied k (init (recorded F), ⟨0, 0⟩) := by
    intro c hc
    cases hc
  have hst : ∀ x ev y, Tallied k x →
      observed (step (recorded F) timeout) (Tally.next (recorded F) k) x ev = some y →
      Tallied k y := by
    rintro ⟨s, t⟩ ev y hx h
    obtain ⟨s', hs, rfl⟩ := observed_eq_some h
    exact step_tallied hs hx
  exact reachable_invariant hi hst h

/-- **Completion of DNS flows.** `t` is the tally before the step. -/
theorem reply_closes_iff {s s' : State (Recorded φ)} {ev : Event ω η} {t : Tally}
    (h : Reachable (observed (step (recorded F) timeout) (Tally.next (recorded F) k))
      (init (recorded F), ⟨0, 0⟩) (s, t))
    (hstep : step (recorded F) timeout s ev = some s') :
    ∃ news, s'.fwd.log = s.fwd.log ++ news ∧ (k.destination.port = plainDnsPortNumber →
        ∀ d u, s.right = .writing d → ev = .written (.ok u) → d.flow.reversed = k →
          k ∈ s.udpConnections →
          if t.outgoing ≤ t.replies + 1 then
            k ∉ s'.udpConnections ∧ news.count (.closed d.flow) = 1
          else
            (k ∈ s'.udpConnections ∨ .reported k ∈ news) ∧ .closed d.flow ∉ news) ∧
      (k.destination.port ≠ plainDnsPortNumber → ev ≠ .tick →
        (k ∈ s.udpConnections → k ∈ s'.udpConnections ∨ .reported k ∈ news) ∧
          .closed k.reversed ∉ news) := by
  have ht := tallied_of_reachable h
  obtain ⟨e, n, news, hf, hl, hco, he⟩ := step_fate k hstep
  refine ⟨news, hl, ?_, ?_⟩
  · rintro hpo d u hr rfl rfl hk
    obtain ⟨c, hc⟩ := Table.exists_lookup hk
    obtain ⟨p, hi, hp⟩ : ∃ p, c.plainDnsInfo = some p ∧ t.replies + p = t.outgoing := by
      rcases ht c hc with ⟨-, ho⟩ | ⟨p, hi, hp, -⟩
      · exact absurd hpo ho
      · exact ⟨p, hi, hp⟩
    cases hf with
    | created hcreates =>
      rw [creates_of_lookup hc] at hcreates
      cases hcreates
    | outgoing hregisters => cases hregisters
    | @reply c0 c' _ hc0 hre =>
      cases hc.symm.trans hc0
      rcases registerIncomingPacket_continue hre with ⟨hn, -⟩ | ⟨m, hm, hs, -⟩
      · rw [hi] at hn
        cases hn
      · cases hi.symm.trans hs
        rw [if_neg (by omega)]
        exact ⟨mem_or_reported he, List.count_eq_zero.mp hco⟩
    | @completed c0 c' _ hc0 hre =>
      cases hc.symm.trans hc0
      obtain ⟨m, hm, hs⟩ := registerIncomingPacket_done hre
      cases hi.symm.trans hs
      rw [if_pos (by omega)]
      refine ⟨AList.lookup_eq_none.mp ?_, hco⟩
      rw [he, ite_self]
    | expired htick => cases htick
    | quiet _ _ hanswers => simp [answers, hr, hc] at hanswers
  · intro hpo htick
    cases hf with
    | created _ | outgoing _ _
    | reply => exact ⟨fun _ => mem_or_reported he, List.count_eq_zero.mp hco⟩
    | @completed c c' _ hc hre =>
      -- such a flow has no queries to complete
      obtain ⟨m, -, hs⟩ := registerIncomingPacket_done hre
      rcases ht c hc with ⟨hi, -⟩ | ⟨p, -, -, hd⟩
      · rw [hi] at hs
        cases hs
      · exact absurd hd hpo
    | expired h => exact absurd h htick
    | quiet =>
      refine ⟨fun hk => ?_, List.count_eq_zero.mp hco⟩
      obtain ⟨c, hc⟩ := Table.exists_lookup hk
      rw [hc] at he
      exact mem_or_reported he

end Runs

def query : Downstream.UdpDatagram :=
  ⟨⟨.v4 ⟨10, 0, 0, 2⟩ 4000, .v4 ⟨9, 9, 9, 9⟩ 53, none⟩, [1]⟩

/-- The second answer is being handed to the client. -/
def twoQueries : List (Event Empty UdpForwarder.PollEvent) :=
  [.started, .datagram query (.ok ()), .sent (.ok ()), .source .woken,
    .datagram query (.ok ()), .sent (.ok ()), .source (.pendingRead query.key (.ok [2])),
    .written (.ok ()), .source (.pendingRead query.key (.ok [3]))]

abbrev direct : UdpForwarder (Recorded UdpForwarder.Multiplexer) Empty UdpForwarder.PollEvent :=
  recorded (UdpForwarder.multiplexer (.guarded true))

/-- The second answer closes the flow. -/
theorem twoQueries_closed : ∃ s s' : State (Recorded UdpForwarder.Multiplexer),
    Reachable (observed (step direct 120) (Tally.next direct query.key)) (init direct, ⟨0, 0⟩)
      (s, ⟨2, 1⟩) ∧ step direct 120 s (.written (.ok ())) = some s' ∧
    query.key ∉ s'.udpConnections ∧ ∃ news, s'.fwd.log = s.fwd.log ++ news ∧
      news.count (.closed query.key.reversed) = 1 := by
  have hru : (run (observed (step direct 120) (Tally.next direct query.key))
      (init direct, ⟨0, 0⟩) twoQueries).map
        (fun x => (x.2, x.1.right, (x.1.udpConnections.lookup query.key).isSome,
          (step direct 120 x.1 (.written (.ok ()))).isSome)) =
      some (⟨2, 1⟩, .writing ⟨query.key.reversed, [3]⟩, true, true) := by decide +kernel
  obtain ⟨⟨s, t⟩, hs, heq⟩ := Option.map_eq_some_iff.mp hru
  simp only [Prod.mk.injEq] at heq
  obtain ⟨rfl, hr, hm, hst⟩ := heq
  obtain ⟨s', hs'⟩ := Option.isSome_iff_exists.mp hst
  obtain ⟨news, hl, hre, -⟩ := reply_closes_iff ⟨twoQueries, hs⟩ hs'
  have hc := hre rfl _ () hr rfl rfl (AList.lookup_isSome.mp hm)
  rw [if_pos (by decide)] at hc
  exact ⟨s, s', ⟨twoQueries, hs⟩, hs', hc.1, news, hl, hc.2⟩

end TrustTunnel.UdpPipe
