import TrustTunnel.Lib.Runs
import TrustTunnel.QuicMultiplexer

/-!
# The timers of the QUIC multiplexer

A deadline is set by the connection that the first packet of a read under an id went to. Proved:

* `closestFirst_step`: every step keeps the closest deadline;
* `followed_readPackets`: that connection is the one in the table, unless one that was not kept is
  followed by another;
* `timers_armed`: without such reads every connection with a timeout has a deadline.
-/

namespace TrustTunnel.QuicMultiplexer

open Io Lib AList List Table

/-- The ids under which something is processed. -/
def processed (x : Network) (tokenPrefix : TokenPrefix) (m : Multiplexer) : Event → List Bytes
  | .timeouts now _ => timedout m now
  | .udpRead packets _ => (readBatch x tokenPrefix m packets).pending.keys
  | .message (.refreshDeadline connId) _ => [connId]
  | .message (.close _) _ => []
  | .removeClosed _ => []

def Event.readings : Event → Nat → Reading
  | .timeouts _ readings => readings
  | .udpRead _ readings => readings
  | .message _ readings => readings
  | .removeClosed _ => fun _ => ⟨0, none⟩

def Event.timed (event : Event) (conn : Connection) : Bool :=
  (event.readings conn.quicConn).timeout.isSome

/-- The ids whose connection had a timeout when last processed. -/
def noteTimeouts (x : Network) (tokenPrefix : TokenPrefix) (m : Multiplexer) (event : Event)
    (m' : Multiplexer) (hadTimeout : Bytes → Bool) (connId : Bytes) : Bool :=
  if connId ∈ processed x tokenPrefix m event then (m'.connections.lookup connId).any event.timed
  else hadTimeout connId

def ClosestFirst (m : Multiplexer) : Prop :=
  ∀ connId deadline, m.deadlines.lookup connId = some deadline →
    ∃ closest, m.closestDeadline = some closest ∧ closest ≤ deadline

def Armed (m : Multiplexer) (hadTimeout : Bytes → Bool) : Prop :=
  ∀ connId, connId ∈ m.connections → hadTimeout connId = true → connId ∈ m.deadlines

/-- **The promise.** -/
structure TimersArmed (c : Multiplexer × (Bytes → Bool)) : Prop where
  closest : ClosestFirst c.1
  armed : Armed c.1 c.2

/-- `p` establishes a connection that gets no session and is not kept, and `q` opens another under
its id. -/
def Packet.Displaces (p q : Packet) : Prop :=
  q.header.dcid = p.header.dcid ∧ p.answer.isEstablished = true ∧ p.answer.withTransport = false ∧
    q.header.ty = .initial ∧ q.answer.accept = true ∧ q.answer.recv = true

/-- Every connection has a timeout, or no packet of the read displaces a connection. -/
def Event.Calm : Event → Prop
  | .udpRead packets readings => (∀ quicConn, (readings quicConn).timeout.isSome = true) ∨
      packets.Pairwise (fun p q => ¬ p.Displaces q)
  | _ => True

/-! ## The closest deadline -/

lemma closestFirst_of_min (h : m.closestDeadline = minDeadline m.deadlines) : ClosestFirst m := by
  intro connId deadline hl
  have hm : deadline ∈ m.deadlines.entries.map (fun entry => entry.2) :=
    mem_map.mpr ⟨⟨connId, deadline⟩, mem_lookup_iff.mp hl, rfl⟩
  rw [h]
  cases hmi : minDeadline m.deadlines with
  | none =>
    rw [minDeadline, min?_eq_none_iff] at hmi
    rw [hmi] at hm
    cases hm
  | some closest => exact ⟨closest, rfl, (min?_eq_some_iff.mp hmi).2 deadline hm⟩

lemma closestFirst_of_fewer (hm : ClosestFirst m)
    (hf : ∀ connId deadline, m'.deadlines.lookup connId = some deadline →
      m.deadlines.lookup connId = some deadline)
    (hc : m'.closestDeadline = m.closestDeadline) : ClosestFirst m' := by
  intro connId deadline hl
  rw [hc]
  exact hm connId deadline (hf connId deadline hl)

/-! ## Deadlines that are set -/

section

variable (readings : Nat → Reading)

lemma mem_setDeadline {m : Multiplexer} {connId id : Bytes} {quicConn : Nat} :
    id ∈ (setDeadline readings m connId quicConn).deadlines ↔
      id = connId ∧ (readings quicConn).timeout.isSome ∨ id ∈ m.deadlines := by
  unfold setDeadline
  cases (readings quicConn).timeout with
  | none => simp
  | some => simp [updateConnectionDeadline]

lemma connections_setDeadline (m : Multiplexer) (connId : Bytes) (quicConn : Nat) :
    (setDeadline readings m connId quicConn).connections = m.connections := by
  unfold setDeadline
  split <;> rfl

lemma foldl_setDeadline (entries : List (Sigma fun _ : Bytes => Nat)) (m : Multiplexer) :
    let m' := entries.foldl (fun m entry => setDeadline readings m entry.1 entry.2) m
    (ClosestFirst m → ClosestFirst m') ∧ m'.connections = m.connections ∧ ∀ id, id ∈ m'.deadlines ↔
        (∃ entry ∈ entries, id = entry.1 ∧ (readings entry.2).timeout.isSome = true) ∨
          id ∈ m.deadlines := by
  induction entries generalizing m with
  | nil => simp
  | cons entry entries ih =>
    obtain ⟨hc, hco, hme⟩ := ih (setDeadline readings m entry.1 entry.2)
    refine ⟨fun hm => hc ?_, ?_, fun id => ?_⟩
    · unfold setDeadline
      split
      · exact closestFirst_of_min rfl
      · exact hm
    · rw [foldl_cons, hco, connections_setDeadline]
    · rw [foldl_cons, hme, mem_setDeadline, exists_mem_cons_iff, ← or_assoc,
        or_comm (a := ∃ entry ∈ entries, _)]

lemma foldl_onTimeout (connIds : List Bytes) (m : Multiplexer) :
    let m' := connIds.foldl (onTimeout readings) m
    m'.connections = m.connections ∧ ∀ id, id ∈ m'.deadlines ↔
      id ∈ connIds ∧ (∃ conn, m.connections.lookup id = some conn ∧
        (readings conn.quicConn).timeout.isSome = true) ∨ id ∉ connIds ∧ id ∈ m.deadlines := by
  induction connIds generalizing m with
  | nil => simp
  | cons connId connIds ih =>
    have ho : (onTimeout readings m connId).connections = m.connections ∧
        ∀ id, id ∈ (onTimeout readings m connId).deadlines ↔
          id = connId ∧ (∃ conn, m.connections.lookup connId = some conn ∧
            (readings conn.quicConn).timeout.isSome = true) ∨ id ≠ connId ∧ id ∈ m.deadlines := by
      unfold onTimeout
      cases hc : m.connections.lookup connId with
      | none => simp [hc]
      | some => simp [hc, mem_setDeadline, connections_setDeadline]
    obtain ⟨hco, hm⟩ := ih (onTimeout readings m connId)
    refine ⟨by rw [foldl_cons, hco, ho.1], fun id => ?_⟩
    rw [foldl_cons, hm, ho.1, ho.2]
    by_cases hid : id = connId
    · subst hid
      by_cases hr : id ∈ connIds <;> simp [hr]
    · simp [hid]

end

/-! ## The packets of one read -/

/-- Ids not touched keep their connection and deadline, and no deadline is new. -/
structure Touches (touched : Bytes → Prop) (m m' : Multiplexer) : Prop where
  others : ∀ id, ¬ touched id → m'.connections.lookup id = m.connections.lookup id ∧
    m'.deadlines.lookup id = m.deadlines.lookup id
  fewer : ∀ id deadline, m'.deadlines.lookup id = some deadline →
    m.deadlines.lookup id = some deadline
  closest : m'.closestDeadline = m.closestDeadline

section

variable {m m' : Multiplexer} {packet : Packet} {tokenPrefix : TokenPrefix} {handled : Handled}

lemma touches_same (touched : Bytes → Prop)
    (ho : ∀ id, ¬ touched id → m'.connections.lookup id = m.connections.lookup id)
    (hd : m'.deadlines = m.deadlines) (hc : m'.closestDeadline = m.closestDeadline) :
    Touches touched m m' :=
  ⟨fun id hid => ⟨ho id hid, by rw [hd]⟩, fun _ _ h => hd ▸ h, hc⟩

def Handled.quicConn : Handled → Nat
  | socket quicConn => quicConn
  | background quicConn => quicConn

/-- **One packet** touches nothing but its id. It leaves the connection it went to there, or none
if that one is established without a session, and has found it there or opened it. -/
lemma packet_spec (h : onQuicPacket x tokenPrefix m packet = some (m', handled)) :
    Touches (· = packet.header.dcid) m m' ∧
    ((∃ conn, m'.connections.lookup packet.header.dcid = some conn ∧
        conn.quicConn = handled.quicConn) ∨
      m'.connections.lookup packet.header.dcid = none ∧ packet.answer.isEstablished = true ∧
        packet.answer.withTransport = false) ∧
    ((∃ conn, m.connections.lookup packet.header.dcid = some conn ∧
        conn.quicConn = handled.quicConn) ∨
      m.connections.lookup packet.header.dcid = none ∧ packet.header.ty = .initial ∧
        packet.answer.accept = true ∧ packet.answer.recv = true) := by
  have hsame : Touches (· = packet.header.dcid) m m := touches_same _ (fun _ _ => rfl) rfl rfl
  unfold onQuicPacket at h
  simp only at h
  split at h
  · rename_i hn
    split at h
    · rename_i hu
      have hty : packet.header.ty = .initial := by
        by_contra hne
        rw [onUnknownQuicPacket, if_pos hne] at hu
        cases hu
      unfold onNewConnection finalizeEstablishedConnection at h
      split at h
      · cases h
      · obtain ⟨ha, h⟩ := Option.ite_none_left_eq_some.mp h
        simp only [Bool.or_eq_true, Bool.not_eq_true', not_or, Bool.not_eq_false] at ha
        rw [← and_assoc]
        refine ⟨?_, .inr ⟨hn, hty, ha⟩⟩
        by_cases he : packet.answer.isEstablished
        · cases ht : packet.answer.withTransport <;> simp only [he, ht, if_true, Bool.false_eq_true,
            if_false, Option.some.injEq, Prod.mk.injEq] at h <;> obtain ⟨rfl, rfl⟩ := h
          · exact ⟨touches_same _ (fun _ _ => rfl) rfl rfl, .inr ⟨hn, he, rfl⟩⟩
          · exact ⟨touches_same _ (fun id hid => lookup_insert_ne hid) rfl rfl,
              .inl ⟨_, lookup_insert _, rfl⟩⟩
        · rw [if_neg he] at h
          cases h
          exact ⟨touches_same _ (fun id hid => lookup_insert_ne hid) rfl rfl,
            .inl ⟨_, lookup_insert _, rfl⟩⟩
    · cases h
    · cases h
  · rename_i hc
    split at h
    · rename_i hp
      have he : packet.answer.isEstablished = true := by
        by_contra hne
        simp [proceedHandshake, Bool.eq_false_of_not_eq_true hne] at hp
      -- the deadline is removed, and the connection too if it is not made a socket
      have hf : ∀ id deadline, (m.deadlines.erase packet.header.dcid).lookup id = some deadline →
          m.deadlines.lookup id = some deadline := fun _ _ h => (lookup_erase_cases h).2
      unfold finalizeEstablishedConnection at h
      cases ht : packet.answer.withTransport <;> simp only [ht, if_true, Bool.false_eq_true,
        if_false, Option.some.injEq, Prod.mk.injEq] at h <;> obtain ⟨rfl, rfl⟩ := h
      · exact ⟨⟨fun id hid => ⟨lookup_erase_ne hid, lookup_erase_ne hid⟩, hf, rfl⟩,
          .inr ⟨lookup_erase _ _, he, rfl⟩, .inl ⟨_, hc, rfl⟩⟩
      · refine ⟨⟨fun id hid => ⟨?_, lookup_erase_ne hid⟩, hf, rfl⟩,
          .inl ⟨_, lookup_insert _, rfl⟩, .inl ⟨_, hc, rfl⟩⟩
        exact (lookup_insert_ne hid).trans (lookup_erase_ne hid)
    · cases h
      exact ⟨hsame, .inl ⟨_, hc, rfl⟩, .inl ⟨_, hc, rfl⟩⟩
    · cases h
      exact ⟨hsame, .inl ⟨_, hc, rfl⟩, .inl ⟨_, hc, rfl⟩⟩
  · rename_i hc
    cases h
    exact ⟨hsame, .inl ⟨_, hc, rfl⟩, .inl ⟨_, hc, rfl⟩⟩

lemma touches_note {b : Batch}
    (hb : Touches (· ∈ b.pending) m b.mux) (h : Touches (· = connId) b.mux mux) (quicConn : Nat) :
    Touches (· ∈ (b.note mux connId quicConn).pending) m mux := by
  have hm : ∀ id, id ∉ (b.note mux connId quicConn).pending → id ≠ connId ∧ id ∉ b.pending := by
    intro id hid
    simp only [Batch.note] at hid
    split at hid
    · rename_i hc
      exact ⟨fun heq => hid (heq ▸ hc), hid⟩
    · simpa [not_or] using hid
  refine ⟨fun id hid => ?_, fun id deadline hl => ?_, h.closest.trans hb.closest⟩
  · obtain ⟨hne, hold⟩ := hm id hid
    exact ⟨(h.others id hne).1.trans (hb.others id hold).1,
      (h.others id hne).2.trans (hb.others id hold).2⟩
  · exact hb.fewer id deadline (h.fewer id deadline hl)

/-- **The packets of one read** touch the ids that are pending. -/
lemma touches_readPackets (packets : List Packet) {b : Batch}
    (hb : Touches (· ∈ b.pending) m b.mux) :
    Touches (· ∈ (readPackets x tokenPrefix b packets).pending) m
      (readPackets x tokenPrefix b packets).mux := by
  induction packets generalizing b with
  | nil => exact hb
  | cons packet packets ih =>
    rw [readPackets]
    split
    · exact ih hb
    · rename_i h
      exact touches_note hb (packet_spec h).1 _
    · rename_i h
      exact ih (touches_note hb (packet_spec h).1 _)

lemma touches_readBatch (x : Network) (tokenPrefix : TokenPrefix) (m : Multiplexer)
    (packets : List Packet) : Touches (· ∈ (readBatch x tokenPrefix m packets).pending) m
      (readBatch x tokenPrefix m packets).mux :=
  touches_readPackets _ (touches_same _ (fun _ _ => rfl) rfl rfl)

end

/-- The connection noted for an id is the one in the table, or a packet has left none. -/
def Followed (seen : List Packet) (b : Batch) : Prop :=
  ∀ id first, b.pending.lookup id = some first →
    (∃ conn, b.mux.connections.lookup id = some conn ∧ conn.quicConn = first) ∨
      b.mux.connections.lookup id = none ∧ ∃ p ∈ seen, p.header.dcid = id ∧
        p.answer.isEstablished = true ∧ p.answer.withTransport = false

section

variable {x : Network} {tokenPrefix : TokenPrefix} {b : Batch} {m m' : Multiplexer}
  {packet : Packet} {handled : Handled} {seen : List Packet}

lemma followed_note (hb : Followed seen b)
    (hs : ∀ p ∈ seen, ¬ p.Displaces packet)
    (h : onQuicPacket x tokenPrefix b.mux packet = some (m', handled)) :
    Followed (packet :: seen) (b.note m' packet.header.dcid handled.quicConn) := by
  obtain ⟨hafter, hbefore⟩ := (packet_spec h).2
  intro id first hf
  by_cases hid : id = packet.header.dcid
  · subst hid
    -- a connection that was noted before is the one the packet went to
    have hq : first = handled.quicConn := by
      simp only [Batch.note] at hf
      split at hf
      · rcases hbefore with ⟨conn, hc, hq⟩ | ⟨hn, hty, hacc, hrecv⟩
        · rcases hb _ _ hf with ⟨conn', hc', hq'⟩ | ⟨hn, -⟩
          · cases hc.symm.trans hc'
            exact hq'.symm.trans hq
          · cases hc.symm.trans hn
        · rcases hb _ _ hf with ⟨conn', hc', -⟩ | ⟨-, p, hp, hd, he, ht⟩
          · cases hn.symm.trans hc'
          · exact absurd ⟨hd.symm, he, ht, hty, hacc, hrecv⟩ (hs p hp)
      · rw [lookup_insert] at hf
        exact (Option.some.inj hf).symm
    rw [hq]
    exact hafter.imp_right (fun ha => ⟨ha.1, packet, mem_cons_self, rfl, ha.2⟩)
  · have hold : b.pending.lookup id = some first := by
      simp only [Batch.note] at hf
      split at hf
      · exact hf
      · rwa [lookup_insert_ne hid] at hf
    have hc := ((packet_spec h).1.others id hid).1
    simp only [Batch.note, hc]
    refine (hb id first hold).imp_right ?_
    rintro ⟨hn, p, hp, ht⟩
    exact ⟨hn, p, mem_cons_of_mem _ hp, ht⟩

lemma followed_readPackets (x : Network) (tokenPrefix : TokenPrefix) (packets : List Packet)
    (hb : Followed seen b)
    (hs : ∀ p ∈ seen, ∀ q ∈ packets, ¬ p.Displaces q)
    (hp : packets.Pairwise (fun p q => ¬ p.Displaces q)) :
    ∃ seen, Followed seen (readPackets x tokenPrefix b packets) := by
  induction packets generalizing b seen with
  | nil => exact ⟨seen, hb⟩
  | cons packet packets ih =>
    obtain ⟨hpa, hp⟩ := pairwise_cons.mp hp
    have hnow : ∀ p ∈ seen, ¬ p.Displaces packet := fun p h => hs p h packet mem_cons_self
    have hlater : ∀ p ∈ seen, ∀ q ∈ packets, ¬ p.Displaces q :=
      fun p h q hq => hs p h q (mem_cons_of_mem _ hq)
    rw [readPackets]
    split
    · exact ih hb hlater hp
    · rename_i h
      exact ⟨_, followed_note hb hnow h⟩
    · rename_i h
      refine ih (followed_note hb hnow h) (fun p hm => ?_) hp
      rcases mem_cons.mp hm with rfl | hm
      · exact hpa
      · exact hlater p hm

end

/-! ## One step of the loop -/

/-- A processed connection with a timeout has a deadline, another keeps its own. -/
structure Renews (x : Network) (tokenPrefix : TokenPrefix) (m : Multiplexer) (event : Event)
    (m' : Multiplexer) : Prop where
  renewed : ∀ connId conn, m'.connections.lookup connId = some conn →
    connId ∈ processed x tokenPrefix m event → event.timed conn = true → connId ∈ m'.deadlines
  kept : ∀ connId, connId ∈ m'.connections → connId ∉ processed x tokenPrefix m event →
    connId ∈ m.connections ∧ (connId ∈ m.deadlines → connId ∈ m'.deadlines)

section

variable {x : Network} {tokenPrefix : TokenPrefix} {m m' : Multiplexer} {event : Event}

lemma armed_of_renews (h : Renews x tokenPrefix m event m')
    (hm : Armed m hadTimeout) : Armed m' (noteTimeouts x tokenPrefix m event m' hadTimeout) := by
  intro connId hc hh
  unfold noteTimeouts at hh
  split at hh
  · rename_i hp
    obtain ⟨conn, hco⟩ := exists_lookup hc
    rw [hco, Option.any_some] at hh
    exact h.renewed connId conn hco hp hh
  · rename_i hp
    obtain ⟨hold, hd⟩ := h.kept connId hc hp
    exact hd (hm connId hold hh)

lemma mem_readUdpSocket : connId ∈ (readUdpSocket x tokenPrefix m packets readings).deadlines ↔
      (∃ first, (readBatch x tokenPrefix m packets).pending.lookup connId = some first ∧
        (readings first).timeout.isSome) ∨
        connId ∈ (readBatch x tokenPrefix m packets).mux.deadlines := by
  rw [readUdpSocket, (foldl_setDeadline readings _ _).2.2]
  refine or_congr_left ?_
  constructor
  · rintro ⟨⟨id, first⟩, hm, rfl, ht⟩
    exact ⟨first, mem_lookup_iff.mpr hm, ht⟩
  · rintro ⟨first, hf, ht⟩
    exact ⟨⟨connId, first⟩, mem_lookup_iff.mp hf, rfl, ht⟩

lemma connections_readUdpSocket (packets : List Packet) (readings : Nat → Reading) :
    (readUdpSocket x tokenPrefix m packets readings).connections =
      (readBatch x tokenPrefix m packets).mux.connections :=
  (foldl_setDeadline readings _ _).2.1

lemma refreshDeadline_spec (m : Multiplexer) (connId : Bytes) (readings : Nat → Reading) :
    let m' := onSocketMessage m (.refreshDeadline connId) readings
    m'.connections = m.connections ∧ (∀ conn, m.connections.lookup connId = some conn →
        (readings conn.quicConn).timeout.isSome → connId ∈ m'.deadlines) ∧
      ∀ id, id ≠ connId → (id ∈ m'.deadlines ↔ id ∈ m.deadlines) := by
  unfold onSocketMessage
  cases hc : m.connections.lookup connId with
  | none => simp [hc]
  | some conn =>
    cases ht : (readings conn.quicConn).timeout with
    | some =>
      refine ⟨by simp [hc, ht, updateConnectionDeadline], ?_, fun id hid => ?_⟩
      · simp [hc, ht, updateConnectionDeadline]
      · simp [hc, ht, updateConnectionDeadline, hid]
    | none =>
      by_cases hm : connId ∈ m.deadlines
      · refine ⟨by simp [hc, ht, hm], by simp [ht], fun id hid => ?_⟩
        simp [hc, ht, hm, hid]
      · simp [hc, ht, hm]

/-- **One step** renews the deadlines, unless a connection is displaced. -/
lemma renews_step (hok : event.Calm)
    (h : step x tokenPrefix m event = some m') : Renews x tokenPrefix m event m' := by
  cases h
  cases event with
  | timeouts now readings =>
    obtain ⟨hco, hm⟩ := foldl_onTimeout readings (timedout m now) m
    refine ⟨fun connId conn hcon ho ht => ?_, fun connId hc ho => ?_⟩
    · exact (hm connId).mpr (.inl ⟨ho, conn, hco ▸ hcon, ht⟩)
    · exact ⟨hco ▸ hc, fun hd => (hm connId).mpr (.inr ⟨ho, hd⟩)⟩
  | udpRead packets readings =>
    have hto := touches_readBatch x tokenPrefix m packets
    refine ⟨fun connId conn hcon hp ht => ?_, fun connId hc hp => ?_⟩
    · rw [connections_readUdpSocket] at hcon
      obtain ⟨first, hf⟩ := exists_lookup hp
      rw [mem_readUdpSocket]
      cases hti : (readings first).timeout with
      | some => exact .inl ⟨first, hf, by rw [hti]; rfl⟩
      | none =>
        exfalso
        rcases hok with hall | hp
        · have ha := hall first
          rw [hti] at ha
          cases ha
        · have hb : Followed [] ⟨m, ∅⟩ := fun _ _ h => (by cases h)
          obtain ⟨seen, hfo⟩ := followed_readPackets x tokenPrefix _ hb
            (fun _ h => absurd h not_mem_nil) (hp.sublist (take_sublist readBudget packets))
          rcases hfo connId first hf with ⟨conn', hc', rfl⟩ | ⟨hn, -⟩
          · cases hcon.symm.trans hc'
            rw [Event.timed, Event.readings, hti] at ht
            cases ht
          · cases hcon.symm.trans hn
    · obtain ⟨hco, hde⟩ := hto.others connId hp
      rw [← lookup_isSome, connections_readUdpSocket, hco, lookup_isSome] at hc
      refine ⟨hc, fun hd => mem_readUdpSocket.mpr (.inr ?_)⟩
      rwa [← lookup_isSome, hde, lookup_isSome]
  | message message readings =>
    cases message with
    | close =>
      refine ⟨fun _ _ _ hno => (by cases hno), fun connId hc _ => ?_⟩
      exact ⟨(mem_erase.mp hc).2, fun hd => hd⟩
    | refreshDeadline id =>
      obtain ⟨hco, ht, hot⟩ := refreshDeadline_spec m id readings
      refine ⟨fun connId conn hcon hid hti => ?_, fun connId hc hid => ?_⟩
      · cases mem_singleton.mp hid
        exact ht conn (hco ▸ hcon) hti
      · exact ⟨hco ▸ hc, (hot connId (mem_singleton.not.mp hid)).mpr⟩
  | removeClosed =>
    refine ⟨fun _ _ _ hno => (by cases hno), fun connId hc _ => ?_⟩
    simp only [removeClosedConnections, mem_eraseAll] at hc ⊢
    exact ⟨hc.2, fun hd => ⟨hc.1, hd⟩⟩

/-- **One step** keeps the closest deadline. -/
lemma closestFirst_step (hm : ClosestFirst m) (h : step x tokenPrefix m event = some m') :
    ClosestFirst m' := by
  cases h
  cases event with
  | timeouts => exact closestFirst_of_min rfl
  | udpRead packets readings =>
    have ht := touches_readBatch x tokenPrefix m packets
    exact (foldl_setDeadline readings _ _).1 (closestFirst_of_fewer hm ht.fewer ht.closest)
  | message message =>
    cases message with
    | close => exact hm
    | refreshDeadline =>
      simp only [onSocketMessage]
      split
      · exact hm
      · split
        · exact closestFirst_of_min rfl
        · split
          · exact closestFirst_of_min rfl
          · exact hm
  | removeClosed =>
    refine closestFirst_of_fewer hm (fun connId deadline hl => ?_) rfl
    simp only [removeClosedConnections, lookup_eraseAll] at hl
    obtain ⟨-, hl⟩ := Option.ite_none_left_eq_some.mp hl
    exact hl

end

/-! ## Whole runs -/

/-- **The timers.** The closest deadline is always kept; without reads that displace a connection
every connection with a timeout has a deadline. -/
theorem timers_armed (x : Network) (tokenPrefix : TokenPrefix) (events : List Event) :
    EveryState (step x tokenPrefix) ClosestFirst init events ∧
      ((∀ event ∈ events, event.Calm) →
        EveryState (observed (step x tokenPrefix) (noteTimeouts x tokenPrefix)) TimersArmed
          (init, fun _ => false) events) := by
  have hcl : ClosestFirst init := fun _ _ h => (by cases h)
  constructor
  · have hk : ∀ m event m', ClosestFirst m → True → step x tokenPrefix m event = some m' →
        ClosestFirst m' := fun _ _ _ hm _ hs => closestFirst_step hm hs
    exact everyState_of_everyStep hk (fun _ hm => hm) hcl
      (everyStep_of_forall init fun _ _ => trivial)
  · intro hcalm
    have hi : TimersArmed (init, fun _ => false) := ⟨hcl, fun _ _ h => (by cases h)⟩
    have hok : EveryStep (observed (step x tokenPrefix) (noteTimeouts x tokenPrefix))
        (fun _ event => event.Calm) (init, fun _ => false) events := everyStep_of_forall _ hcalm
    refine everyState_of_everyStep (fun c event c' hc hok hs => ?_) (fun _ hc => hc) hi hok
    obtain ⟨m', hm', rfl⟩ := observed_eq_some hs
    exact ⟨closestFirst_step hc.closest hm', armed_of_renews (renews_step hok hm') hc.armed⟩

/-! ## A connection that is displaced -/

def plainNetwork : Network where
  debugHeader _ := ""
  versionIsSupported _ := true
  sign _ := replicate 20 0
  negotiateVersion _ _ := .ok []
  retry _ _ _ _ _ := .ok []
  trySendTo _ _ := .ok ()

def retryId : Bytes := replicate 20 7

def initialPacket : Packet where
  peer := clientAddr
  header := ⟨.initial, 1, retryId, [1], some (mintToken clientHeader zeroPrefix clientAddr)⟩
  answer := ⟨true, true, false, false, false, false⟩

/-- The client allows no streams for the HTTP/3 session. -/
def finishedPacket : Packet where
  peer := clientAddr
  header := ⟨.handshake, 1, retryId, [1], none⟩
  answer := ⟨true, true, false, false, true, false⟩

/-- The first connection has no timeout; its last packet comes with the second's first. -/
def displacing : List Event :=
  [.udpRead [initialPacket] (fun _ => ⟨0, none⟩),
    .udpRead [finishedPacket, initialPacket]
      (fun quicConn => ⟨1, if quicConn = 0 then none else some 30000⟩)]

/-- The second connection has no deadline. -/
theorem displacing_unarmed :
    (run (observed (step plainNetwork zeroPrefix) (noteTimeouts plainNetwork zeroPrefix))
        (init, fun _ => false) displacing).map
        (fun c => (c.1.connections.lookup retryId, c.2 retryId, c.1.deadlines.lookup retryId)) =
      some (some (.handshake 1), true, none) ∧
    ¬ EveryState (observed (step plainNetwork zeroPrefix) (noteTimeouts plainNetwork zeroPrefix))
        TimersArmed (init, fun _ => false) displacing := by
  have hl : (run (observed (step plainNetwork zeroPrefix) (noteTimeouts plainNetwork zeroPrefix))
        (init, fun _ => false) displacing).map
        (fun c => (c.1.connections.lookup retryId, c.2 retryId, c.1.deadlines.lookup retryId)) =
      some (some (.handshake 1), true, none) := by decide
  refine ⟨hl, fun h => ?_⟩
  obtain ⟨c, hc, hv⟩ := Option.map_eq_some_iff.mp hl
  obtain ⟨hco, hh, hno⟩ : c.1.connections.lookup retryId = some (.handshake 1) ∧ c.2 retryId ∧
      c.1.deadlines.lookup retryId = none := by
    simpa only [Prod.mk.injEq] using hv
  have ha := (EveryState.last h hc).armed retryId (mem_of_lookup hco) hh
  exact lookup_eq_none.mp hno ha

end TrustTunnel.QuicMultiplexer
