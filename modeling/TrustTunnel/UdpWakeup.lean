import TrustTunnel.Lib.Executions
import TrustTunnel.UdpForwarder

/-!
# The wake-ups of the direct UDP forwarder (`udp_forwarder.rs`)

The source waits for the sockets of its last poll and one wake-up, while flows come and go; a
socket is a flow with the number of times it was opened (`born`). Every call and `await` is an
event, in any order.
-/

namespace TrustTunnel.UdpWakeup

open Io Forwarder Lib UdpForwarder Execution Option AList

/-- `sink` is sending, `awaited` are waited for, `written` had a completed `write`. -/
structure State where
  shared : Multiplexer
  born : UdpDatagramMeta → Nat
  sink : Option (UdpDatagramMeta × Nat)
  awaited : Option (List (UdpDatagramMeta × Nat))
  written : List (UdpDatagramMeta × Nat)

inductive Event where
  | create (m : Downstream.UdpDatagramMeta) (socket : Except IoError Unit)
  | close (m : UdpDatagramMeta)
  | write (m : UdpDatagramMeta)
  | sent (r : Except IoError Unit)
  | dropWrite
  | read
  | poll (ev : PollEvent)
  | dropRead

def init : State :=
  { shared := makeMultiplexer, born := fun _ => 0, sink := none, awaited := none, written := [] }

def onCreate (settings : Settings) (s : State) (m : Downstream.UdpDatagramMeta)
    (socket : Except IoError Unit) : State :=
  match onNewUdpConnection settings s.shared m socket with
  | .opened shared =>
    { s with shared := shared,
             born := Function.update s.born (.ofDownstream m) (s.born (.ofDownstream m) + 1) }
  | _ => s

/-- The rest of `write`, once the payload was sent. -/
def onSent (s : State) (m : UdpDatagramMeta) (n : Nat) : State :=
  match afterSend s.shared m with
  | (shared, .ok _) => { s with shared := shared, sink := none, written := (m, n) :: s.written }
  | (shared, .error _) => { s with shared := shared, sink := none }

def snapshot (s : State) : List (UdpDatagramMeta × Nat) :=
  s.shared.connections.keys.map (fun m => (m, s.born m))

/-- `none` when the event cannot happen. -/
def step (settings : Settings) (s : State) : Event → Option State
  | .create m socket => some (onCreate settings s m socket)
  | .close m => some { s with shared := onConnectionClosed s.shared m }
  | .write m =>
    if s.sink.isSome then none
    else
      match UdpForwarder.write s.shared m with
      | .error _ => some s
      | .ok _ => some { s with sink := some (m, s.born m) }
  | .sent r =>
    match s.sink with
    | none => none
    | some (m, n) =>
      match r with
      | .error _ => some { s with sink := none }
      | .ok _ => some (onSent s m n)
  | .dropWrite => if s.sink.isSome then some { s with sink := none } else none
  | .read =>
    if s.awaited.isSome then none
    else some { s with shared := (beginRead s.shared).2, awaited := some (snapshot s) }
  | .poll ev =>
    if s.awaited.isSome then
      (onPollEvent s.shared ev).map (fun r => { s with shared := r.1, awaited := none })
    else none
  | .dropRead => if s.awaited.isSome then some { s with awaited := none } else none

/-! ## What the calls do -/

/-- `step` as a relation. -/
inductive Next (settings : Settings) (s : State) : Event → State → Prop
  | create {m socket} : Next settings s (.create m socket) (onCreate settings s m socket)
  | close {m} : Next settings s (.close m) { s with shared := onConnectionClosed s.shared m }
  | notFound {m} : Next settings s (.write m) s
  | write {m} : Next settings s (.write m) { s with sink := some (m, s.born m) }
  | failed {e} : Next settings s (.sent (.error e)) { s with sink := none }
  | sent {u m n} (h : s.sink = some (m, n)) : Next settings s (.sent (.ok u)) (onSent s m n)
  | dropWrite : Next settings s .dropWrite { s with sink := none }
  | read (h : s.awaited = none) : Next settings s .read
      { s with shared := (beginRead s.shared).2, awaited := some (snapshot s) }
  | poll {ev shared p} (h : onPollEvent s.shared ev = some (shared, p)) :
    Next settings s (.poll ev) { s with shared := shared, awaited := none }
  | dropRead : Next settings s .dropRead { s with awaited := none }

lemma next_of_step (h : step settings s ev = some s') : Next settings s ev s' := by
  cases ev with
  | create =>
    cases h
    exact .create
  | close =>
    cases h
    exact .close
  | write =>
    obtain ⟨-, h⟩ := ite_none_left_eq_some.mp h
    split at h <;> cases h
    · exact .notFound
    · exact .write
  | sent =>
    simp only [step] at h
    split at h
    · cases h
    · rename_i hs
      split at h <;> cases h
      · exact .failed
      · exact .sent hs
  | dropWrite =>
    simp only [step] at h
    split at h <;> cases h
    exact .dropWrite
  | read =>
    simp only [step] at h
    split at h <;> cases h
    exact .read (not_isSome_iff_eq_none.mp ‹_›)
  | poll =>
    obtain ⟨-, h⟩ := ite_none_right_eq_some.mp h
    obtain ⟨⟨shared, p⟩, hev, rfl⟩ := map_eq_some_iff.mp h
    exact .poll hev
  | dropRead =>
    simp only [step] at h
    split at h <;> cases h
    exact .dropRead

lemma onCreate_cases (settings : Settings) (s : State) (m : Downstream.UdpDatagramMeta)
    (socket : Except IoError Unit) :
    onCreate settings s m socket = s ∨ onCreate settings s m socket = { s with
        shared := { s.shared with
          connections := s.shared.connections.insert (.ofDownstream m) ⟨⟨m.destination⟩, false⟩ },
        born := Function.update s.born (.ofDownstream m) (s.born (.ofDownstream m) + 1) } := by
  rcases onNewUdpConnection_cases settings s.shared m socket with ⟨e, h⟩ | ⟨-, h⟩
  · exact .inl (by simp [onCreate, h])
  · exact .inr (by simp [onCreate, h])

lemma onSent_cases (s : State) (m : UdpDatagramMeta) (n : Nat) :
    onSent s m n = { s with sink := none } ∨
    (onSent s m n = { s with sink := none, written := (m, n) :: s.written } ∧
      ∀ c, s.shared.connections.lookup m = some c → c.beingListened) ∨
    ∃ c : Connection, onSent s m n = { s with
      shared := { s.shared with
        connections := s.shared.connections.insert m { c with beingListened := true },
        wake := .full },
      sink := none, written := (m, n) :: s.written } := by
  rcases afterSend_cases s.shared m with ⟨h, hl⟩ | ⟨-, e, h⟩ | ⟨c, -, h⟩
  · exact .inr (.inl ⟨by simp only [onSent, h], hl⟩)
  · exact .inl (by simp only [onSent, h])
  · exact .inr (.inr ⟨c, by simp only [onSent, h]⟩)

lemma onSocketError_lookup (h : (onSocketError f m e).connections.lookup k = some c) :
    f.connections.lookup k = some c := by
  unfold onSocketError at h
  split at h
  · exact (Table.lookup_erase_cases h).2
  · exact h

lemma onPollEvent_lookup (hev : onPollEvent f ev = some (f', p))
    (h : f'.connections.lookup k = some c) : f.connections.lookup k = some c := by
  rcases onPollEvent_cases hev with ⟨rfl, -⟩ | ⟨rfl, -⟩ | ⟨m, e, rfl, -⟩
  · exact h
  · exact h
  · exact onSocketError_lookup h

/-! ## No wake-up is lost -/

/-- It is waited for, or a wake-up is queued, or the source runs. -/
def Attended (s : State) (m : UdpDatagramMeta) (n : Nat) : Prop :=
  (∃ awaited, s.awaited = some awaited ∧ (m, n) ∈ awaited) ∨ s.shared.wake = .full ∨
    s.awaited = none

structure Sound (s : State) : Prop where
  sending : ∀ m n, s.sink = some (m, n) → n ≤ s.born m
  past : ∀ m n, (m, n) ∈ s.written → n ≤ s.born m
  listened : ∀ m c, (m, s.born m) ∈ s.written → s.shared.connections.lookup m = some c →
    c.beingListened = true
  attended : ∀ m c, s.shared.connections.lookup m = some c → c.beingListened = true →
    Attended s m (s.born m)

lemma Sound.of_lookup {s s' : State} (hs : Sound s) (hb : s'.born = s.born)
    (hsi : s'.sink = s.sink ∨ s'.sink = none) (hw : s'.written = s.written)
    (hl : ∀ m c, s'.shared.connections.lookup m = some c → s.shared.connections.lookup m = some c)
    (ha : ∀ m n, Attended s m n → Attended s' m n) : Sound s' := by
  refine ⟨?_, ?_, ?_, ?_⟩
  · intro m n h
    rw [hb]
    rcases hsi with hsi | hsi
    · exact hs.sending m n (hsi ▸ h)
    · rw [hsi] at h
      cases h
  · intro m n h
    rw [hb]
    exact hs.past m n (hw ▸ h)
  · intro m c h hc
    rw [hb, hw] at h
    exact hs.listened m c h (hl m c hc)
  · intro m c hc hli
    rw [hb]
    exact ha m _ (hs.attended m c (hl m c hc) hli)

lemma sound_create (hs : Sound s)
    (m : Downstream.UdpDatagramMeta) (socket : Except IoError Unit) :
    Sound (onCreate settings s m socket) := by
  rcases onCreate_cases settings s m socket with h | h <;> rw [h]
  · exact hs
  · have hb : ∀ k, s.born k ≤ Function.update s.born (.ofDownstream m)
        (s.born (.ofDownstream m) + 1) k := by
      intro k
      by_cases hk : k = .ofDownstream m
      · subst hk
        simp
      · rw [Function.update_of_ne hk]
    refine ⟨fun k n h => (hs.sending k n h).trans (hb k),
      fun k n h => (hs.past k n h).trans (hb k), fun k c h hc => ?_, fun k c hc hl => ?_⟩
    · by_cases hk : k = .ofDownstream m
      · -- the new socket was not written to
        subst hk
        simp only [Function.update_self] at h
        have hpast := hs.past _ _ h
        omega
      · simp only [Function.update_of_ne hk] at h
        simp only [lookup_insert_ne hk] at hc
        exact hs.listened k c h hc
    · by_cases hk : k = .ofDownstream m
      · subst hk
        simp only [lookup_insert, some.injEq] at hc
        rw [← hc] at hl
        cases hl
      · simp only [lookup_insert_ne hk] at hc
        simp only [Function.update_of_ne hk]
        exact hs.attended k c hc hl

lemma past_written {s : State} (hs : Sound s) {m : UdpDatagramMeta} {n : Nat}
    (hsi : s.sink = some (m, n)) {k : UdpDatagramMeta} {n' : Nat}
    (h : (k, n') ∈ (m, n) :: s.written) : n' ≤ s.born k := by
  rcases List.mem_cons.mp h with h | h
  · cases h
    exact hs.sending m n hsi
  · exact hs.past k n' h

lemma sound_sent {s : State} (hs : Sound s) {m : UdpDatagramMeta} {n : Nat}
    (hsi : s.sink = some (m, n)) : Sound (onSent s m n) := by
  have ho : ∀ {k n'}, k ≠ m → (k, n') ∈ (m, n) :: s.written → (k, n') ∈ s.written :=
    fun hk h => (List.mem_cons.mp h).resolve_left (fun h => hk (Prod.mk.inj h).1)
  rcases onSent_cases s m n with h | ⟨h, hl⟩ | ⟨c0, h⟩ <;> rw [h]
  · exact hs.of_lookup rfl (.inr rfl) rfl (fun _ _ hc => hc) (fun _ _ h => h)
  · refine ⟨fun k n' h => (by cases h), fun k n' h => past_written hs hsi h, fun k c h hc => ?_,
      hs.attended⟩
    by_cases hk : k = m
    · subst hk
      exact hl c hc
    · exact hs.listened k c (ho hk h) hc
  · refine ⟨fun k n' h => (by cases h), fun k n' h => past_written hs hsi h, fun k c h hc => ?_,
      fun k c _ _ => .inr (.inl rfl)⟩
    by_cases hk : k = m
    · subst hk
      simp only [lookup_insert, some.injEq] at hc
      rw [← hc]
    · simp only [lookup_insert_ne hk] at hc
      exact hs.listened k c (ho hk h) hc

lemma mem_snapshot (h : m ∈ s.shared.connections) : (m, s.born m) ∈ snapshot s :=
  List.mem_map.mpr ⟨m, mem_keys.mp h, rfl⟩

lemma sound_read (hs : Sound s) :
    Sound { s with shared := (beginRead s.shared).2, awaited := some (snapshot s) } := by
  refine ⟨hs.sending, hs.past, hs.listened, fun m c hc _ => .inl ⟨_, rfl, mem_snapshot ?_⟩⟩
  have hl : s.shared.connections.lookup m = some c := hc
  exact Table.mem_of_lookup hl

lemma sound_step (hs : Sound s) (h : step settings s ev = some s') : Sound s' := by
  have hi : ∀ {s' : State}, s'.awaited = none → ∀ m n, Attended s m n → Attended s' m n :=
    fun hn _ _ _ => .inr (.inr hn)
  have hsa : ∀ m c, s.shared.connections.lookup m = some c →
      s.shared.connections.lookup m = some c := fun _ _ hc => hc
  cases next_of_step h with
  | create => exact sound_create hs _ _
  | close =>
    exact hs.of_lookup rfl (.inl rfl) rfl (fun m c hc => (Table.lookup_erase_cases hc).2)
      (fun _ _ h => h)
  | notFound => exact hs
  | write =>
    exact ⟨fun m n h => (by cases h; exact Nat.le_refl _), hs.past, hs.listened, hs.attended⟩
  | failed | dropWrite => exact hs.of_lookup rfl (.inr rfl) rfl hsa (fun _ _ h => h)
  | sent hsi => exact sound_sent hs hsi
  | read => exact sound_read hs
  | poll hev =>
    exact hs.of_lookup rfl (.inl rfl) rfl (fun m c hc => onPollEvent_lookup hev hc) (hi rfl)
  | dropRead => exact hs.of_lookup rfl (.inl rfl) rfl hsa (hi rfl)

lemma sound_init : Sound init :=
  ⟨fun m n h => (by cases h), fun m n h => (by cases h), fun m c h => (by cases h),
    fun m c h => (by cases h)⟩

/-- Socket `n` of the flow `m` is the one in the table. -/
def Open (s : State) (m : UdpDatagramMeta) (n : Nat) : Prop :=
  m ∈ s.shared.connections ∧ s.born m = n

lemma Sound.attends (hs : Sound s)
    (hw : (m, n) ∈ s.written) (ho : Open s m n) : Attended s m n := by
  obtain ⟨hm, rfl⟩ := ho
  obtain ⟨c, hc⟩ := Table.exists_lookup hm
  exact hs.attended m c hc (hs.listened m c hw hc)

/-! ## Replies are read -/

/-- The source waits for socket `n` of the flow `m`. -/
def Awaits (m : UdpDatagramMeta) (n : Nat) (s : State) : Prop :=
  ∃ awaited, s.awaited = some awaited ∧ (m, n) ∈ awaited

section Progress

variable {settings : Settings} {s s' : State} {ev : Event}

lemma step_idle (h : step settings s ev = some s') (hi : s.awaited = none) :
    s'.awaited = none ∧ ev ≠ .read ∨ s'.awaited = some (snapshot s) := by
  cases next_of_step h with
  | create =>
    refine .inl ⟨?_, fun h => by cases h⟩
    unfold onCreate
    split <;> exact hi
  | @sent u m n _ =>
    refine .inl ⟨?_, fun h => by cases h⟩
    unfold onSent
    split <;> exact hi
  | read => exact .inr rfl
  | poll | dropRead => exact .inl ⟨rfl, fun h => by cases h⟩
  | _ => exact .inl ⟨hi, fun h => by cases h⟩

lemma step_full (h : step settings s ev = some s') (hw : s.awaited ≠ none)
    (hf : s.shared.wake = .full) :
    s'.awaited = none ∨ s'.awaited ≠ none ∧ s'.shared.wake = .full ∧ ev ≠ .poll .woken := by
  cases next_of_step h with
  | @create m socket =>
    rcases onCreate_cases settings s m socket with h | h <;> rw [h] <;>
      exact .inr ⟨hw, hf, fun h => by cases h⟩
  | close | notFound | write | failed | dropWrite =>
    exact .inr ⟨hw, hf, fun h => by cases h⟩
  | @sent u m n _ =>
    rcases onSent_cases s m n with h | ⟨h, -⟩ | ⟨c, h⟩ <;> rw [h]
    · exact .inr ⟨hw, hf, fun h => by cases h⟩
    · exact .inr ⟨hw, hf, fun h => by cases h⟩
    · exact .inr ⟨hw, rfl, fun h => by cases h⟩
  | read hi => exact absurd hi hw
  | poll | dropRead => exact .inl rfl

variable {x : Execution (step settings) init} {m : UdpDatagramMeta} {b n : Nat}

/-- `exchange` goes on: `read` is called again, and wake-ups are taken. -/
structure Running (x : Execution (step settings) init) : Prop where
  reads : x.Fair (fun s => s.awaited = none) .read
  wakes : x.Fair (fun s => s.awaited ≠ none ∧ s.shared.wake = .full) (.poll .woken)

lemma sound_at (x : Execution (step settings) init) (k : Nat) : Sound (x.state k) :=
  invariant sound_init (fun _ _ _ hs h => sound_step hs h) k

lemma awaits_of_idle (hr : Running x) (ho : ∀ k, n ≤ k → Open (x.state k) m b)
    (hi : (x.state n).awaited = none) : ∃ k, n ≤ k ∧ Awaits m b (x.state k) := by
  refine leadsTo hr.reads (fun s hs => hs) (fun k ev hk hi hev => ?_) hi
  rcases step_idle (next_of_some hev) hi with hst | hsn
  · exact .inl hst
  · refine .inr ⟨k + 1, by omega, _, hsn, ?_⟩
    obtain ⟨hm, rfl⟩ := ho k hk
    exact mem_snapshot hm

lemma awaits_of_full (hr : Running x) (ho : ∀ k, n ≤ k → Open (x.state k) m b)
    (hw : (x.state n).awaited ≠ none) (hf : (x.state n).shared.wake = .full) :
    ∃ k, n ≤ k ∧ Awaits m b (x.state k) := by
  refine leadsTo hr.wakes (fun s hs => hs) (fun k ev hk hP hev => ?_)
    (⟨hw, hf⟩ : (fun s : State => s.awaited ≠ none ∧ s.shared.wake = .full) (x.state n))
  rcases step_full (next_of_some hev) hP.1 hP.2 with hi | ⟨hw', hf', hev'⟩
  · obtain ⟨k', hk', ha⟩ := awaits_of_idle hr (fun j hj => ho j (by omega)) hi
    exact .inr ⟨k', by omega, ha⟩
  · exact .inl ⟨⟨hw', hf'⟩, hev'⟩

lemma step_written (h : step settings s ev = some s') (hp : p ∈ s.written) : p ∈ s'.written := by
  cases next_of_step h with
  | create =>
    unfold onCreate
    split <;> exact hp
  | sent =>
    unfold onSent
    split
    · exact List.mem_cons_of_mem _ hp
    · exact hp
  | _ => exact hp

lemma recurs (hr : Running x) (hwr : (m, b) ∈ (x.state n).written)
    (ho : ∀ k, n ≤ k → Open (x.state k) m b) (hj : n ≤ j) :
    ∃ k, j ≤ k ∧ Awaits m b (x.state k) := by
  have hw : (m, b) ∈ (x.state j).written :=
    stays (P := fun s => (m, b) ∈ s.written) hwr
      (fun _ _ _ hev hp => step_written (next_of_some hev) hp) hj
  have ho' : ∀ k, j ≤ k → Open (x.state k) m b := fun k hk => ho k (by omega)
  by_cases hi : (x.state j).awaited = none
  · exact awaits_of_idle hr ho' hi
  · rcases (sound_at x j).attends hw (ho j hj) with ha | hf | hn
    · exact ⟨j, Nat.le_refl j, ha⟩
    · exact awaits_of_full hr ho' hi hf
    · exact absurd hn hi

/-- A reply at the socket of a flow in the table is returned. -/
lemma read_of_step (h : step settings s (.poll (.pendingRead m (.ok payload))) = some s')
    (hm : m ∈ s.shared.connections) : onPollEvent s.shared (.pendingRead m (.ok payload)) =
      some (s.shared, .read ⟨m.reversed, payload⟩) := by
  cases next_of_step h with
  | poll hev =>
    have hpolled : m ∈ s.shared.polled := (ite_none_right_eq_some.mp hev).1
    simp [onPollEvent, readPendingSocket, hpolled, hm]

end Progress

def chat : Downstream.UdpDatagramMeta := ⟨.v4 ⟨10, 0, 0, 2⟩ 4000, .v4 ⟨9, 9, 9, 9⟩ 443, none⟩

/-- The first datagram is sent, and the source woken up. -/
def chatOpen : State := onCreate (.guarded true) init chat (.ok ())

def chatSent : State :=
  onSent { chatOpen with sink := some (.ofDownstream chat, 1) } (.ofDownstream chat) 1

def chatIdle : State :=
  { chatSent with shared := { (beginRead chatSent.shared).2 with wake := .empty } }

def chatWaits : State := { chatIdle with awaited := some (snapshot chatIdle) }

def chatting : Execution (step (.guarded true)) init where
  state
    | 0 => init
    | 1 => chatOpen
    | 2 => { chatOpen with sink := some (.ofDownstream chat, 1) }
    | 3 => chatSent
    | 4 => { chatSent with shared := (beginRead chatSent.shared).2,
                           awaited := some (snapshot chatSent) }
    | n + 5 => if n % 2 = 0 then chatIdle else chatWaits
  event
    | 0 => some (.create chat (.ok ()))
    | 1 => some (.write (.ofDownstream chat))
    | 2 => some (.sent (.ok ()))
    | 3 => some .read
    | 4 => some (.poll .woken)
    | n + 5 => some (if n % 2 = 0 then .read else .poll (.pendingRead (.ofDownstream chat) (.ok [2])))
  init_eq := rfl
  next
    | 0 => rfl
    | 1 => rfl
    | 2 => rfl
    | 3 => rfl
    | 4 => rfl
    | n + 5 => by
      rcases Nat.mod_two_eq_zero_or_one n with hn | hn
      · have hn' : (n + 1) % 2 = 1 := by omega
        simp only [hn, hn', if_true, Nat.one_ne_zero, if_false]
        rfl
      · have hn' : (n + 1) % 2 = 0 := by omega
        simp only [hn, hn', if_true, Nat.one_ne_zero, if_false]
        rfl

end TrustTunnel.UdpWakeup
