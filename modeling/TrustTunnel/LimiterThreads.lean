import TrustTunnel.AuthenticationGate
import TrustTunnel.LimiterAccounting

/-!
# The limiter among threads

A call waits for the lock, reads the counters and stores new ones; others come in between.
-/

namespace TrustTunnel

open Io Lib Authentication ConnectionLimiter Table AList

/-! ## Threads -/

namespace Limiter

inductive Call where
  | tryAcquire (creds : String) (protocol : Protocol)
  | drop (guard : Nat)
  deriving DecidableEq

inductive Thread where
  | waiting (call : Call)
  | locked (call : Call)
  | checked (call : Call) (seen : ConnectionLimiter)

def Thread.call : Thread → Call
  | .waiting call => call
  | .locked call => call
  | .checked call _ => call

/-- The limiter, the live guards, the calls going on, and who has the lock. -/
structure System where
  limiter : ConnectionLimiter
  guards : Table Nat ConnectionGuard
  threads : Table Nat Thread
  holder : Option Nat

def System.start (limiter : ConnectionLimiter) : System :=
  { limiter, guards := ∅, threads := ∅, holder := none }

inductive Event where
  | call (thread : Nat) (call : Call)
  | lock (thread : Nat)
  | check (thread : Nat)
  | store (thread : Nat) (fresh : Nat)

def System.mayCall (s : System) : Call → Bool
  | .tryAcquire _ _ => true
  | .drop guard => decide (guard ∈ s.guards) &&
      s.threads.entries.all (fun e => decide (e.2.call ≠ .drop guard))

/-- What it makes of what it read is stored, and the lock given back. -/
def System.finish (s : System) (thread : Nat) (limiter : ConnectionLimiter)
    (guards : Table Nat ConnectionGuard) : System :=
  { limiter, guards, threads := s.threads.erase thread, holder := none }

def step (s : System) : Event → Option System
  | .call thread call =>
    if thread ∈ s.threads ∨ s.mayCall call = false then none
    else some { s with threads := s.threads.insert thread (.waiting call) }
  | .lock thread =>
    match s.threads.lookup thread, s.holder with
    | some (.waiting call), none =>
      some { s with threads := s.threads.insert thread (.locked call), holder := some thread }
    | _, _ => none
  | .check thread =>
    match s.threads.lookup thread with
    | some (.locked call) =>
      some { s with threads := s.threads.insert thread (.checked call s.limiter) }
    | _ => none
  | .store thread fresh =>
    match s.threads.lookup thread with
    | some (.checked (.tryAcquire creds protocol) seen) =>
      match seen.tryAcquire creds protocol with
      | none => some (s.finish thread seen s.guards)
      | some (guard, limiter) =>
        if fresh ∈ s.guards then none
        else some (s.finish thread limiter (s.guards.insert fresh guard))
    | some (.checked (.drop id) seen) =>
      match s.guards.lookup id with
      | none => none
      | some guard => some (s.finish thread (seen.release guard) (s.guards.erase id))
    | _ => none

/-! ## The invariant -/

section

variable {s s' : System} {t t' id : Nat}

def System.Drops (s : System) (t id : Nat) : Prop :=
  ∃ x, s.threads.lookup t = some x ∧ x.call = .drop id

/-- One call has the lock and the current counters, and a guard is dropped by one thread. -/
structure Exclusive (s : System) : Prop where
  locked : ∀ t c, s.threads.lookup t = some (.locked c) → s.holder = some t
  checked : ∀ t c seen, s.threads.lookup t = some (.checked c seen) →
    s.holder = some t ∧ seen = s.limiter
  live : ∀ t id, s.Drops t id → id ∈ s.guards
  once : ∀ t t' id, s.Drops t id → s.Drops t' id → t = t'

def System.live (s : System) (creds : String) (protocol : Protocol) : Nat :=
  count s.guards (fun g => g.takes creds protocol)

structure Accounted (l0 : ConnectionLimiter) (s : System) : Prop where
  counted : ConnectionLimiter.Counted (fun _ _ => True) l0 s.limiter s.live
  known : ∀ id g, s.guards.lookup id = some g → (l0.limitsOf g.creds).isSome = true
  exclusive : Exclusive s

lemma drops_of_insert (ht : s'.threads = s.threads.insert t y)
    (hx : s.threads.lookup t = some x) (hc : y.call = x.call) (h : s'.Drops t' id) :
    s.Drops t' id := by
  obtain ⟨z, hz, hd⟩ := h
  rw [ht] at hz
  rcases lookup_insert_cases hz with ⟨rfl, rfl⟩ | ⟨-, hold⟩
  · exact ⟨x, hx, hc.symm.trans hd⟩
  · exact ⟨z, hold, hd⟩

lemma drops_of_erase (ht : s'.threads = s.threads.erase t) (h : s'.Drops t' id) :
    t' ≠ t ∧ s.Drops t' id := by
  obtain ⟨z, hz, hd⟩ := h
  rw [ht] at hz
  obtain ⟨hne, hold⟩ := lookup_erase_cases hz
  exact ⟨hne, z, hold, hd⟩

lemma mayCall_drop (h : s.mayCall (.drop id)) : id ∈ s.guards ∧ ∀ t, ¬ s.Drops t id := by
  simp only [System.mayCall, Bool.and_eq_true, decide_eq_true_eq, List.all_eq_true] at h
  refine ⟨h.1, ?_⟩
  rintro t ⟨x, hx, hd⟩
  have hm : (⟨t, x⟩ : Sigma fun _ : Nat => Thread) ∈ s.threads.entries := mem_lookup_iff.mp hx
  exact h.2 _ hm hd

end

/-! ## Every step -/

section

variable {l0 : ConnectionLimiter} {s s' : System} {t fresh : Nat}

lemma accounted_start (encode : Bytes → String) (clients : List Client)
    (defaultMaxHttp2 defaultMaxHttp3 : Option UInt32) :
    Accounted (.new encode clients defaultMaxHttp2 defaultMaxHttp3)
      (.start (.new encode clients defaultMaxHttp2 defaultMaxHttp3)) := by
  refine ⟨counted_new encode clients _ _ _, (fun _ _ h => by cases h), ⟨?_, ?_, ?_, ?_⟩⟩
  · intro t c h
    cases h
  · intro t c seen h
    cases h
  · rintro t id ⟨x, hx, -⟩
    cases hx
  · rintro t t' id ⟨x, hx, -⟩
    cases hx

lemma call_accounted (hs : Accounted l0 s) (h : step s (.call t c) = some s') :
    Accounted l0 s' := by
  obtain ⟨hm, h⟩ := Option.ite_none_left_eq_some.mp h
  obtain ⟨-, hm⟩ := not_or.mp hm
  cases h
  have hd : ∀ t' id, System.Drops { s with threads := s.threads.insert t (.waiting c) } t' id →
      (t' = t ∧ c = .drop id) ∨ s.Drops t' id := by
    rintro t' id ⟨x, hx, hdr⟩
    rcases lookup_insert_cases hx with ⟨ht, rfl⟩ | ⟨-, hold⟩
    · exact .inl ⟨ht, hdr⟩
    · exact .inr ⟨x, hold, hdr⟩
  have hn : ∀ id, c = .drop id → id ∈ s.guards ∧ ∀ t', ¬ s.Drops t' id := by
    rintro id rfl
    exact mayCall_drop (by simpa using hm)
  refine ⟨hs.counted, hs.known, ⟨?_, ?_, ?_, ?_⟩⟩
  · intro t' c' h'
    rcases lookup_insert_cases h' with ⟨-, hy⟩ | ⟨-, hold⟩
    · cases hy
    · exact hs.exclusive.locked t' c' hold
  · intro t' c' seen h'
    rcases lookup_insert_cases h' with ⟨-, hy⟩ | ⟨-, hold⟩
    · cases hy
    · exact hs.exclusive.checked t' c' seen hold
  · intro t' id h'
    rcases hd t' id h' with ⟨-, hc⟩ | hold
    · exact (hn id hc).1
    · exact hs.exclusive.live t' id hold
  · intro t1 t2 id h1 h2
    rcases hd t1 id h1 with ⟨rfl, hc⟩ | hold1 <;> rcases hd t2 id h2 with ⟨rfl, hc'⟩ | hold2
    · rfl
    · exact absurd hold2 ((hn id hc).2 t2)
    · exact absurd hold1 ((hn id hc').2 t1)
    · exact hs.exclusive.once t1 t2 id hold1 hold2

/-- Threads and the lock change, and no more is dropped than before. -/
lemma Accounted.threads {threads : Table Nat Thread} {holder : Option Nat} (hs : Accounted l0 s)
    (hd : ∀ t id, System.Drops { s with threads := threads, holder := holder } t id → s.Drops t id)
    (hl : ∀ t c, threads.lookup t = some (.locked c) → holder = some t)
    (hc : ∀ t c seen, threads.lookup t = some (.checked c seen) →
      holder = some t ∧ seen = s.limiter) :
    Accounted l0 { s with threads := threads, holder := holder } where
  counted := hs.counted
  known := hs.known
  exclusive := {
    locked := hl
    checked := hc
    live := fun t id h => hs.exclusive.live t id (hd t id h)
    once := fun t1 t2 id h1 h2 => hs.exclusive.once t1 t2 id (hd t1 id h1) (hd t2 id h2) }

lemma lock_accounted (hs : Accounted l0 s) (h : step s (.lock t) = some s') :
    Accounted l0 s' := by
  simp only [step] at h
  split at h
  · rename_i c ht hf
    cases h
    refine hs.threads (fun t' id h' => drops_of_insert (y := .locked c) rfl ht rfl h') ?_ ?_
    · intro t' c' h'
      rcases lookup_insert_cases h' with ⟨rfl, -⟩ | ⟨-, hold⟩
      · rfl
      · -- nobody had the lock
        have := hs.exclusive.locked t' c' hold
        rw [hf] at this
        cases this
    · intro t' c' seen h'
      rcases lookup_insert_cases h' with ⟨-, hy⟩ | ⟨-, hold⟩
      · cases hy
      · have := (hs.exclusive.checked t' c' seen hold).1
        rw [hf] at this
        cases this
  · cases h

lemma check_accounted (hs : Accounted l0 s) (h : step s (.check t) = some s') :
    Accounted l0 s' := by
  simp only [step] at h
  split at h
  · rename_i c ht
    cases h
    refine hs.threads
      (fun t' id h' => drops_of_insert (y := .checked c s.limiter) rfl ht rfl h') ?_ ?_
    · intro t' c' h'
      rcases lookup_insert_cases h' with ⟨-, hy⟩ | ⟨-, hold⟩
      · cases hy
      · exact hs.exclusive.locked t' c' hold
    · intro t' c' seen h'
      rcases lookup_insert_cases h' with ⟨rfl, hy⟩ | ⟨-, hold⟩
      · cases hy
        exact ⟨hs.exclusive.locked t' c ht, rfl⟩
      · exact hs.exclusive.checked t' c' seen hold
  · cases h

lemma Exclusive.finish (hs : Exclusive s) (ht : s.holder = some t)
    (hl : ∀ t' id, t' ≠ t → s.Drops t' id → id ∈ guards) : Exclusive (s.finish t l guards) := by
  have hh : ∀ t', s.holder = some t' → t' = t := by
    intro t' h
    rw [ht] at h
    exact (Option.some.inj h).symm
  have hd : ∀ t' id, (s.finish t l guards).Drops t' id → t' ≠ t ∧ s.Drops t' id :=
    fun t' id h => drops_of_erase rfl h
  refine ⟨?_, ?_, ?_, ?_⟩
  · intro t' c h
    obtain ⟨hne, hold⟩ := lookup_erase_cases h
    exact absurd (hh t' (hs.locked t' c hold)) hne
  · intro t' c seen h
    obtain ⟨hne, hold⟩ := lookup_erase_cases h
    exact absurd (hh t' (hs.checked t' c seen hold).1) hne
  · intro t' id h
    obtain ⟨hne, hold⟩ := hd t' id h
    exact hl t' id hne hold
  · intro t1 t2 id h1 h2
    exact hs.once t1 t2 id (hd t1 id h1).2 (hd t2 id h2).2

lemma live_lt_of_few (hf : fresh ∉ s.guards)
    (hfe : (s.guards.insert fresh g).entries.length < 2 ^ 32) : s.live c q + 1 < 2 ^ 32 := by
  have hle : s.live c q ≤ s.guards.entries.length := List.countP_le_length
  rw [entries_insert_of_notMem hf, List.length_cons] at hfe
  omega

lemma store_accounted (hs : Accounted l0 s) (hfe : s'.guards.entries.length < 2 ^ 32)
    (h : step s (.store t fresh) = some s') : Accounted l0 s' := by
  simp only [step] at h
  split at h
  · rename_i seen ht
    obtain ⟨hh, rfl⟩ := hs.exclusive.checked t _ seen ht
    split at h
    · cases h
      exact ⟨hs.counted, hs.known, hs.exclusive.finish hh (fun t' id _ hd =>
        hs.exclusive.live t' id hd)⟩
    · rename_i guard limiter ha
      obtain ⟨hf, ⟨⟩⟩ := Option.ite_none_left_eq_some.mp h
      refine ⟨?_, ?_, hs.exclusive.finish hh (fun t' id _ hd =>
        (mem_insert s.guards).mpr (.inr (hs.exclusive.live t' id hd)))⟩
      · have hl : ∀ c q, (s.finish t limiter (s.guards.insert fresh guard)).live c q =
            s.live c q + (guard.takes c q).toNat := by
          intro c q
          exact (count_insert s.guards fresh guard _).trans (by rw [count_erase_of_notMem hf]; rfl)
        exact (hs.counted.tryAcquire ha (fun c q e _ _ htakes _ => live_lt_of_few hf hfe)).congr hl
      · intro id g (hid : (s.guards.insert fresh guard).lookup id = some g)
        by_cases hid' : id = fresh
        · subst hid'
          rw [lookup_insert] at hid
          cases hid
          obtain ⟨e, he, -, rfl, -⟩ := tryAcquire_eq_some ha
          rw [← hs.counted.same.limitsOf]
          simp [limitsOf, he]
        · rw [lookup_insert_ne hid'] at hid
          exact hs.known id g hid
  · rename_i id seen ht
    obtain ⟨hh, rfl⟩ := hs.exclusive.checked t _ seen ht
    split at h
    · cases h
    · rename_i guard hg
      cases h
      refine ⟨?_, ?_, hs.exclusive.finish hh (fun t' id' hne hd => ?_)⟩
      · exact hs.counted.release (fun c q => count_erase hg _)
      · intro id' g (hid : (s.guards.erase id).lookup id' = some g)
        by_cases hid' : id' = id
        · subst hid'
          rw [lookup_erase] at hid
          cases hid
        · rw [lookup_erase_ne hid'] at hid
          exact hs.known id' g hid
      · -- the guard that is gone was dropped by this thread only
        refine mem_erase.mpr ⟨?_, hs.exclusive.live t' id' hd⟩
        rintro rfl
        exact hne (hs.exclusive.once t' t id' hd ⟨_, ht, rfl⟩)
  · cases h

/-- **Step.** -/
lemma step_accounted (s : System) (e : Event) (s' : System) (hs : Accounted l0 s)
    (hf : s'.guards.entries.length < 2 ^ 32) (h : step s e = some s') : Accounted l0 s' := by
  cases e with
  | call => exact call_accounted hs h
  | lock => exact lock_accounted hs h
  | check => exact check_accounted hs h
  | store => exact store_accounted hs hf h

end

/-! ## Every run -/

section

variable {encode : Bytes → String} {clients : List Client}
  {defaultMaxHttp2 defaultMaxHttp3 : Option UInt32}

/-- What is promised at every moment. -/
structure Exact (encode : Bytes → String) (clients : List Client) (l0 : ConnectionLimiter)
    (s : System) : Prop where
  /-- A counter is the number of live guards, and within the limit. -/
  counters : ∀ creds e p, s.limiter.clients.lookup creds = some e →
    (e.count p).toNat = s.live creds p ∧ ∀ max, l0.limit e p = some max → e.count p ≤ max
  limits : ConnectionLimiter.SameLimits l0 s.limiter
  known : ∀ creds, creds ∈ s.limiter.clients ↔ Registered encode clients creds
  /-- A call that is about to store goes by the current counters. -/
  current : ∀ t call seen, s.threads.lookup t = some (.checked call seen) → seen = s.limiter
  /-- On known credentials `try_acquire` fails exactly at the limit. -/
  full : ∀ creds e p, s.limiter.clients.lookup creds = some e →
    (s.limiter.tryAcquire creds p = none ↔ l0.limit e p = some (e.count p))
  unknown : ∀ creds p, creds ∉ s.limiter.clients → s.limiter.tryAcquire creds p = none
  /-- Releasing a guard does not saturate. -/
  unsaturated : ∀ id g, s.guards.lookup id = some g →
    ∃ e, s.limiter.clients.lookup g.creds = some e ∧ 0 < e.count g.protocol
  acquires : ∀ creds p g l', s.limiter.tryAcquire creds p = some (g, l') →
    s.limiter.OnlyCounter creds p l'
  releases : ∀ g, s.limiter.OnlyCounter g.creds g.protocol (s.limiter.release g)

lemma known_iff
    (h : ConnectionLimiter.SameLimits (.new encode clients defaultMaxHttp2 defaultMaxHttp3) l)
    (creds : String) : creds ∈ l.clients ↔ Registered encode clients creds := by
  have hm : ∀ l : ConnectionLimiter, creds ∈ l.clients ↔ (l.limitsOf creds).isSome := by
    intro l
    rw [limitsOf, Option.isSome_map, lookup_isSome]
  rw [hm, h.limitsOf, ← hm, new, mem_foldl_insert]
  exact ⟨fun h => h.resolve_left (notMem_empty creds), .inr⟩

lemma Accounted.exact (hs : Accounted (.new encode clients defaultMaxHttp2 defaultMaxHttp3) s) :
    Exact encode clients (.new encode clients defaultMaxHttp2 defaultMaxHttp3) s := by
  have hsa := hs.counted.same
  refine ⟨?_, hsa, known_iff hsa, fun t c seen ht => (hs.exclusive.checked t c seen ht).2,
    ?_, ?_, ?_, fun _ _ _ _ => onlyCounter_tryAcquire,
    onlyCounter_release s.limiter⟩
  · intro creds e p he
    refine ⟨hs.counted.count creds e p trivial he, fun max hm => ?_⟩
    exact hs.counted.within creds e p max trivial he (by rw [hsa.limit, hm])
  · intro creds e p he
    rw [tryAcquire_eq_none]
    simp only [he, Option.some.injEq, forall_eq', ConnectionLimiter.HasRoom, hsa.limit]
    constructor
    · intro hf
      obtain ⟨max, hm, hle⟩ : ∃ max, limit _ e p = some max ∧ ¬ e.count p < max := by
        simpa using hf
      have hw := hs.counted.within creds e p max trivial he (by rw [hsa.limit, hm])
      rw [hm, UInt32.le_antisymm hw (UInt32.not_lt.mp hle)]
    · intro hm hr
      exact UInt32.lt_irrefl _ (hr _ hm)
  · intro creds p hu
    rw [tryAcquire_eq_none]
    intro e he
    exact absurd (mem_of_lookup he) hu
  · intro id g hid
    have hk := hs.known id g hid
    rw [← hsa.limitsOf, limitsOf, Option.isSome_map] at hk
    obtain ⟨e, he⟩ := Option.isSome_iff_exists.mp hk
    refine ⟨e, he, ?_⟩
    have hta : g.takes g.creds g.protocol := by
      simp [ConnectionGuard.takes, Protocol.sameClass]
    have hc := hs.counted.count g.creds e g.protocol trivial he
    rw [System.live, count_erase hid, hta] at hc
    rw [UInt32.lt_iff_toNat_lt, hc]
    exact Nat.succ_pos _

/-- **Accounting**, in every interleaving with fewer than `2 ^ 32` live guards. -/
theorem accounted_of_run (encode : Bytes → String) (clients : List Client)
    (defaultMaxHttp2 defaultMaxHttp3 : Option UInt32) (es : List Event)
    (hfew : EveryState step (fun s => s.guards.entries.length < 2 ^ 32)
      (.start (.new encode clients defaultMaxHttp2 defaultMaxHttp3)) es) :
    EveryState step
      (Exact encode clients (.new encode clients defaultMaxHttp2 defaultMaxHttp3))
      (.start (.new encode clients defaultMaxHttp2 defaultMaxHttp3)) es :=
  (everyState_of_everyState step_accounted (accounted_start encode clients _ _) hfew).mono
    (fun _ hs => hs.exact)

def soloClient : Client := ⟨"alice", "secret", some 1, some 1⟩

/-- Two threads ask for the one slot. -/
def contention : List Event :=
  [.call 0 (.tryAcquire "YWxpY2U6c2VjcmV0" .http2), .call 1 (.tryAcquire "YWxpY2U6c2VjcmV0" .http1),
    .lock 0, .check 0, .store 0 0, .lock 1, .check 1, .store 1 1,
    .call 0 (.drop 0), .lock 0, .check 0, .store 0 0]

theorem contention_accounted :
    (run step (.start (.new Core.base64 [soloClient] none none)) contention).isSome = true ∧
      EveryState step (Exact Core.base64 [soloClient] (.new Core.base64 [soloClient] none none))
        (.start (.new Core.base64 [soloClient] none none)) contention :=
  ⟨by decide +kernel, accounted_of_run Core.base64 [soloClient] none none contention
    (by decide +kernel)⟩

end

end Limiter

end TrustTunnel
