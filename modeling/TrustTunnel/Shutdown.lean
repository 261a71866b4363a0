import TrustTunnel.Lib.Executions

/-!
# The shutdown of the endpoint (`shutdown.rs`)

A task takes a notification handler and a completion guard, with the lock. The application submits
the shutdown and waits for the guards, taking the lock for each. The channel of guards is the
tasks that hold one.
-/

namespace TrustTunnel.Shutdown

open Lib Execution List

/-! ## Notifications -/

/-- `broadcast::channel`, by position; the last `capacity` values are kept. -/
structure Broadcast where
  capacity : Nat
  sent : Nat
  closed : Bool

inductive RecvError where
  | lagged (skipped : Nat)
  | closed

inductive NotificationError where
  | closed

namespace Broadcast

/-- `broadcast::channel(capacity)`. -/
def channel (capacity : Nat) : Broadcast := ⟨capacity, 0, false⟩

/-- `subscribe`: the new receiver waits for the values to come. -/
def subscribe (c : Broadcast) : Nat := c.sent

/-- `send`; it fails when there are no receivers. -/
def send (c : Broadcast) (receivers : Nat) : Option Broadcast :=
  if receivers = 0 then none else some { c with sent := c.sent + 1 }

/-- A poll of `recv`, and the position after it. -/
def recv (c : Broadcast) (next : Nat) : Option (Except RecvError Unit) × Nat :=
  if c.sent ≤ next then (if c.closed then some (.error .closed) else none, next)
  else if c.capacity < c.sent - next then
    (some (.error (.lagged (c.sent - c.capacity - next))), c.sent - c.capacity)
  else (some (.ok ()), next + 1)

/-- A poll of `Notification::wait`. -/
def wait (c : Broadcast) (next : Nat) : Option (Except NotificationError Unit) × Nat :=
  match _h : c.recv next with
  | (none, next') => (none, next')
  | (some (.ok _), next') => (some (.ok ()), next')
  | (some (.error (.lagged _)), next') => c.wait next'
  | (some (.error .closed), next') => (some (.error .closed), next')
termination_by c.sent - next
decreasing_by
  unfold recv at _h
  split at _h
  · split at _h <;> cases _h
  · split at _h
    · cases _h
      omega
    · cases _h

lemma wait_of_lt {c : Broadcast} (hcap : 0 < c.capacity) {next : Nat}
    (h : next < c.sent) : ∃ next', c.wait next = (some (.ok ()), next') := by
  by_cases hl : c.capacity < c.sent - next
  · -- the lag is skipped, and then the oldest value is there
    have hskip : c.recv next =
        (some (.error (.lagged (c.sent - c.capacity - next))), c.sent - c.capacity) := by
      rw [recv, if_neg (by omega), if_pos hl]
    have holdest : c.recv (c.sent - c.capacity) = (some (.ok ()), c.sent - c.capacity + 1) := by
      rw [recv, if_neg (by omega), if_neg (by omega)]
    refine ⟨c.sent - c.capacity + 1, ?_⟩
    rw [wait]
    split <;> simp_all
    rw [wait]
    split <;> simp_all
  · have hok : c.recv next = (some (.ok ()), next + 1) := by
      rw [recv, if_neg (by omega), if_neg hl]
    refine ⟨next + 1, ?_⟩
    rw [wait]
    split <;> simp_all

lemma wait_of_le {c : Broadcast} (ho : c.closed = false) {next : Nat} (h : c.sent ≤ next) :
    c.wait next = (none, next) := by
  have hpend : c.recv next = (none, next) := by
    rw [recv, if_pos h, ho]
    rfl
  rw [wait]
  split <;> simp_all

end Broadcast

/-! ## The application and its tasks -/

inductive Stage where
  | waiting
  | notified
  | ended
  deriving DecidableEq

/-- A receiver, and a completion guard if there was one. -/
structure Task where
  receiver : Nat
  guard : Bool
  stage : Stage

/-- `completeTx`: the sender is there; `completing`: `completion` waits with the lock. -/
structure State where
  notifyTx : Broadcast
  completeTx : Bool
  completing : Bool
  tasks : List Task

def new : State :=
  { notifyTx := .channel 1, completeTx := true, completing := false, tasks := [] }

def Task.live (t : Task) : Bool := t.stage ≠ .ended

def State.receivers (s : State) : Nat := s.tasks.countP Task.live

def submit (s : State) : State :=
  match s.notifyTx.send s.receivers with
  | none => s
  | some notifyTx => { s with notifyTx }

/-- `completion` up to its suspension. -/
def completion (s : State) : State := { s with completeTx := false, completing := true }

/-- `notification_handler` and `completion_guard` under one lock. -/
def register (s : State) : State :=
  { s with tasks := s.tasks ++ [⟨s.notifyTx.subscribe, s.completeTx, .waiting⟩] }

def Task.poll (c : Broadcast) (t : Task) : Task :=
  match c.wait t.receiver with
  | (none, receiver) => { t with receiver }
  | (some (.ok _), receiver) => { t with receiver, stage := .notified }
  | (some (.error _), receiver) => { t with receiver, stage := .ended }

/-- Calls that take the lock, the end of `completion`, polls, and ends of tasks. -/
inductive Event where
  | register
  | submit
  | completion
  | completed
  | poll (task : Nat)
  | done (task : Nat)

def step (s : State) : Event → Option State
  | .register => if s.completing then none else some (register s)
  | .submit => if s.completing then none else some (submit s)
  | .completion => if s.completing then none else some (completion s)
  | .completed =>
    -- `recv` returns once all the senders are dropped
    if s.completing && s.tasks.all (fun t => !(t.live && t.guard)) then
      some { s with completing := false }
    else none
  | .poll i =>
    match s.tasks[i]? with
    | none => none
    | some t =>
      if t.stage = .waiting then some { s with tasks := s.tasks.set i (t.poll s.notifyTx) }
      else none
  | .done i =>
    match s.tasks[i]? with
    | none => none
    | some t =>
      if t.live then some { s with tasks := s.tasks.set i { t with stage := .ended } } else none

/-! ## What a step does -/

section

variable {s s' : State} {e : Event} {c : Broadcast} {t : Task} {i : Nat}

/-- The channel is the one of `new`, with more values. -/
structure Open (s : State) : Prop where
  capacity : s.notifyTx.capacity = 1
  closed : s.notifyTx.closed = false

lemma open_new : Open new := ⟨rfl, rfl⟩

lemma submit_cases (s : State) : submit s = s ∧ s.receivers = 0 ∨
      submit s = { s with notifyTx := { s.notifyTx with sent := s.notifyTx.sent + 1 } } := by
  unfold submit Broadcast.send
  by_cases h : s.receivers = 0
  · exact .inl ⟨by rw [if_pos h], h⟩
  · exact .inr (by rw [if_neg h])

lemma notifyTx_step (h : step s e = some s') : s'.notifyTx = s.notifyTx ∨ e = .submit ∧
      s'.notifyTx = { s.notifyTx with sent := s.notifyTx.sent + 1 } := by
  cases e with
  | submit =>
    simp only [step] at h
    split at h <;> cases h
    rcases submit_cases s with ⟨hs, -⟩ | hs
    · exact .inl (by rw [hs])
    · exact .inr ⟨rfl, by rw [hs]⟩
  | register | completion | completed =>
    simp only [step] at h
    split at h <;> cases h
    exact .inl rfl
  | poll | done =>
    simp only [step] at h
    split at h
    · cases h
    · split at h <;> cases h
      exact .inl rfl

lemma open_step (hs : Open s) (h : step s e = some s') : Open s' := by
  rcases notifyTx_step h with heq | ⟨-, heq⟩
  · exact ⟨by rw [heq, hs.capacity], by rw [heq, hs.closed]⟩
  · exact ⟨by rw [heq]; exact hs.capacity, by rw [heq]; exact hs.closed⟩

lemma sent_step (h : step s e = some s') : s.notifyTx.sent ≤ s'.notifyTx.sent := by
  rcases notifyTx_step h with heq | ⟨-, heq⟩
  · exact Nat.le_of_eq (by rw [heq])
  · rw [heq]
    exact Nat.le_succ _

/-- The task at place `i` waits. -/
def Waiting (i : Nat) (t : Task) (s : State) : Prop :=
  s.tasks[i]? = some t ∧ t.stage = .waiting

/-- The `wait` of the task at place `i` has returned `Ok`. -/
def Notified (i : Nat) (s : State) : Prop :=
  ∃ t, s.tasks[i]? = some t ∧ t.stage = .notified

lemma poll_pending (hc : c.closed = false) (h : c.sent ≤ t.receiver) : t.poll c = t := by
  rw [Task.poll, Broadcast.wait_of_le hc h]

lemma poll_notified (hcap : c.capacity = 1) (h : t.receiver < c.sent) :
    (t.poll c).stage = .notified := by
  obtain ⟨next, hn⟩ := Broadcast.wait_of_lt (by omega) h
  rw [Task.poll, hn]

lemma waiting_step (hs : Open s) (ht : Waiting i t s) (h : step s e = some s') :
    Waiting i t s' ∧ (e = .poll i → s.notifyTx.sent ≤ t.receiver) ∨
      e = .poll i ∧ t.receiver < s.notifyTx.sent ∧ Notified i s' ∨ e = .done i := by
  obtain ⟨hi, hst⟩ := ht
  have hlt : i < s.tasks.length := (List.getElem?_eq_some_iff.mp hi).1
  cases e with
  | register =>
    simp only [step] at h
    split at h <;> cases h
    refine .inl ⟨⟨?_, hst⟩, by simp⟩
    simp [register, List.getElem?_append_left hlt, hi]
  | submit =>
    simp only [step] at h
    split at h <;> cases h
    refine .inl ⟨⟨?_, hst⟩, by simp⟩
    rcases submit_cases s with ⟨hs, -⟩ | hs <;> rw [hs] <;> exact hi
  | completion | completed =>
    simp only [step] at h
    split at h <;> cases h
    exact .inl ⟨⟨hi, hst⟩, by simp⟩
  | poll j =>
    simp only [step] at h
    by_cases hij : j = i
    · subst hij
      simp only [hi, hst, if_true, Option.some.injEq] at h
      subst h
      by_cases hse : s.notifyTx.sent ≤ t.receiver
      · refine .inl ⟨⟨?_, hst⟩, fun _ => hse⟩
        simp [poll_pending hs.closed hse, List.getElem?_set_self hlt]
      · refine .inr (.inl ⟨rfl, by omega, t.poll s.notifyTx, ?_, ?_⟩)
        · simp [List.getElem?_set_self hlt]
        · exact poll_notified hs.capacity (by omega)
    · split at h
      · cases h
      · split at h <;> cases h
        refine .inl ⟨⟨?_, hst⟩, by simp [hij]⟩
        simp [List.getElem?_set_ne hij, hi]
  | done j =>
    simp only [step] at h
    by_cases hij : j = i
    · exact .inr (.inr (by rw [hij]))
    · split at h
      · cases h
      · split at h <;> cases h
        refine .inl ⟨⟨?_, hst⟩, by simp⟩
        simp [List.getElem?_set_ne hij, hi]

lemma sent_submit (ht : Waiting i t s) (h : step s .submit = some s') :
    s'.notifyTx.sent = s.notifyTx.sent + 1 := by
  have hp : s.receivers ≠ 0 := by
    have hm : t ∈ s.tasks := mem_of_getElem? ht.1
    have hl : t.live := by simp [Task.live, ht.2]
    exact Nat.ne_of_gt (countP_pos_iff.mpr ⟨t, hm, hl⟩)
  simp only [step] at h
  split at h <;> cases h
  rcases submit_cases s with ⟨-, hz⟩ | hs
  · exact absurd hz hp
  · rw [hs]

lemma waiting_of_step (hs : Open s) (h : step s e = some s') (ht : Waiting i t s') :
    Waiting i t s ∨
      e = .register ∧ s.tasks.length = i ∧ t = ⟨s.notifyTx.sent, s.completeTx, .waiting⟩ := by
  obtain ⟨hi, hst⟩ := ht
  cases e with
  | register =>
    simp only [step] at h
    split at h <;> cases h
    rw [register, List.getElem?_append] at hi
    split at hi
    · exact .inl ⟨hi, hst⟩
    · have hl := List.getElem?_eq_some_iff.mp hi
      obtain ⟨hlt, heq⟩ := hl
      simp only [length_singleton, Nat.lt_one_iff] at hlt
      refine .inr ⟨rfl, by omega, ?_⟩
      rw [← heq]
      simp [hlt, Broadcast.subscribe]
  | submit =>
    simp only [step] at h
    split at h <;> cases h
    rcases submit_cases s with ⟨hs, -⟩ | hs <;> rw [hs] at hi <;> exact .inl ⟨hi, hst⟩
  | completion | completed =>
    simp only [step] at h
    split at h <;> cases h
    exact .inl ⟨hi, hst⟩
  | poll j =>
    simp only [step] at h
    split at h
    · cases h
    · rename_i t0 hj
      split at h <;> cases h
      by_cases hij : j = i
      · subst hij
        rw [List.getElem?_set_self (List.getElem?_eq_some_iff.mp hj).1] at hi
        cases hi
        by_cases hse : s.notifyTx.sent ≤ t0.receiver
        · rw [poll_pending hs.closed hse] at hst ⊢
          exact .inl ⟨hj, hst⟩
        · rw [poll_notified hs.capacity (by omega)] at hst
          cases hst
      · rw [List.getElem?_set_ne hij] at hi
        exact .inl ⟨hi, hst⟩
  | done j =>
    simp only [step] at h
    split at h
    · cases h
    · rename_i hj
      split at h <;> cases h
      by_cases hij : j = i
      · subst hij
        rw [List.getElem?_set_self (List.getElem?_eq_some_iff.mp hj).1] at hi
        cases hi
        cases hst
      · rw [List.getElem?_set_ne hij] at hi
        exact .inl ⟨hi, hst⟩

end

/-! ## Executions -/

section Executions

variable (x : Execution step new)

def Submitted (n : Nat) : Prop := ∃ k, k < n ∧ x.event k = some .submit

/-- The task waits, and its `wait` would return if it were polled. -/
def Ready (i : Nat) (s : State) : Prop :=
  ∃ t, Waiting i t s ∧ (s.notifyTx.wait t.receiver).1.isSome

def Polled : Prop := ∀ i, x.Fair (Ready i) (.poll i)

/-- Its `wait` returns `Ok`, unless the task ends before. -/
def Told (i n : Nat) : Prop :=
  ∃ m, n ≤ m ∧ (Notified i (x.state m) ∨ x.event m = some (.done i))

def EveryoneTold : Prop :=
  ∀ n i t, Waiting i t (x.state n) → t.guard = true → Submitted x n → Told x i n

/-- Who registers after the shutdown ends untold, or it is submitted again. -/
def NoneLate : Prop :=
  ∀ n, x.event n = some .register → Submitted x n → (x.state n).completeTx = true →
    ∃ m, n < m ∧
      (x.event m = some .submit ∨ x.event m = some (.done (x.state n).tasks.length))

variable {x}

section

variable {n m i : Nat} {t : Task}

lemma open_state (n : Nat) : Open (x.state n) :=
  invariant open_new (fun _ _ _ => open_step) n

lemma sent_mono (h : n ≤ m) : (x.state n).notifyTx.sent ≤ (x.state m).notifyTx.sent :=
  stays (P := fun s => (x.state n).notifyTx.sent ≤ s.notifyTx.sent) (Nat.le_refl _)
    (fun _ _ _ he hle => Nat.le_trans hle (sent_step (next_of_some he))) h

lemma told_of_over (ht : Waiting i t (x.state n)) (hm : n ≤ m)
    (ho : ¬Waiting i t (x.state m)) : Told x i n := by
  by_contra hn
  refine ho (stays ht (fun k e hk he hw => ?_) hm)
  rcases waiting_step (open_state k) hw (next_of_some he) with
    ⟨hw', -⟩ | ⟨-, -, hno⟩ | rfl
  · exact hw'
  · exact absurd ⟨k + 1, Nat.le_succ_of_le hk, .inl hno⟩ hn
  · exact absurd ⟨k, hk, .inr he⟩ hn

lemma told_of_pending (hp : Polled x) (ht : Waiting i t (x.state n))
    (hse : t.receiver < (x.state n).notifyTx.sent) : Told x i n := by
  refine leadsTo (P := fun s => Open s ∧ Waiting i t s ∧ t.receiver < s.notifyTx.sent) (hp i)
    ?_ (fun m e hm hP he => ?_) ⟨open_state n, ht, hse⟩
  · rintro s ⟨ho, hw, hlt⟩
    obtain ⟨next, hne⟩ :=
      Broadcast.wait_of_lt (c := s.notifyTx) (by rw [ho.capacity]; exact Nat.one_pos) hlt
    exact ⟨t, hw, by rw [hne]; rfl⟩
  · obtain ⟨ho, hw, hlt⟩ := hP
    have hs := next_of_some he
    rcases waiting_step ho hw hs with ⟨hw', hpoll⟩ | ⟨-, -, hn⟩ | rfl
    · refine .inl ⟨⟨open_state _, hw', Nat.lt_of_lt_of_le hlt (sent_step hs)⟩, ?_⟩
      intro heq
      exact absurd hlt (Nat.not_lt.mpr (hpoll heq))
    · exact .inr ⟨m + 1, Nat.le_succ_of_le hm, .inl hn⟩
    · exact .inr ⟨m, hm, .inr he⟩

lemma exists_register (ht : Waiting i t (x.state n)) :
    ∃ r, r < n ∧ x.event r = some .register ∧ (x.state r).tasks.length = i ∧
      t = ⟨(x.state r).notifyTx.sent, (x.state r).completeTx, .waiting⟩ ∧
      ∀ m, r < m → m ≤ n → Waiting i t (x.state m) := by
  induction n with
  | zero =>
    rw [x.init_eq] at ht
    simp [Waiting, new] at ht
  | succ n ih =>
    have hex : ∀ r, (∀ m, r < m → m ≤ n → Waiting i t (x.state m)) →
        ∀ m, r < m → m ≤ n + 1 → Waiting i t (x.state m) := by
      intro r hr m hrm hm
      rcases Nat.le_succ_iff.mp hm with hle | rfl
      · exact hr m hrm hle
      · exact ht
    cases he : x.event n with
    | none =>
      rw [next_of_none he] at ht
      obtain ⟨r, hr, hev, hl, heq, hw⟩ := ih ht
      exact ⟨r, Nat.lt_succ_of_lt hr, hev, hl, heq, hex r hw⟩
    | some =>
      rcases waiting_of_step (open_state n) (next_of_some he) ht with
        hw | ⟨rfl, hl, heq⟩
      · obtain ⟨r, hr, hev, hl, heq, hw⟩ := ih hw
        exact ⟨r, Nat.lt_succ_of_lt hr, hev, hl, heq, hex r hw⟩
      · exact ⟨n, Nat.lt_succ_self n, he, hl, heq,
          hex n (fun m hnm hmn => absurd hmn (Nat.not_le.mpr hnm))⟩

lemma told_of_registered (hp : Polled x) (ht : Waiting i t (x.state n))
    (hr : t.receiver = (x.state r).notifyTx.sent)
    (hw : ∀ k, r < k → k ≤ n → Waiting i t (x.state k)) (hrm : r < m)
    (hm : x.event m = some .submit) : Told x i n := by
  have ha : Waiting i t (x.state m) → t.receiver < (x.state (m + 1)).notifyTx.sent := by
    intro hwm
    rw [sent_submit hwm (next_of_some hm), hr]
    exact Nat.lt_succ_of_le (sent_mono (Nat.le_of_lt hrm))
  by_cases hmn : m < n
  · have hlt := ha (hw m hrm (Nat.le_of_lt hmn))
    exact told_of_pending hp ht (Nat.lt_of_lt_of_le hlt (sent_mono hmn))
  · have hnm : n ≤ m := Nat.not_lt.mp hmn
    by_cases hwm : Waiting i t (x.state (m + 1))
    · by_cases hwm' : Waiting i t (x.state m)
      · obtain ⟨k, hk, hto⟩ := told_of_pending hp hwm (ha hwm')
        exact ⟨k, by omega, hto⟩
      · exact told_of_over ht hnm hwm'
    · exact told_of_over ht (Nat.le_succ_of_le hnm) hwm

lemma waiting_of_late (ht : Waiting i t (x.state n)) (hr : (x.state n).notifyTx.sent ≤ t.receiver)
    (hsu : ∀ k, n ≤ k → x.event k ≠ some .submit)
    (hd : ∀ k, n ≤ k → x.event k ≠ some (.done i)) (hm : n ≤ m) : Waiting i t (x.state m) := by
  refine (stays (P := fun s => Waiting i t s ∧ s.notifyTx.sent ≤ t.receiver)
    ⟨ht, hr⟩ (fun k e hk he hP => ?_) hm).1
  obtain ⟨hw, hle⟩ := hP
  have hs := next_of_some he
  have hse : (x.state (k + 1)).notifyTx.sent ≤ t.receiver := by
    rcases notifyTx_step hs with heq | ⟨rfl, -⟩
    · rw [heq]
      exact hle
    · exact absurd he (hsu k hk)
  rcases waiting_step (open_state k) hw hs with ⟨hw', -⟩ | ⟨-, hlt, -⟩ | rfl
  · exact ⟨hw', hse⟩
  · exact absurd hle (Nat.not_le.mpr hlt)
  · exact absurd he (hd k hk)

/-- **Everyone is told exactly if no one is late.** -/
theorem everyoneTold_iff (hpolled : Polled x) : EveryoneTold x ↔ NoneLate x := by
  constructor
  · intro hto r hreg ⟨k, hk, hsu⟩ hg
    by_contra hlate
    have hn : ∀ m, r + 1 ≤ m → x.event m ≠ some .submit ∧
        x.event m ≠ some (.done (x.state r).tasks.length) := by
      intro m hm
      exact ⟨fun he => hlate ⟨m, hm, .inl he⟩, fun he => hlate ⟨m, hm, .inr he⟩⟩
    have hs := next_of_some hreg
    simp only [step] at hs
    split at hs
    · cases hs
    have hsta : register (x.state r) = x.state (r + 1) := Option.some.inj hs
    have hw : Waiting (x.state r).tasks.length
        ⟨(x.state r).notifyTx.sent, true, .waiting⟩ (x.state (r + 1)) := by
      refine ⟨?_, rfl⟩
      rw [← hsta, register, List.getElem?_append_right (Nat.le_refl _), Nat.sub_self, hg]
      rfl
    have hsen : (x.state (r + 1)).notifyTx.sent = (x.state r).notifyTx.sent := by
      rw [← hsta]
      rfl
    obtain ⟨m, hm, ⟨t, hi, hst⟩ | hd⟩ := hto (r + 1) _ _ hw rfl ⟨k, by omega, hsu⟩
    · have hwm := waiting_of_late hw (Nat.le_of_eq hsen) (fun k hk => (hn k hk).1)
        (fun k hk => (hn k hk).2) hm
      rw [hwm.1] at hi
      cases hi
      cases hst
    · exact (hn m hm).2 hd
  · intro hlate n i t ht hgu ⟨k, hk, hsu⟩
    obtain ⟨r, hr, hreg, hl, heq, hw⟩ := exists_register ht
    have hre : t.receiver = (x.state r).notifyTx.sent := by rw [heq]
    have hkr : k ≠ r := by
      rintro rfl
      rw [hsu] at hreg
      cases hreg
    by_cases hrk : r < k
    · exact told_of_registered hpolled ht hre hw hrk hsu
    · have hg : (x.state r).completeTx := by
        rw [heq] at hgu
        exact hgu
      obtain ⟨m, hm, he | he⟩ := hlate r hreg ⟨k, by omega, hsu⟩ hg
      · exact told_of_registered hpolled ht hre hw hm he
      · rw [hl] at he
        by_cases hmn : n ≤ m
        · exact ⟨m, hmn, .inr he⟩
        · -- it waits after it has ended
          have hwm := hw (m + 1) (by omega) (by omega)
          have hs := next_of_some he
          simp only [step] at hs
          split at hs
          · cases hs
          · rename_i hi
            split at hs
            · have hsta := Option.some.inj hs
              have hse := hwm.1
              rw [← hsta, List.getElem?_set_self (List.getElem?_eq_some_iff.mp hi).1] at hse
              have hst := hwm.2
              rw [← Option.some.inj hse] at hst
              cases hst
            · cases hs

end

end Executions

/-- A task is told and ends, and so does `completion`. -/
def promptTask : Execution step new where
  state
    | 0 => new
    | 1 => register new
    | 2 => submit (register new)
    | 3 => completion (submit (register new))
    | 4 => { completion (submit (register new)) with tasks := [⟨1, true, .notified⟩] }
    | 5 => { completion (submit (register new)) with tasks := [⟨1, true, .ended⟩] }
    | _ => { notifyTx := ⟨1, 1, false⟩, completeTx := false, completing := false,
             tasks := [⟨1, true, .ended⟩] }
  event
    | 0 => some .register
    | 1 => some .submit
    | 2 => some .completion
    | 3 => some (.poll 0)
    | 4 => some (.done 0)
    | 5 => some .completed
    | _ => none
  init_eq := rfl
  next
    | 0 => rfl
    | 1 => rfl
    | 2 => rfl
    | 3 => by
      have hpoll : (⟨0, true, .waiting⟩ : Task).poll ⟨1, 1, false⟩ = ⟨1, true, .notified⟩ := by
        simp [Task.poll, Broadcast.wait, Broadcast.recv]
      exact congrArg (fun t => some { completion (submit (register new)) with tasks := [t] }) hpoll
    | 4 => rfl
    | 5 => rfl
    | _ + 6 => rfl

theorem promptTask_told : EveryoneTold promptTask := by
  have hsta : ∀ m, (promptTask.state (m + 6)).tasks = [⟨1, true, .ended⟩] := fun _ => rfl
  refine (everyoneTold_iff (fun i n hr => ?_)).mpr (fun n hre hs _ => ?_)
  · obtain ⟨t, ⟨hi, hst⟩, -⟩ := hr (n + 6) (by omega)
    rw [hsta] at hi
    rw [mem_singleton.mp (mem_of_getElem? hi)] at hst
    cases hst
  · obtain ⟨k, hk, -⟩ := hs
    rcases n with _ | _ | _ | _ | _ | _ | n
    · exact absurd hk (Nat.not_lt_zero k)
    all_goals cases hre

/-- A task registers between the shutdown and `completion`. -/
def lateTask : Execution step new where
  state
    | 0 => new
    | 1 => submit new
    | 2 => register (submit new)
    | _ => completion (register (submit new))
  event
    | 0 => some .submit
    | 1 => some .register
    | 2 => some .completion
    | _ => none
  init_eq := rfl
  next
    | 0 => rfl
    | 1 => rfl
    | 2 => rfl
    | _ + 3 => rfl

/-- `completion` waits for a task that is never told. -/
theorem lateTask_untold :
    Polled lateTask ∧ (lateTask.state 3).completing = true ∧ ¬EveryoneTold lateTask := by
  have hst : ∀ m, lateTask.state (m + 3) = completion (register (submit new)) := fun _ => rfl
  have hn : ∀ m, lateTask.event (m + 3) = none := fun _ => rfl
  refine ⟨fun i n hre => ?_, rfl, fun ht => ?_⟩
  · obtain ⟨t, ⟨hi, -⟩, hw⟩ := hre (n + 3) (by omega)
    rw [hst] at hi hw
    have hr : t.receiver = 0 := by
      have hme := mem_of_getElem? hi
      simp only [completion, register, submit, new, Broadcast.send, State.receivers,
        countP_nil, if_true, nil_append, mem_singleton] at hme
      rw [hme]
      rfl
    have hp := Broadcast.wait_of_le (c := (completion (register (submit new))).notifyTx) rfl
      (Nat.le_refl 0)
    rw [hr, hp] at hw
    cases hw
  · obtain ⟨m, hm, ⟨t, hi, hs⟩ | hd⟩ :=
      ht 3 0 ⟨0, true, .waiting⟩ ⟨rfl, rfl⟩ rfl ⟨0, by decide, rfl⟩
    · obtain ⟨k, rfl⟩ := Nat.exists_eq_add_of_le' hm
      rw [hst] at hi
      cases hi
      cases hs
    · obtain ⟨k, rfl⟩ := Nat.exists_eq_add_of_le' hm
      rw [hn] at hd
      cases hd

end TrustTunnel.Shutdown
