import TrustTunnel.IcmpIsolation

/-!
# How long the ICMP forwarder waits (`icmp_forwarder.rs`)

A key that is in the table stays there with a new deadline; an old deadline removes it all the
same. Proved for every run and layout of the table:

* `waiters_expire`: no waiter outlives its deadline;
* `timely_iff`: waiters are kept, and replies find them, exactly if no equal request is pending
  with an earlier deadline and no reply comes before its request is registered.
-/

namespace TrustTunnel.IcmpForwarder

open Lib IcmpUtils List

/-! ## Keys -/

section

variable {layout : List Waiter} {w waiter : Waiter} {expired : List Expiry} {x : Expiry} {echo : Echo}

def Distinct (layout : List Waiter) : Prop := layout.Pairwise (fun v w => v.key.eq w.key = false)

lemma eq_self (echo : Echo) : echo.eq echo :=
  Echo.eq_iff.mpr ⟨rfl, rfl, .inl prefix_rfl⟩

lemma Distinct.perm (h : Distinct waiters) (hl : layout.Perm waiters) : Distinct layout :=
  List.Pairwise.perm h hl.symm (fun {v w} heq => by rw [Echo.eq_comm]; exact heq)

lemma Distinct.ne_of_mem (h : Distinct (w :: layout)) (hv : v ∈ layout) : v.key ≠ w.key := by
  intro heq
  have hf := (pairwise_cons.mp h).1 v hv
  rw [heq, eq_self] at hf
  cases hf

lemma put_cases (waiter : Waiter) (layout : List Waiter) :
    (∃ l v r, layout = l ++ v :: r ∧ v.key.eq waiter.key ∧
      put waiter layout = l ++ { waiter with key := v.key } :: r) ∨
    ((∀ w ∈ layout, w.key.eq waiter.key = false) ∧ put waiter layout = layout ++ [waiter]) := by
  induction layout with
  | nil => exact .inr ⟨fun _ h => (not_mem_nil h).elim, rfl⟩
  | cons w layout ih =>
    rw [put]
    cases heq : w.key.eq waiter.key with
    | true => exact .inl ⟨[], w, layout, rfl, heq, rfl⟩
    | false =>
      obtain ⟨l, v, r, rfl, hv, hp⟩ | ⟨ha, hp⟩ := ih
      · exact .inl ⟨w :: l, v, r, rfl, hv, by simp [hp]⟩
      · exact .inr ⟨forall_mem_cons.mpr ⟨heq, ha⟩, by simp [hp]⟩

lemma Distinct.put (h : Distinct layout) (waiter : Waiter) : Distinct (put waiter layout) := by
  obtain ⟨l, v, r, rfl, -, hp⟩ | ⟨ha, hp⟩ := put_cases waiter layout
  · rw [hp]
    unfold Distinct at h ⊢
    rw [pairwise_append, pairwise_cons] at h ⊢
    refine ⟨h.1, h.2.1, fun u hu w hw => ?_⟩
    rcases mem_cons.mp hw with rfl | hw
    · exact h.2.2 u hu v mem_cons_self
    · exact h.2.2 u hu w (mem_cons_of_mem v hw)
  · rw [hp]
    refine pairwise_append.mpr ⟨h, pairwise_singleton _ _, fun w hw v hv => ?_⟩
    rw [mem_singleton.mp hv]
    exact ha w hw

lemma key_of_put {P : Echo → Prop} (h : (∃ w ∈ layout, P w.key)) :
    ∃ w ∈ put waiter layout, P w.key := by
  obtain ⟨w, hw, hP⟩ := h
  obtain ⟨l, v, r, rfl, -, hp⟩ | ⟨-, hp⟩ := put_cases waiter layout
  · rw [hp]
    rcases mem_append.mp hw with hw | hw
    · exact ⟨w, mem_append_left _ hw, hP⟩
    · rcases mem_cons.mp hw with rfl | hw
      · exact ⟨_, mem_append_right l mem_cons_self, hP⟩
      · exact ⟨w, mem_append_right l (mem_cons_of_mem _ hw), hP⟩
  · exact ⟨w, hp ▸ mem_append_left _ hw, hP⟩

lemma put_finds (waiter : Waiter) (layout : List Waiter) :
    ∃ w ∈ put waiter layout, w.key.eq waiter.key := by
  obtain ⟨l, v, r, -, hv, hp⟩ | ⟨-, hp⟩ := put_cases waiter layout
  · rw [hp]
    exact ⟨_, mem_append_right l mem_cons_self, hv⟩
  · exact ⟨waiter, hp ▸ mem_append_right _ (mem_singleton_self waiter), eq_self _⟩

lemma Distinct.remove (h : Distinct layout) (echo : Echo) : Distinct (remove echo layout) :=
  List.Pairwise.sublist eraseP_sublist h

lemma key_ne_of_mem_removeAll (h : Distinct layout) (hw : w ∈ removeAll expired layout)
    (hx : x ∈ expired) : w.key ≠ x.request := by
  have hre : ∀ {layout : List Waiter}, Distinct layout → w ∈ remove x.request layout →
      w.key ≠ x.request := by
    intro layout h hw hk
    obtain ⟨v, l, r, hl, hv, hla, hr⟩ := exists_of_eraseP
      (p := fun v : Waiter => v.key.eq x.request) (mem_of_mem_eraseP hw) (by rw [hk, eq_self])
    have hm : w ∈ l ++ r := by rw [← hr]; exact hw
    rcases mem_append.mp hm with hw | hw
    · exact hl w hw (by rw [hk, eq_self])
    · rw [hla] at h
      have hf := (pairwise_cons.mp (pairwise_append.mp h).2.1).1 w hw
      rw [hk, hv] at hf
      cases hf
  induction expired generalizing layout with
  | nil => cases hx
  | cons y expired ih =>
    rcases mem_cons.mp hx with rfl | hx
    · exact hre h (removeAll_subset hw)
    · exact ih (h.remove y.request) hw hx

lemma Distinct.removeAll (h : Distinct layout) (expired : List Expiry) :
    Distinct (removeAll expired layout) := by
  induction expired generalizing layout with
  | nil => exact h
  | cons x expired ih => exact ih (h.remove x.request)

lemma not_mem_removeAll (h : Distinct (w :: layout)) (hx : x ∈ expired)
    (heq : x.request.eq w.key) : w ∉ removeAll expired (w :: layout) := by
  induction expired generalizing layout with
  | nil => cases hx
  | cons y expired ih =>
    rw [removeAll, foldl_cons, ← removeAll, IcmpForwarder.remove]
    cases hy : w.key.eq y.request with
    | true =>
      rw [eraseP_cons_of_pos (p := fun w : Waiter => w.key.eq y.request) hy]
      exact fun hw => h.ne_of_mem (removeAll_subset hw) rfl
    | false =>
      rw [eraseP_cons_of_neg (by rw [hy]; exact Bool.false_ne_true)]
      rcases mem_cons.mp hx with rfl | hx
      · rw [Echo.eq_comm, hy] at heq
        cases heq
      · have hs : (w :: layout.eraseP (·.key.eq y.request)).Sublist (w :: layout) :=
          eraseP_sublist.cons_cons w
        exact ih (List.Pairwise.sublist hs h) hx

lemma equal_of_removed (hw : w ∈ layout) (hr : w ∉ removeAll expired layout) :
    ∃ x ∈ expired, x.request.eq w.key := by
  induction expired generalizing layout with
  | nil => exact absurd hw hr
  | cons y expired ih =>
    cases hy : y.request.eq w.key with
    | true => exact ⟨y, mem_cons_self, hy⟩
    | false =>
      have hk : w ∈ remove y.request layout :=
        (mem_eraseP_of_neg (by rw [Echo.eq_comm, hy]; exact Bool.false_ne_true)).mpr hw
      obtain ⟨x, hx, heq⟩ := ih hk hr
      exact ⟨x, mem_cons_of_mem y hx, heq⟩

end

/-! ## Steps -/

section

variable {settings : Settings} {s t : State} {e : Event}

def State.refuses (capacity : Nat) (s : State) (r : Received) (w : Waiter) : Bool :=
  ((s.queues.lookup w.multiplexer).bind (fun q => q.trySend capacity r)).isNone

inductive Changed (settings : Settings) (s t : State) : Event → Prop
  | still {e : Event} : (∀ m stamp layout, e ≠ .register m stamp layout) →
      t.waiters.Perm s.waiters → t.deadlines = s.deadlines → Changed settings s t e
  | registered {m stamp : Nat} {layout : List Waiter} {w : Writing} : s.writing.lookup m = some w →
      layout.Perm s.waiters → t.waiters = put ⟨w.echo, w.peer, m⟩ layout →
      t.deadlines = enqueue ⟨stamp + settings.requestTimeout, m, w.echo⟩ s.deadlines →
      Changed settings s t (.register m stamp layout)
  | refused {r : Received} {layout : List Waiter} {echo : Echo} {w : Waiter} : layout.Perm s.waiters →
      get echo layout = some w → s.refuses settings.recvMessageQueueCapacity r w = true →
      t.waiters = remove echo layout → t.deadlines = s.deadlines →
      Changed settings s t (.receive r layout)
  | expired {layout : List Waiter} : layout.Perm s.waiters →
      t.waiters = removeAll (s.deadlines.filter (·.deadline ≤ s.now)) layout →
      t.deadlines = s.deadlines.filter (s.now < ·.deadline) → Changed settings s t (.expire layout)

lemma changed_listen (hl : layout.Perm s.waiters) :
    Changed settings s (s.listen settings.recvMessageQueueCapacity r layout)
      (.receive r layout) := by
  unfold State.listen
  split
  · exact .still (by rintro _ _ _ ⟨⟩) .rfl rfl
  · exact .still (by rintro _ _ _ ⟨⟩) .rfl rfl
  · split
    · exact .still (by rintro _ _ _ ⟨⟩) hl rfl
    · rename_i hg
      unfold State.deliver
      split
      · exact .still (by rintro _ _ _ ⟨⟩) hl rfl
      · rename_i hr
        exact .refused hl hg (by rw [State.refuses, hr]; rfl) rfl rfl

lemma changed_of_step (h : step settings s e = some t) :
    Changed settings s t e ∧ s.now ≤ t.now := by
  cases e with
  | makeMultiplexer =>
    obtain ⟨-, ⟨⟩⟩ := Option.ite_none_left_eq_some.mp h
    exact ⟨.still (by rintro _ _ _ ⟨⟩) .rfl rfl, Nat.le_refl _⟩
  | send =>
    obtain ⟨-, h⟩ := Option.ite_none_right_eq_some.mp h
    split at h <;> cases h <;> exact ⟨.still (by rintro _ _ _ ⟨⟩) .rfl rfl, Nat.le_refl _⟩
  | register =>
    obtain ⟨w, hw, ⟨-, -, hl⟩, rfl⟩ := register_eq_some h
    exact ⟨.registered hw hl rfl rfl, Nat.le_refl _⟩
  | receive =>
    obtain ⟨⟨-, -, hl⟩, rfl⟩ := receive_eq_some h
    refine ⟨changed_listen hl, Nat.le_of_eq ?_⟩
    unfold State.listen State.deliver
    repeat' split
    all_goals rfl
  | expire =>
    obtain ⟨⟨-, hl⟩, rfl⟩ := expire_eq_some h
    exact ⟨.expired hl rfl rfl, Nat.le_refl _⟩
  | read =>
    simp only [step] at h
    split at h <;> cases h
    exact ⟨.still (by rintro _ _ _ ⟨⟩) .rfl rfl, Nat.le_refl _⟩
  | dropSource =>
    obtain ⟨q, -, rfl⟩ := Option.map_eq_some_iff.mp h
    exact ⟨.still (by rintro _ _ _ ⟨⟩) .rfl rfl, Nat.le_refl _⟩
  | pass =>
    cases h
    exact ⟨.still (by rintro _ _ _ ⟨⟩) .rfl rfl, Nat.le_add_right _ _⟩

/-! ## No waiter is left behind -/

structure Kept (s : State) : Prop where
  distinct : Distinct s.waiters
  pending : ∀ w ∈ s.waiters, ∃ x ∈ s.deadlines, x.request = w.key

/-- A request leaves the deadlines when its time has come, with the waiter. -/
lemma kept_or_expired (hs : Kept s) (h : step settings s e = some t) (hx : x ∈ s.deadlines) :
    x ∈ t.deadlines ∨ (x.deadline ≤ s.now ∧ ∀ w ∈ t.waiters, w.key ≠ x.request) := by
  cases (changed_of_step h).1 with
  | still _ _ hd | refused _ _ _ _ hd => exact .inl (hd ▸ hx)
  | registered _ _ _ hd => exact .inl (hd ▸ mem_enqueue.mpr (.inr hx))
  | expired hl hwa hd =>
    by_cases hdu : x.deadline ≤ s.now
    · refine .inr ⟨hdu, fun w hw => ?_⟩
      rw [hwa] at hw
      exact key_ne_of_mem_removeAll (hs.distinct.perm hl) hw
        (mem_filter.mpr ⟨hx, decide_eq_true hdu⟩)
    · exact .inl (hd ▸ mem_filter.mpr ⟨hx, decide_eq_true (Nat.not_le.mp hdu)⟩)

lemma kept_of_step (hs : Kept s) (h : step settings s e = some t) : Kept t := by
  have hold : ∀ w ∈ t.waiters, w ∈ s.waiters → ∃ x ∈ t.deadlines, x.request = w.key := by
    intro w hw hws
    obtain ⟨x, hx, hk⟩ := hs.pending w hws
    obtain hx | ⟨-, hne⟩ := kept_or_expired hs h hx
    · exact ⟨x, hx, hk⟩
    · exact absurd hk.symm (hne w hw)
  cases (changed_of_step h).1 with
  | still _ hwa =>
    exact ⟨hs.distinct.perm hwa, fun w hw => hold w hw (hwa.mem_iff.mp hw)⟩
  | registered _ hl hwa hd =>
    refine ⟨by rw [hwa]; exact (hs.distinct.perm hl).put _, fun w hw => ?_⟩
    rw [hwa] at hw
    rcases mem_put hw with hw | ⟨-, hk | ⟨v, hv, hk, -⟩⟩
    · exact hold w (by rw [hwa]; exact ‹w ∈ put _ _›) (hl.mem_iff.mp hw)
    · exact ⟨_, hd ▸ mem_enqueue.mpr (.inl rfl), hk.symm⟩
    · obtain ⟨x, hx, hxk⟩ := hs.pending v (hl.mem_iff.mp hv)
      exact ⟨x, hd ▸ mem_enqueue.mpr (.inr hx), hxk.trans hk⟩
  | refused hl _ _ hwa =>
    refine ⟨hwa ▸ (hs.distinct.perm hl).remove _, fun w hw => hold w hw ?_⟩
    rw [hwa] at hw
    exact hl.mem_iff.mp (mem_of_mem_eraseP hw)
  | expired hl hwa =>
    refine ⟨?_, fun w hw => hold w hw ?_⟩
    · rw [hwa]
      exact (hs.distinct.perm hl).removeAll _
    · rw [hwa] at hw
      exact hl.mem_iff.mp (removeAll_subset hw)

lemma kept_start : Kept start := ⟨.nil, fun _ h => (not_mem_nil h).elim⟩

/-- **No waiter is left behind**: each key is in a deadline's list, and gone when that passes. -/
theorem waiters_expire (settings : Settings) (s : State) (h : Reachable (step settings) start s) :
    s.waiters.Pairwise (fun v w => v.key.eq w.key = false) ∧
    (∀ w ∈ s.waiters, ∃ x ∈ s.deadlines, x.request = w.key) ∧
    (∀ e t, step settings s e = some t → ∀ x ∈ s.deadlines,
      x ∈ t.deadlines ∨ (x.deadline ≤ s.now ∧ ∀ w ∈ t.waiters, w.key ≠ x.request)) ∧
    ∀ layout t, step settings s (.expire layout) = some t → ∀ x ∈ t.deadlines,
      t.now < x.deadline := by
  have hs : Kept s := reachable_invariant kept_start (fun _ _ _ => kept_of_step) h
  refine ⟨hs.distinct, hs.pending, fun e t ht x hx => kept_or_expired hs ht hx,
    fun layout t ht x hx => ?_⟩
  obtain ⟨-, rfl⟩ := expire_eq_some ht
  exact of_decide_eq_true (mem_filter.mp hx).2

/-- A request repeated just before it expires. -/
def repeating : List Event :=
  pinging 0 7 [] [] ++ [.pass 2, .send 0 (decoded 7 dns 1 64 []) (.ok ()),
    .register 0 2 [waiterOf 0 7 []], .pass 1]

theorem ping_expires : ∃ s, Reachable (step exampleSettings) start s ∧
    s.waiters = [waiterOf 0 7 []] ∧ s.deadlines.map (·.deadline) = [3, 5] ∧
    (∀ w ∈ s.waiters, ∃ x ∈ s.deadlines, x.request = w.key) ∧
    ∀ t, step exampleSettings s (.expire s.waiters) = some t → ∀ x ∈ t.deadlines,
      t.now < x.deadline := by
  have hr : (run (step exampleSettings) start repeating).map
      (fun s => (s.waiters, s.deadlines.map (·.deadline))) = some ([waiterOf 0 7 []], [3, 5]) := by
    decide +kernel
  obtain ⟨s, hs, hw⟩ := Option.map_eq_some_iff.mp hr
  obtain ⟨-, hp, -, he⟩ := waiters_expire exampleSettings s ⟨_, hs⟩
  exact ⟨s, ⟨_, hs⟩, congrArg Prod.fst hw, congrArg Prod.snd hw, hp, he _⟩

/-! ## Renewed requests -/

/-- The requests registered, and those whose waiter was not refused a message. -/
structure History where
  registered : List Expiry
  live : List Expiry

def History.note (settings : Settings) (s : State) (e : Event) (t : State) (history : History) : History :=
  match e with
  | .register m stamp _ =>
    match s.writing.lookup m with
    | some w =>
      let x : Expiry := ⟨stamp + settings.requestTimeout, m, w.echo⟩
      ⟨x :: history.registered, x :: history.live⟩
    | none => history
  | .receive r _ =>
    { history with live := history.live.filter (fun x => !s.waiters.any (fun w =>
        w.key.eq x.request && s.refuses settings.recvMessageQueueCapacity r w && !t.waiters.contains w)) }
  | _ => history

/-- No waiter is removed before its last equal request's time. -/
def Unhurried (settings : Settings) (x : State × History) : Prop :=
  ∀ time layout t, run (step settings) x.1 [.pass time, .expire layout] = some t →
    ∀ w ∈ x.1.waiters, w ∉ t.waiters → ∀ r ∈ x.2.registered, r.request.eq w.key = true →
      r.deadline ≤ t.now

/-- A message that answers a registered request, or one that is sent and not yet registered, in
time finds a waiter. -/
def Answered (settings : Settings) (x : State × History) : Event → Prop
  | .receive r layout => ∀ echo, r.message.respondedEchoRequest = some (some echo) →
    ((∃ y ∈ x.2.live, x.1.now < y.deadline ∧ quotes r.message y.request = true) ∨
      ∃ m w, x.1.writing.lookup m = some w ∧ x.1.now < w.sentAt + settings.requestTimeout ∧
        quotes r.message w.echo = true) → get echo layout ≠ none
  | _ => True

/-- No request waits that equals the key of a waiter with a later deadline. -/
def Unrenewed (x : State × History) : Prop :=
  x.1.listening = true → ∀ y ∈ x.1.deadlines, ∀ w ∈ x.1.waiters, y.request.eq w.key = true →
    ∀ r ∈ x.2.registered, r.request.eq w.key = true → r.deadline ≤ max y.deadline x.1.now

/-- No message answers a request that is not yet registered, unless an equal one is. -/
def Unhasty (settings : Settings) (x : State × History) : Event → Prop
  | .receive r _ => ∀ echo, r.message.respondedEchoRequest = some (some echo) →
    ∀ m w, x.1.writing.lookup m = some w → x.1.now < w.sentAt + settings.requestTimeout →
      quotes r.message w.echo = true → ∃ v ∈ x.1.waiters, v.key.eq echo = true
  | _ => True

instance : DecidablePred Unrenewed := fun x =>
  inferInstanceAs (Decidable (x.1.listening = true → ∀ y ∈ x.1.deadlines, ∀ w ∈ x.1.waiters,
    y.request.eq w.key = true → ∀ r ∈ x.2.registered, r.request.eq w.key = true →
      r.deadline ≤ max y.deadline x.1.now))

variable {x y : State × History}

lemma eq_of_quotes {key request echo : Echo} {message : Message} (heq : key.eq request)
    (he : message.respondedEchoRequest = some (some echo)) (h : quotes message request) :
    key.eq echo := by
  rw [quotes, he] at h
  simp only [Bool.and_eq_true, beq_iff_eq, isPrefixOf_iff_prefix] at h
  obtain ⟨⟨hid, hs⟩, hd⟩ := h
  obtain ⟨hid', hs', hd'⟩ := Echo.eq_iff.mp heq
  refine Echo.eq_iff.mpr ⟨hid'.trans hid.symm, hs'.trans hs.symm, ?_⟩
  rcases hd' with hd' | hd'
  · exact .inl (hd.trans hd')
  · exact prefix_or_prefix_of_prefix hd hd'

lemma get_eq_of_removed (hw : w ∈ layout)
    (h : w ∉ remove echo layout) : get echo layout = some w := by
  induction layout with
  | nil => cases hw
  | cons v layout ih =>
    rw [remove] at h
    rw [get]
    cases hv : v.key.eq echo with
    | true =>
      rw [eraseP_cons_of_pos (p := fun w : Waiter => w.key.eq echo) hv] at h
      rw [find?_cons_of_pos (p := fun w : Waiter => w.key.eq echo) hv,
        (mem_cons.mp hw).resolve_right h]
    | false =>
      rw [eraseP_cons_of_neg (by rw [hv]; exact Bool.false_ne_true), mem_cons, not_or] at h
      rw [find?_cons_of_neg (by rw [hv]; exact Bool.false_ne_true)]
      exact ih ((mem_cons.mp hw).resolve_left h.1) h.2

def Waits (x : State × History) : Prop :=
  ∀ r ∈ x.2.live, r ∈ x.2.registered ∧
    (x.1.now < r.deadline → ∃ w ∈ x.1.waiters, w.key.eq r.request = true)

lemma note_of_ne (hne : ∀ m stamp layout, e ≠ .register m stamp layout) (history : History) :
    (history.note settings s e t).registered = history.registered ∧
      ∀ r ∈ (history.note settings s e t).live, r ∈ history.live := by
  cases e with
  | register m stamp layout => exact absurd rfl (hne m stamp layout)
  | receive => exact ⟨rfl, fun r hr => mem_of_mem_filter hr⟩
  | _ => exact ⟨rfl, fun r hr => hr⟩

lemma removed_early (hs : Unrenewed x) (hl : x.1.listening)
    (hw : w ∈ layout) (hla : layout.Perm x.1.waiters) (ht : x.1.now ≤ time)
    (h : w ∉ removeAll (x.1.deadlines.filter (·.deadline ≤ time)) layout)
    (hr : r ∈ x.2.registered) (heq : r.request.eq w.key) : r.deadline ≤ time := by
  obtain ⟨y, hy, hyw⟩ := equal_of_removed hw h
  obtain ⟨hy, hd⟩ := mem_filter.mp hy
  have hle := hs hl y hy w (hla.mem_iff.mp hw) hyw r hr heq
  exact hle.trans (Nat.max_le.mpr ⟨of_decide_eq_true hd, ht⟩)

lemma waits_of_step (hx : Waits x) (hu : Unrenewed x)
    (h : observed (step settings) (History.note settings) x e = some y) : Waits y := by
  obtain ⟨t, ht, rfl⟩ := observed_eq_some h
  obtain ⟨hc, hn⟩ := changed_of_step ht
  intro r hr
  cases hc with
  | still hne hwa =>
    obtain ⟨hregistered, hliv⟩ := note_of_ne hne x.2
    obtain ⟨hreg, hwai⟩ := hx r (hliv r hr)
    refine ⟨hregistered ▸ hreg, fun hlt => ?_⟩
    obtain ⟨w, hw, heq⟩ := hwai (Nat.lt_of_le_of_lt hn hlt)
    exact ⟨w, hwa.mem_iff.mpr hw, heq⟩
  | registered hwr hl hwa =>
    simp only [History.note, hwr] at hr ⊢
    rcases mem_cons.mp hr with rfl | hr
    · exact ⟨mem_cons_self, fun _ => by rw [hwa]; exact put_finds _ _⟩
    · obtain ⟨hreg, hwai⟩ := hx r hr
      refine ⟨mem_cons_of_mem _ hreg, fun hlt => ?_⟩
      obtain ⟨w, hw, heq⟩ := hwai (Nat.lt_of_le_of_lt hn hlt)
      rw [hwa]
      exact key_of_put (P := fun key => key.eq r.request = true) ⟨w, hl.mem_iff.mpr hw, heq⟩
  | refused hl hg hre hwa =>
    obtain ⟨hr, hk⟩ := mem_filter.mp hr
    obtain ⟨hreg, hwai⟩ := hx r hr
    refine ⟨hreg, fun hlt => ?_⟩
    obtain ⟨w, hw, heq⟩ := hwai (Nat.lt_of_le_of_lt hn hlt)
    by_cases hm : w ∈ t.waiters
    · exact ⟨w, hm, heq⟩
    · have hrem := get_eq_of_removed (hl.mem_iff.mpr hw) (hwa ▸ hm)
      obtain rfl := Option.some.inj (hg.symm.trans hrem)
      simp only [Bool.not_eq_true', any_eq_false, Bool.and_eq_true, not_and] at hk
      exact absurd (by simpa using hm) (hk _ hw ⟨heq, hre⟩)
  | expired hl hwa =>
    obtain ⟨hreg, hwai⟩ := hx r hr
    refine ⟨hreg, fun hlt => ?_⟩
    obtain ⟨⟨hli, -⟩, -⟩ := expire_eq_some ht
    obtain ⟨w, hw, heq⟩ := hwai (Nat.lt_of_le_of_lt hn hlt)
    by_cases hm : w ∈ t.waiters
    · exact ⟨w, hm, heq⟩
    · have hle := removed_early hu hli (hl.mem_iff.mpr hw) hl (Nat.le_refl _)
        (hwa ▸ hm) hreg (by rw [Echo.eq_comm]; exact heq)
      exact absurd (Nat.lt_of_le_of_lt hn hlt) (Nat.not_lt.mpr hle)

lemma unhurried_of_unrenewed (hu : Unrenewed x) : Unhurried settings x := by
  intro time layout t hru w hw hre r hr heq
  obtain ⟨s1, h1, hru⟩ := run_cons hru
  cases h1
  obtain ⟨s2, h2, hru⟩ := run_cons hru
  cases hru
  obtain ⟨⟨hli, hl⟩, rfl⟩ := expire_eq_some h2
  exact removed_early hu hli (hl.mem_iff.mpr hw) hl (Nat.le_add_right _ _) hre hr heq

lemma answered_iff_unhasty (hx : Waits x)
    (h : observed (step settings) (History.note settings) x e = some y) :
    Answered settings x e ↔ Unhasty settings x e := by
  cases e with
  | receive r layout =>
    obtain ⟨t, ht, rfl⟩ := observed_eq_some h
    obtain ⟨⟨-, -, hl⟩, -⟩ := receive_eq_some ht
    have hget (echo : Echo) : get echo layout ≠ none ↔ ∃ v ∈ x.1.waiters, v.key.eq echo := by
      simp [get, hl.mem_iff]
    constructor
    · intro ha echo he m w hw hlt hq
      exact (hget echo).mp (ha echo he (.inr ⟨m, w, hw, hlt, hq⟩))
    · rintro hu echo he (⟨z, hz, hlt, hq⟩ | ⟨m, w, hw, hlt, hq⟩)
      · obtain ⟨w, hw, heq⟩ := (hx z hz).2 hlt
        exact (hget echo).mpr ⟨w, hw, eq_of_quotes heq he hq⟩
      · exact (hget echo).mpr (hu echo he m w hw hlt hq)
  | _ => exact Iff.rfl

lemma everyStep_answered_iff (hx : Waits x) (hu : Unrenewed x)
    (h : EveryState (observed (step settings) (History.note settings)) Unrenewed x es) :
    EveryStep (observed (step settings) (History.note settings)) (Answered settings) x es ↔
      EveryStep (observed (step settings) (History.note settings)) (Unhasty settings) x es := by
  induction es generalizing x with
  | nil => exact Iff.rfl
  | cons e es ih =>
    refine forall_congr' fun y => forall_congr' fun hy => ?_
    obtain ⟨hu', h'⟩ := h y hy
    exact and_congr (answered_iff_unhasty hx hy) (ih (waits_of_step hx hu hy) hu' h')

lemma unrenewed_of_unhurried (hs : Kept x.1) (h : Unhurried settings x) : Unrenewed x := by
  intro hli y hy w hw heq r hr hrw
  have hn : x.1.now + (max y.deadline x.1.now - x.1.now) = max y.deadline x.1.now := by omega
  have hl : (w :: x.1.waiters.erase w).Perm x.1.waiters := (perm_cons_erase hw).symm
  obtain ⟨t, hru, ht, hwa⟩ : ∃ t, run (step settings) x.1
      [.pass (max y.deadline x.1.now - x.1.now), .expire (w :: x.1.waiters.erase w)] = some t ∧
      t.now = max y.deadline x.1.now ∧ t.waiters =
        removeAll (x.1.deadlines.filter (·.deadline ≤ max y.deadline x.1.now))
          (w :: x.1.waiters.erase w) := by
    simp only [run, step, Option.bind_some, hn, if_pos (And.intro hli hl)]
    exact ⟨_, rfl, rfl, rfl⟩
  rw [← ht]
  refine h _ _ t hru w hw ?_ r hr hrw
  rw [hwa]
  have hd : y ∈ x.1.deadlines.filter (·.deadline ≤ max y.deadline x.1.now) :=
    mem_filter.mpr ⟨hy, decide_eq_true (Nat.le_max_left _ _)⟩
  exact not_mem_removeAll (hs.distinct.perm hl) hd heq

lemma unrenewed_start : Unrenewed (start, ⟨[], []⟩) := fun _ _ h => (not_mem_nil h).elim

lemma unrenewed_of_everyState
    (h : EveryState (observed (step settings) (History.note settings)) (Unhurried settings)
      (start, ⟨[], []⟩) es) :
    EveryState (observed (step settings) (History.note settings)) Unrenewed (start,
      ⟨[], []⟩) es := by
  suffices ha : EveryState (observed (step settings) (History.note settings))
      (fun x => Kept x.1 ∧ Unrenewed x) (start, ⟨[], []⟩) es from ha.mono fun x hx => hx.2
  refine everyState_of_everyState ?_ ⟨kept_start, unrenewed_start⟩ h
  intro x e y hx hy hs
  obtain ⟨t, ht, rfl⟩ := observed_eq_some hs
  have hk := kept_of_step hx.1 ht
  exact ⟨hk, unrenewed_of_unhurried hk hy⟩

/-- **The time a waiter is kept** is that of its last request, and replies in time find it, exactly
if no equal request has an earlier deadline and no reply comes before the registration. -/
theorem timely_iff (settings : Settings) (es : List Event) :
    EveryState (observed (step settings) (History.note settings)) (Unhurried settings)
        (start, ⟨[], []⟩) es ∧
      EveryStep (observed (step settings) (History.note settings)) (Answered settings)
        (start, ⟨[], []⟩) es ↔
    EveryState (observed (step settings) (History.note settings)) Unrenewed
        (start, ⟨[], []⟩) es ∧
      EveryStep (observed (step settings) (History.note settings)) (Unhasty settings)
        (start, ⟨[], []⟩) es := by
  have hw : Waits (start, ⟨[], []⟩) := fun _ h => (not_mem_nil h).elim
  constructor
  · rintro ⟨h, ha⟩
    have hu := unrenewed_of_everyState h
    exact ⟨hu, (everyStep_answered_iff hw unrenewed_start hu).mp ha⟩
  · rintro ⟨hu, ha⟩
    exact ⟨hu.mono fun x hx => unhurried_of_unrenewed hx,
      (everyStep_answered_iff hw unrenewed_start hu).mpr ha⟩

/-! ## A repeated request -/

/-- The waiter is removed at the first deadline. -/
def repeated : List Event := repeating ++ [.expire [waiterOf 0 7 []]]

def hasty : List Event :=
  [.makeMultiplexer 0, .send 0 (decoded 7 dns 1 64 []) (.ok ()), .receive (reply 0 7 []) []]

/-- The second request waits until the fifth second, its waiter until the third; and a reply comes
before its request is registered. -/
theorem repeated_lost :
    ((run (step exampleSettings) start (repeated ++ [.receive (reply 0 7 []) []])).map
        (fun s => (s.now, s.deadlines, s.delivered 0)) = some (3, [⟨5, 0, ⟨0, 7, 1, []⟩⟩], []) ∧
      ¬ EveryState (observed (step exampleSettings) (History.note exampleSettings))
        (Unhurried exampleSettings) (start, ⟨[], []⟩) repeated) ∧
    (run (step exampleSettings) start hasty).map (fun s => (s.sent, s.delivered 0)) =
        some ([(0, ⟨0, 7, 1, []⟩)], []) ∧
      ¬ EveryStep (observed (step exampleSettings) (History.note exampleSettings))
        (Answered exampleSettings) (start, ⟨[], []⟩) hasty := by
  refine ⟨⟨by decide +kernel, fun h => ?_⟩, by decide +kernel, fun h => ?_⟩
  · exact absurd (unrenewed_of_everyState h) (by decide +kernel)
  · have ha := (((h _ rfl).2 _ rfl).2 _ rfl).1
    exact ha _ rfl (.inr ⟨0, _, rfl, by decide, by decide⟩) rfl

end

end TrustTunnel.IcmpForwarder
