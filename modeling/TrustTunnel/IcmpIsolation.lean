import TrustTunnel.IcmpForwarder

/-!
# The clients of the ICMP forwarder are kept apart
-/

namespace TrustTunnel.IcmpForwarder

open Io Lib IcmpUtils List AList

/-! ## The condition -/

def State.owners (s : State) (echo : Echo) : List Nat :=
  (s.waiters.filter (·.key.eq echo)).map (·.multiplexer)

/-- A registered echo equals no key or request of another multiplexer, and that of a message
only keys of one. -/
def separate (s : State) : Event → Bool
  | .register m _ _ =>
    (s.writing.lookup m).all (fun w =>
      (s.owners w.echo).all (· == m) &&
        s.deadlines.all (fun x => !x.request.eq w.echo || x.multiplexer == m))
  | .receive r _ =>
    match r.message.respondedEchoRequest with
    | none => false
    | some none => true
    | some (some echo) =>
      match r.origin with
      | some (m, _) => (s.owners echo).all (· == m)
      | none => (s.owners echo).all (fun m => (s.owners echo).all (· == m))
  | _ => true

lemma mem_owners {s : State} {w : Waiter} (hw : w ∈ s.waiters)
    (heq : w.key.eq echo) : w.multiplexer ∈ s.owners echo :=
  mem_map_of_mem (mem_filter.mpr ⟨hw, heq⟩)

/-! ## The table, seen by one client -/

section

variable {α : Type} {p q : α → Bool} {l : List α} {layout : List Waiter} {w waiter : Waiter}
  {m : Nat} {expired deadlines : List Expiry} {x : Expiry}

def Waiter.isOf (m : Nat) (w : Waiter) : Bool := w.multiplexer == m

def Expiry.isOf (m : Nat) (x : Expiry) : Bool := x.multiplexer == m

lemma filter_of_imp (h : ∀ a ∈ l, p a → q a) : (l.filter q).find? p = l.find? p ∧
    (l.eraseP p).filter q = (l.filter q).eraseP p := by
  induction l with
  | nil => exact ⟨rfl, rfl⟩
  | cons a l ih =>
    have ih := ih (fun b hb => h b (mem_cons_of_mem a hb))
    have ha := h a mem_cons_self
    cases hp : p a <;> cases hq : q a <;> simp_all

lemma filter_eraseP_of_not (h : ∀ a ∈ l, p a → q a = false) :
    (l.eraseP p).filter q = l.filter q := by
  induction l with
  | nil => rfl
  | cons a l ih =>
    have ih := ih (fun b hb => h b (mem_cons_of_mem a hb))
    have ha := h a mem_cons_self
    cases hp : p a <;> cases hq : q a <;> simp_all

lemma get_eq_some (h : get echo layout = some w) : w ∈ layout ∧ w.key.eq echo := by
  have heq := find?_some (p := fun w : Waiter => w.key.eq echo) h
  exact ⟨mem_of_find?_eq_some h, heq⟩

lemma filter_removeAll
    (h : ∀ x ∈ expired, ∀ w ∈ layout, w.key.eq x.request → w.multiplexer = x.multiplexer) :
    (removeAll expired layout).filter (Waiter.isOf m) =
      removeAll (expired.filter (Expiry.isOf m)) (layout.filter (Waiter.isOf m)) := by
  induction expired generalizing layout with
  | nil => rfl
  | cons x expired ih =>
    have hr : ∀ y ∈ expired, ∀ w ∈ remove x.request layout, w.key.eq y.request →
        w.multiplexer = y.multiplexer :=
      fun y hy w hw => h y (mem_cons_of_mem x hy) w (mem_of_mem_eraseP hw)
    have hx := h x mem_cons_self
    rw [removeAll, foldl_cons, ← removeAll, ih hr]
    cases hm : x.isOf m with
    | true =>
      rw [filter_cons_of_pos hm, removeAll, removeAll, foldl_cons, remove, remove,
        (filter_of_imp ?_).2]
      intro w hw heq
      rw [Waiter.isOf, hx w hw heq]
      exact hm
    | false =>
      rw [filter_cons_of_neg (by simp [hm]), remove, filter_eraseP_of_not]
      intro w hw heq
      rw [Waiter.isOf, hx w hw heq]
      exact hm

lemma filter_put_own (hwa : waiter.multiplexer = m)
    (h : ∀ w ∈ layout, w.key.eq waiter.key → w.multiplexer = m) :
    (put waiter layout).filter (Waiter.isOf m) = put waiter (layout.filter (Waiter.isOf m)) := by
  induction layout with
  | nil => simp [put, Waiter.isOf, hwa]
  | cons w layout ih =>
    have ih := ih (fun v hv => h v (mem_cons_of_mem w hv))
    cases heq : w.key.eq waiter.key with
    | true =>
      have hw : w.isOf m := by simpa [Waiter.isOf] using h w mem_cons_self heq
      rw [filter_cons_of_pos hw]
      simp [put, heq, Waiter.isOf, hwa]
    | false =>
      cases hw : w.isOf m with
      | true | false => simp [put, heq, hw, ih]

lemma filter_put_other (hwa : waiter.multiplexer ≠ m)
    (h : ∀ w ∈ layout, w.key.eq waiter.key → w.multiplexer = waiter.multiplexer) :
    (put waiter layout).filter (Waiter.isOf m) = layout.filter (Waiter.isOf m) := by
  induction layout with
  | nil => simp [put, Waiter.isOf, hwa]
  | cons w layout ih =>
    have ih := ih (fun v hv => h v (mem_cons_of_mem w hv))
    cases heq : w.key.eq waiter.key with
    | true =>
      have hw : w.multiplexer ≠ m := by rwa [h w mem_cons_self heq]
      simp [put, heq, Waiter.isOf, hwa, hw]
    | false => simp [put, heq, filter_cons, ih]

/-- The waiter is under its own echo, or under a key that was there. -/
lemma mem_put (h : w ∈ put waiter layout) : w ∈ layout ∨ (w.multiplexer = waiter.multiplexer ∧
      (w.key = waiter.key ∨ ∃ v ∈ layout, v.key = w.key ∧ v.key.eq waiter.key)) := by
  induction layout with
  | nil =>
    rw [put, mem_singleton] at h
    subst h
    exact .inr ⟨rfl, .inl rfl⟩
  | cons v layout ih =>
    rw [put] at h
    split at h
    · rename_i heq
      rcases mem_cons.mp h with rfl | h
      · exact .inr ⟨rfl, .inr ⟨v, mem_cons_self, rfl, heq⟩⟩
      · exact .inl (mem_cons_of_mem v h)
    · rcases mem_cons.mp h with rfl | h
      · exact .inl mem_cons_self
      · rcases ih h with h | ⟨hm, hk⟩
        · exact .inl (mem_cons_of_mem v h)
        · refine .inr ⟨hm, hk.imp id ?_⟩
          rintro ⟨u, hu, hk, heq⟩
          exact ⟨u, mem_cons_of_mem v hu, hk, heq⟩

lemma removeAll_subset (h : w ∈ removeAll expired layout) : w ∈ layout := by
  induction expired generalizing layout with
  | nil => exact h
  | cons x expired ih => exact mem_of_mem_eraseP (ih h)

def Ordered (deadlines : List Expiry) : Prop :=
  deadlines.Pairwise (fun a b => a.deadline ≤ b.deadline)

lemma mem_enqueue : y ∈ enqueue x deadlines ↔ y = x ∨ y ∈ deadlines :=
  mem_orderedInsert _

lemma enqueue_cons (x y : Expiry) (deadlines : List Expiry) : enqueue x (y :: deadlines) =
      if x.deadline < y.deadline then x :: y :: deadlines else y :: enqueue x deadlines := rfl

lemma enqueue_ordered (h : Ordered deadlines) : Ordered (enqueue x deadlines) := by
  induction deadlines with
  | nil => exact pairwise_singleton _ x
  | cons y deadlines ih =>
    obtain ⟨hy, hr⟩ := pairwise_cons.mp h
    rw [enqueue_cons]
    split
    · refine pairwise_cons.mpr ⟨fun z hz => ?_, h⟩
      rcases mem_cons.mp hz with rfl | hz
      · omega
      · have := hy z hz
        omega
    · refine pairwise_cons.mpr ⟨fun z hz => ?_, ih hr⟩
      rcases mem_enqueue.mp hz with rfl | hz
      · omega
      · exact hy z hz

lemma filter_enqueue_other (hx : x.isOf m = false) (deadlines : List Expiry) :
    (enqueue x deadlines).filter (Expiry.isOf m) = deadlines.filter (Expiry.isOf m) := by
  induction deadlines with
  | nil => exact filter_cons_of_neg (by simp [hx])
  | cons y deadlines ih =>
    rw [enqueue_cons]
    split
    · exact filter_cons_of_neg (by simp [hx])
    · rw [filter_cons, filter_cons, ih]

lemma filter_enqueue_own (hx : x.isOf m) (h : Ordered deadlines) :
    (enqueue x deadlines).filter (Expiry.isOf m) =
      enqueue x (deadlines.filter (Expiry.isOf m)) := by
  -- before all that comes after it there is nothing to pass
  have hf : ∀ l : List Expiry, (∀ z ∈ l, x.deadline < z.deadline) → enqueue x l = x :: l := by
    intro l hl
    cases l with
    | nil => rfl
    | cons z => rw [enqueue_cons, if_pos (hl z mem_cons_self)]
  induction deadlines with
  | nil => exact filter_cons_of_pos hx
  | cons y deadlines ih =>
    obtain ⟨hy, hr⟩ := pairwise_cons.mp h
    rw [enqueue_cons]
    split
    · rename_i hlt
      rw [filter_cons_of_pos hx, hf]
      intro z hz
      rcases mem_cons.mp (mem_of_mem_filter hz) with rfl | hz
      · exact hlt
      · have := hy z hz
        omega
    · rename_i hlt
      cases hym : y.isOf m with
      | true => rw [filter_cons_of_pos hym, filter_cons_of_pos hym, ih hr, enqueue_cons,
          if_neg hlt]
      | false => rw [filter_cons_of_neg (by simp [hym]), filter_cons_of_neg (by simp [hym]),
          ih hr]

end

/-! ## The invariant -/

structure Apart (s : State) : Prop where
  apart : ∀ x ∈ s.deadlines, ∀ w ∈ s.waiters, w.key.eq x.request = true →
    w.multiplexer = x.multiplexer
  ordered : Ordered s.deadlines

lemma separate_register {s : State} {w : Writing}
    (hw : s.writing.lookup m = some w) (hok : separate s (.register m stamp layout)) :
    (∀ v ∈ s.waiters, v.key.eq w.echo → v.multiplexer = m) ∧
      ∀ x ∈ s.deadlines, x.request.eq w.echo → x.multiplexer = m := by
  simp only [separate, hw, Option.all_some, Bool.and_eq_true, all_eq_true, beq_iff_eq] at hok
  refine ⟨fun v hv heq => hok.1 _ (mem_owners hv heq), fun x hx heq => ?_⟩
  simpa [heq] using hok.2 x hx

lemma register_apart {s : State} {layout : List Waiter} {w : Writing}
    (hs : Apart s) (hl : layout.Perm s.waiters)
    (hw : ∀ v ∈ s.waiters, v.key.eq w.echo → v.multiplexer = m)
    (hd : ∀ x ∈ s.deadlines, x.request.eq w.echo → x.multiplexer = m) : Apart { s with
      waiters := put ⟨w.echo, w.peer, m⟩ layout,
      deadlines := enqueue ⟨deadline, m, w.echo⟩ s.deadlines,
      writing := s.writing.erase m } := by
  refine ⟨fun x hx v hv heq => ?_, enqueue_ordered hs.ordered⟩
  rcases mem_enqueue.mp hx with rfl | hx
  · rcases mem_put hv with hv | ⟨hm, -⟩
    · exact hw v (hl.mem_iff.mp hv) heq
    · exact hm
  · rcases mem_put hv with hv | ⟨hm, hk | ⟨u, hu, hk, hue⟩⟩
    · exact hs.apart x hx v (hl.mem_iff.mp hv) heq
    · rw [hk, Echo.eq_comm] at heq
      rw [hm, hd x hx heq]
    · have hu := hl.mem_iff.mp hu
      rw [hm, ← hs.apart x hx u hu (by rw [hk, heq]), hw u hu hue]

section Steps

variable {settings : Settings} {s t : State}

section

variable {layout : List Waiter} {r : Received} {capacity : Nat}

lemma register_eq_some (h : step settings s (.register m stamp layout) = some t) :
    ∃ w, s.writing.lookup m = some w ∧ (w.sentAt ≤ stamp ∧ stamp ≤ s.now ∧ layout.Perm s.waiters) ∧
      t = { s with
        waiters := put ⟨w.echo, w.peer, m⟩ layout,
        deadlines := enqueue ⟨stamp + settings.requestTimeout, m, w.echo⟩ s.deadlines,
        writing := s.writing.erase m } := by
  simp only [step] at h
  split at h
  · rename_i w hw
    split at h
    · rename_i hc
      exact ⟨w, hw, hc, (Option.some.inj h).symm⟩
    · cases h
  · cases h

lemma receive_eq_some (h : step settings s (.receive r layout) = some t) :
    (s.listening ∧ s.answers r ∧ layout.Perm s.waiters) ∧
      t = s.listen settings.recvMessageQueueCapacity r layout := by
  obtain ⟨hc, h⟩ := Option.ite_none_right_eq_some.mp h
  exact ⟨hc, (Option.some.inj h).symm⟩

lemma expire_eq_some (h : step settings s (.expire layout) = some t) :
    (s.listening ∧ layout.Perm s.waiters) ∧ t = { s with
        waiters := removeAll (s.deadlines.filter (·.deadline ≤ s.now)) layout,
        deadlines := s.deadlines.filter (s.now < ·.deadline) } := by
  obtain ⟨hc, h⟩ := Option.ite_none_right_eq_some.mp h
  exact ⟨hc, (Option.some.inj h).symm⟩

lemma listen_waiters (hl : layout.Perm s.waiters)
    (hw : w ∈ (s.listen capacity r layout).waiters) : w ∈ s.waiters := by
  unfold State.listen at hw
  split at hw
  · exact hw
  · exact hw
  · split at hw
    · exact hl.mem_iff.mp hw
    · unfold State.deliver at hw
      split at hw
      · exact hl.mem_iff.mp hw
      · exact hl.mem_iff.mp (mem_of_mem_eraseP hw)

lemma listen_deadlines : (s.listen capacity r layout).deadlines = s.deadlines := by
  unfold State.listen
  split
  · rfl
  · rfl
  · split
    · rfl
    · unfold State.deliver
      split <;> rfl

lemma apart_of_subset (hs : Apart s) (hwa : ∀ w ∈ t.waiters, w ∈ s.waiters)
    (hd : t.deadlines = s.deadlines) : Apart t := by
  refine ⟨fun x hx w hw => ?_, by rw [hd]; exact hs.ordered⟩
  rw [hd] at hx
  exact hs.apart x hx w (hwa w hw)

lemma step_apart (hs : Apart s) (hok : separate s e)
    (h : step settings s e = some t) : Apart t := by
  cases e with
  | makeMultiplexer | read =>
    simp only [step] at h
    split at h <;> cases h
    exact ⟨hs.apart, hs.ordered⟩
  | send =>
    obtain ⟨-, h⟩ := Option.ite_none_right_eq_some.mp h
    split at h <;> cases h <;> exact ⟨hs.apart, hs.ordered⟩
  | register =>
    obtain ⟨w, hw, ⟨-, -, hl⟩, rfl⟩ := register_eq_some h
    obtain ⟨hwa, hd⟩ := separate_register hw hok
    exact register_apart hs hl hwa hd
  | receive =>
    obtain ⟨⟨-, -, hl⟩, rfl⟩ := receive_eq_some h
    exact apart_of_subset hs (fun w => listen_waiters hl) listen_deadlines
  | expire =>
    obtain ⟨⟨-, hl⟩, rfl⟩ := expire_eq_some h
    refine ⟨fun x hx w hw => ?_, hs.ordered.filter _⟩
    exact hs.apart x (mem_of_mem_filter hx) w (hl.mem_iff.mp (removeAll_subset hw))
  | dropSource =>
    obtain ⟨q, -, rfl⟩ := Option.map_eq_some_iff.mp h
    exact ⟨hs.apart, hs.ordered⟩
  | pass =>
    cases h
    exact ⟨hs.apart, hs.ordered⟩

end

end Steps

/-! ## One client alone -/

/-- The forwarder `s'` is what `s` is to the multiplexer. -/
structure Alone (m : Nat) (s s' : State) : Prop where
  now : s'.now = s.now
  listening : s'.listening = s.listening
  waiters : s'.waiters.Perm (s.waiters.filter (Waiter.isOf m))
  deadlines : s'.deadlines = s.deadlines.filter (Expiry.isOf m)
  queue : s'.queues.lookup m = s.queues.lookup m
  writing : s'.writing.lookup m = s.writing.lookup m
  sent : ∀ echo, (m, echo) ∈ s.sent → (m, echo) ∈ s'.sent

/-- The event as it would be if only the multiplexer had sent requests. -/
def Event.alone (m : Nat) : Event → Option Event
  | .makeMultiplexer n => if n = m then some (.makeMultiplexer n) else none
  | .send n datagram result => if n = m then some (.send n datagram result) else none
  | .register n stamp layout =>
    if n = m then some (.register n stamp (layout.filter (Waiter.isOf m))) else none
  | .receive r layout =>
    if r.origin.all (fun x => x.1 == m) then
      some (.receive r (layout.filter (Waiter.isOf m)))
    else none
  | .expire layout => some (.expire (layout.filter (Waiter.isOf m)))
  | .read n => if n = m then some (.read n) else none
  | .dropSource n => if n = m then some (.dropSource n) else none
  | .pass time => some (.pass time)

section Alone

variable {settings : Settings} {m : Nat} {s t s' : State}

lemma Alone.layout (h : Alone m s s') {layout : List Waiter} (hl : layout.Perm s.waiters) :
    (layout.filter (Waiter.isOf m)).Perm s'.waiters :=
  (hl.filter _).trans h.waiters.symm

lemma Alone.setWaiters (h : Alone m s s') {waiters waiters' : List Waiter}
    (hw : waiters'.Perm (waiters.filter (Waiter.isOf m))) :
    Alone m { s with waiters } { s' with waiters := waiters' } :=
  ⟨h.now, h.listening, hw, h.deadlines, h.queue, h.writing, h.sent⟩

lemma Alone.setQueue (h : Alone m s s') (hn : n ≠ m) (q : Queue) :
    Alone m { s with queues := s.queues.insert n q } s' :=
  ⟨h.now, h.listening, h.waiters, h.deadlines,
    by rw [h.queue, lookup_insert_ne (Ne.symm hn)], h.writing, h.sent⟩

lemma Alone.setOwn (h : Alone m s s') (q : Queue) :
    Alone m { s with queues := s.queues.insert m q } { s' with queues := s'.queues.insert m q } :=
  ⟨h.now, h.listening, h.waiters, h.deadlines, by rw [lookup_insert, lookup_insert],
    h.writing, h.sent⟩

lemma listen_hidden (capacity : Nat) (h : Alone m s s')
    (hl : layout.Perm s.waiters) (hr : r.message.respondedEchoRequest ≠ none)
    (hh : ∀ echo, r.message.respondedEchoRequest = some (some echo) →
      ∀ w ∈ layout, w.key.eq echo → w.multiplexer ≠ m) :
    Alone m (s.listen capacity r layout) s' := by
  have hs : Alone m { s with waiters := layout } s' :=
    h.setWaiters (h.waiters.trans (hl.filter _).symm)
  unfold State.listen
  split
  · rename_i hn
    exact absurd hn hr
  · exact h
  · rename_i echo he
    have hh := hh echo he
    split
    · exact hs
    · rename_i w hw
      obtain ⟨hm, heq⟩ := get_eq_some hw
      unfold State.deliver
      split
      · rename_i q hq
        exact hs.setQueue (hh w hm heq) q
      · refine h.setWaiters (h.waiters.trans ?_)
        rw [remove, filter_eraseP_of_not]
        · exact (hl.filter _).symm
        · intro v hv heq
          exact beq_eq_false_iff_ne.mpr (hh v hv heq)

lemma listen_own (h : Alone m s s') (hr : r.message.respondedEchoRequest ≠ none)
    (ho : ∀ echo, r.message.respondedEchoRequest = some (some echo) →
      ∀ w ∈ layout, w.key.eq echo → w.multiplexer = m) : Alone m (s.listen capacity r layout)
      (s'.listen capacity r (layout.filter (Waiter.isOf m))) := by
  cases he : r.message.respondedEchoRequest with
  | none => exact absurd he hr
  | some answered =>
    cases answered with
    | none =>
      simp only [State.listen, he]
      exact h
    | some echo =>
      have ho : ∀ w ∈ layout, w.key.eq echo → w.isOf m :=
        fun w hw heq => beq_iff_eq.mpr (ho echo he w hw heq)
      have hg : get echo (layout.filter (Waiter.isOf m)) = get echo layout := by
        rw [get, get, (filter_of_imp ho).1]
      have hs : Alone m { s with waiters := layout }
          { s' with waiters := layout.filter (Waiter.isOf m) } := h.setWaiters (List.Perm.refl _)
      simp only [State.listen, he, hg]
      split
      · exact hs
      · rename_i w hw
        obtain ⟨hme, heq⟩ := get_eq_some hw
        have hm : w.multiplexer = m := beq_iff_eq.mp (ho w hme heq)
        subst hm
        unfold State.deliver
        rw [h.queue]
        split
        · exact hs.setOwn _
        · refine h.setWaiters ?_
          rw [remove, remove, (filter_of_imp ho).2]

lemma separate_receive {r : Received} {layout : List Waiter} (hl : layout.Perm s.waiters)
    (hok : separate s (.receive r layout)) : r.message.respondedEchoRequest ≠ none ∧
      ∀ echo, r.message.respondedEchoRequest = some (some echo) →
        (∀ n request, r.origin = some (n, request) →
          ∀ w ∈ layout, w.key.eq echo → w.multiplexer = n) ∧
        ∀ w ∈ layout, ∀ v ∈ layout, w.key.eq echo → v.key.eq echo →
          w.multiplexer = v.multiplexer := by
  cases he : r.message.respondedEchoRequest with
  | none =>
    simp only [separate, he] at hok
    cases hok
  | some =>
    refine ⟨by simp, fun echo heq => ?_⟩
    cases heq
    have ho : ∀ w ∈ layout, w.key.eq echo → w.multiplexer ∈ s.owners echo :=
      fun w hw => mem_owners (hl.mem_iff.mp hw)
    simp only [separate, he] at hok
    cases hor : r.origin with
    | none =>
      simp only [hor, all_eq_true, beq_iff_eq] at hok
      refine ⟨fun n request h => (by cases h), fun w hw v hv hwe hve => ?_⟩
      exact hok _ (ho v hv hve) _ (ho w hw hwe)
    | some =>
      simp only [hor, all_eq_true, beq_iff_eq] at hok
      refine ⟨fun n request h w hw heq => ?_, fun w hw v hv hwe hve => ?_⟩
      · cases h
        exact hok _ (ho w hw heq)
      · rw [hok _ (ho w hw hwe), hok _ (ho v hv hve)]

lemma alone_of_drop (hok : separate s e)
    (h : step settings s e = some t) (hR : Alone m s s') (hd : e.alone m = none) :
    Alone m t s' := by
  cases e with
  | makeMultiplexer | read =>
    simp only [Event.alone, ite_eq_right_iff, reduceCtorEq, imp_false] at hd
    simp only [step] at h
    split at h <;> cases h
    exact hR.setQueue hd _
  | send =>
    simp only [Event.alone, ite_eq_right_iff, reduceCtorEq, imp_false] at hd
    obtain ⟨-, h⟩ := Option.ite_none_right_eq_some.mp h
    split at h <;> cases h
    · refine ⟨hR.now, hR.listening, hR.waiters, hR.deadlines, hR.queue, ?_, fun echo he => ?_⟩
      · rw [hR.writing, lookup_insert_ne (Ne.symm hd)]
      · rcases mem_cons.mp he with heq | he
        · exact absurd (congrArg Prod.fst heq).symm hd
        · exact hR.sent echo he
    · exact hR
  | register =>
    simp only [Event.alone, ite_eq_right_iff, reduceCtorEq, imp_false] at hd
    obtain ⟨w, hw, ⟨-, -, hl⟩, rfl⟩ := register_eq_some h
    obtain ⟨hwa, -⟩ := separate_register hw hok
    refine ⟨hR.now, hR.listening, ?_, ?_, hR.queue, ?_, hR.sent⟩
    · rw [filter_put_other hd (fun v hv => hwa v (hl.mem_iff.mp hv))]
      exact (hR.layout hl).symm
    · rw [hR.deadlines, filter_enqueue_other (beq_eq_false_iff_ne.mpr hd)]
    · rw [hR.writing, lookup_erase_ne (Ne.symm hd)]
  | receive r =>
    obtain ⟨⟨-, -, hl⟩, rfl⟩ := receive_eq_some h
    obtain ⟨hr, hon⟩ := separate_receive hl hok
    cases ho : r.origin with
    | none => simp [Event.alone, ho] at hd
    | some origin =>
      have hot : origin.1 ≠ m := by
        intro heq
        simp [Event.alone, ho, heq] at hd
      refine listen_hidden _ hR hl hr (fun echo he w hw heq => ?_)
      rw [(hon echo he).1 origin.1 origin.2 ho w hw heq]
      exact hot
  | expire | pass => cases hd
  | dropSource =>
    simp only [Event.alone, ite_eq_right_iff, reduceCtorEq, imp_false] at hd
    obtain ⟨q, -, rfl⟩ := Option.map_eq_some_iff.mp h
    exact hR.setQueue hd _

lemma alone_of_keep (hs : Apart s) (hok : separate s e)
    (h : step settings s e = some t) (hR : Alone m s s') (hk : e.alone m = some e') :
    ∃ t', step settings s' e' = some t' ∧ Alone m t t' := by
  have hme : ∀ {V : Type} {a b : Table Nat V}, a.lookup m = b.lookup m → (m ∈ a ↔ m ∈ b) := by
    intro V a b heq
    rw [← lookup_isSome, ← lookup_isSome, heq]
  cases e with
  | makeMultiplexer =>
    obtain ⟨rfl, ⟨⟩⟩ := Option.ite_none_right_eq_some.mp hk
    simp only [step] at h ⊢
    split at h <;> cases h
    rename_i hne
    rw [if_neg (fun hn => hne ((hme hR.queue).mp hn))]
    exact ⟨_, rfl, hR.setOwn _⟩
  | send =>
    obtain ⟨rfl, ⟨⟩⟩ := Option.ite_none_right_eq_some.mp hk
    simp only [step] at h ⊢
    obtain ⟨hc, h⟩ := Option.ite_none_right_eq_some.mp h
    rw [if_pos ⟨(hme hR.queue).mpr hc.1, fun hn => hc.2 ((hme hR.writing).mp hn)⟩]
    split at h <;> cases h
    · refine ⟨_, rfl, hR.now, hR.listening, hR.waiters, hR.deadlines, hR.queue, ?_, ?_⟩
      · rw [lookup_insert, lookup_insert, hR.now]
      · intro echo he
        rcases mem_cons.mp he with heq | he
        · exact mem_cons.mpr (.inl heq)
        · exact mem_cons_of_mem _ (hR.sent echo he)
    · exact ⟨s', rfl, hR⟩
  | register n stamp layout =>
    obtain ⟨rfl, ⟨⟩⟩ := Option.ite_none_right_eq_some.mp hk
    obtain ⟨w, hw, ⟨hse, hno, hl⟩, rfl⟩ := register_eq_some h
    obtain ⟨hwa, -⟩ := separate_register hw hok
    simp only [step, hR.writing, hw]
    rw [if_pos ⟨hse, by rw [hR.now]; exact hno, hR.layout hl⟩]
    have hp : (put ⟨w.echo, w.peer, n⟩ layout).filter (Waiter.isOf n) =
        put ⟨w.echo, w.peer, n⟩ (layout.filter (Waiter.isOf n)) :=
      filter_put_own rfl (fun v hv => hwa v (hl.mem_iff.mp hv))
    have hen : ∀ deadline, (enqueue ⟨deadline, n, w.echo⟩ s.deadlines).filter (Expiry.isOf n) =
          enqueue ⟨deadline, n, w.echo⟩ (s.deadlines.filter (Expiry.isOf n)) :=
      fun deadline => filter_enqueue_own (m := n) (x := ⟨deadline, n, w.echo⟩) (beq_self_eq_true n)
        hs.ordered
    refine ⟨_, rfl, hR.now, hR.listening, ?_, ?_, hR.queue, ?_, hR.sent⟩
    · rw [hp]
    · rw [hen, hR.deadlines]
    · rw [lookup_erase, lookup_erase]
  | receive r layout =>
    obtain ⟨⟨hlis, hanswers, hl⟩, rfl⟩ := receive_eq_some h
    obtain ⟨hre, hon⟩ := separate_receive hl hok
    simp only [Event.alone, Option.ite_none_right_eq_some, Option.some.injEq] at hk
    obtain ⟨hor, rfl⟩ := hk
    have hanswers' : s'.answers r := by
      unfold State.answers at hanswers ⊢
      cases ho : r.origin with
      | none => rfl
      | some origin =>
        simp only [ho, Option.all_some, beq_iff_eq, Bool.and_eq_true, contains_iff_mem] at *
        obtain ⟨hse, hquotes⟩ := hanswers
        subst hor
        exact ⟨hR.sent origin.2 hse, hquotes⟩
    simp only [step]
    rw [if_pos ⟨hR.listening.trans hlis, hanswers', hR.layout hl⟩]
    refine ⟨_, rfl, ?_⟩
    -- the keys that equal the echo are all this multiplexer's, or all another's
    by_cases how : ∀ echo, r.message.respondedEchoRequest = some (some echo) →
        ∀ w ∈ layout, w.key.eq echo → w.multiplexer = m
    · exact listen_own hR hre how
    · push Not at how
      obtain ⟨echo, he, w, hw, heq, hot⟩ := how
      have hh : ∀ v ∈ layout, v.key.eq echo → v.multiplexer ≠ m := by
        intro v hv hve
        rw [(hon echo he).2 v hv w hw hve heq]
        exact hot
      have hli := listen_hidden settings.recvMessageQueueCapacity hR hl hre
        (fun echo' he' => by
          rw [he] at he'
          cases he'
          exact hh)
      have hg : get echo (layout.filter (Waiter.isOf m)) = none := by
        refine find?_eq_none.mpr (fun v hv hve => ?_)
        obtain ⟨hv, hm⟩ := mem_filter.mp hv
        exact hh v hv hve (beq_iff_eq.mp hm)
      have hres : s'.listen settings.recvMessageQueueCapacity r (layout.filter (Waiter.isOf m)) =
          { s' with waiters := layout.filter (Waiter.isOf m) } := by
        simp [State.listen, he, hg]
      rw [hres]
      exact hli.setWaiters ((hR.layout hl).trans hli.waiters)
  | expire =>
    cases hk
    obtain ⟨⟨hlis, hl⟩, rfl⟩ := expire_eq_some h
    simp only [step]
    rw [if_pos ⟨hR.listening.trans hlis, hR.layout hl⟩]
    refine ⟨_, rfl, hR.now, hR.listening, ?_, ?_, hR.queue, hR.writing, hR.sent⟩
    · have hr := filter_removeAll (m := m) (fun x hx w hw =>
        hs.apart x (mem_of_mem_filter (p := fun x => x.deadline ≤ s.now) hx) w
          (hl.mem_iff.mp hw))
      rw [hr, hR.deadlines, hR.now, filter_comm]
    · simp only [hR.deadlines, hR.now]
      exact filter_comm _ _ _
  | read =>
    obtain ⟨rfl, ⟨⟩⟩ := Option.ite_none_right_eq_some.mp hk
    simp only [step, hR.queue] at h ⊢
    split at h <;> cases h
    exact ⟨_, rfl, hR.setOwn _⟩
  | dropSource =>
    obtain ⟨rfl, ⟨⟩⟩ := Option.ite_none_right_eq_some.mp hk
    obtain ⟨q, hq, rfl⟩ := Option.map_eq_some_iff.mp h
    simp only [step, hR.queue, hq, Option.map_some]
    exact ⟨_, rfl, hR.setOwn _⟩
  | pass =>
    cases h
    cases hk
    exact ⟨_, rfl, by rw [hR.now], hR.listening, hR.waiters, hR.deadlines, hR.queue, hR.writing,
      hR.sent⟩

end Alone

/-! ## Isolation -/

def State.delivered (m : Nat) (s : State) : List Received :=
  ((s.queues.lookup m).map Queue.delivered).getD []

def Rightful (s : State) : Prop :=
  ∀ m, ∀ r ∈ s.delivered m, ∀ n request, r.origin = some (n, request) → n = m

lemma delivered_insert {s : State} {q : Queue}
    (h : r ∈ State.delivered m { s with queues := s.queues.insert n q }) :
    r ∈ s.delivered m ∨ (n = m ∧ r ∈ q.delivered) := by
  by_cases hn : n = m
  · subst hn
    simp only [State.delivered, lookup_insert, Option.map_some, Option.getD_some] at h
    exact .inr ⟨rfl, h⟩
  · simp only [State.delivered, lookup_insert_ne (Ne.symm hn)] at h
    exact .inl h

lemma mem_delivered {s : State} {q : Queue} (hq : s.queues.lookup m = some q)
    (hr : r ∈ q.delivered) : r ∈ s.delivered m := by
  rw [State.delivered, hq]
  exact hr

lemma trySend_delivered {q q' : Queue}
    (h : q.trySend capacity r = some q') (hr : r' ∈ q'.delivered) : r' ∈ q.delivered ∨ r' = r := by
  obtain ⟨-, ⟨⟩⟩ := Option.ite_none_left_eq_some.mp h
  simp only [Queue.delivered, mem_append, mem_singleton] at hr ⊢
  tauto

section Rightful

variable {settings : Settings} {s t : State}

lemma rightful_of_subset (hs : Rightful s) (h : ∀ m, ∀ r ∈ t.delivered m, r ∈ s.delivered m) :
    Rightful t :=
  fun m r hr => hs m r (h m r hr)

lemma listen_rightful {r : Received} (hs : Rightful s)
    (how : ∀ echo, r.message.respondedEchoRequest = some (some echo) →
      ∀ n request, r.origin = some (n, request) → ∀ w ∈ layout, w.key.eq echo →
        w.multiplexer = n) : Rightful (s.listen capacity r layout) := by
  unfold State.listen
  split
  · exact hs
  · exact hs
  · rename_i echo he
    split
    · exact hs
    · rename_i w hw
      obtain ⟨hm, heq⟩ := get_eq_some hw
      unfold State.deliver
      split
      · rename_i hq'
        obtain ⟨q, hq, hse⟩ := Option.bind_eq_some_iff.mp hq'
        intro m r' hr' n request ho
        rcases delivered_insert hr' with hold | ⟨rfl, hn⟩
        · exact hs m r' hold n request ho
        · rcases trySend_delivered hse hn with hold | rfl
          · exact hs _ r' (mem_delivered hq hold) n request ho
          · exact (how echo he n request ho w hm heq).symm
      · exact hs

lemma step_rightful (hs : Rightful s) (hok : separate s e)
    (h : step settings s e = some t) : Rightful t := by
  cases e with
  | makeMultiplexer =>
    simp only [step] at h
    split at h <;> cases h
    refine rightful_of_subset hs (fun n r hr => ?_)
    rcases delivered_insert hr with hold | ⟨-, hn⟩
    · exact hold
    · simp [Queue.delivered, Queue.new] at hn
  | send =>
    obtain ⟨-, h⟩ := Option.ite_none_right_eq_some.mp h
    split at h <;> cases h <;> exact hs
  | register =>
    obtain ⟨w, -, -, rfl⟩ := register_eq_some h
    exact hs
  | receive =>
    obtain ⟨⟨-, -, hl⟩, rfl⟩ := receive_eq_some h
    obtain ⟨-, ho⟩ := separate_receive hl hok
    exact listen_rightful hs (fun echo he => (ho echo he).1)
  | expire =>
    obtain ⟨-, rfl⟩ := expire_eq_some h
    exact hs
  | read =>
    simp only [step] at h
    split at h <;> cases h
    rename_i hq
    refine rightful_of_subset hs (fun n r' hr => ?_)
    rcases delivered_insert hr with hold | ⟨rfl, hn⟩
    · exact hold
    · refine mem_delivered hq ?_
      simp only [Queue.delivered, mem_append, mem_cons, not_mem_nil, or_false] at hn ⊢
      tauto
  | dropSource =>
    obtain ⟨q, hq, rfl⟩ := Option.map_eq_some_iff.mp h
    refine rightful_of_subset hs (fun n r hr => ?_)
    rcases delivered_insert hr with hold | ⟨rfl, hn⟩
    · exact hold
    · exact mem_delivered hq hn
  | pass =>
    cases h
    exact hs

end Rightful

/-- Everybody gets what they would get if the others had sent nothing. -/
def Isolated (settings : Settings) (es : List Event) : Prop :=
  EveryState (step settings) Rightful start es ∧
  ∀ m s, run (step settings) start es = some s →
    ∃ s', run (step settings) start (es.filterMap (Event.alone m)) = some s' ∧
      s'.delivered m = s.delivered m

/-- **Isolation**, in runs where no echo equals a key of another client. -/
theorem replies_isolated (settings : Settings) (es : List Event)
    (h : EveryStep (step settings) (fun s e => separate s e = true) start es) :
    Isolated settings es := by
  have hsta : Apart start := ⟨fun x hx => absurd hx (by simp [start]), List.Pairwise.nil⟩
  refine ⟨everyState_of_everyStep (fun s e s' hs hok hst => step_rightful hs hok hst)
    (fun s hs => hs) (fun m r hr => absurd hr (by simp [State.delivered, start])) h, ?_⟩
  intro m s hru
  have ha : Alone m start start :=
    ⟨rfl, rfl, List.Perm.refl _, rfl, rfl, rfl, fun echo he => he⟩
  have hi : ∀ s e t, Apart s → separate s e → step settings s e = some t → Apart t :=
    fun s e t hs hok hst => step_apart hs hok hst
  have hd : ∀ s e t s', Apart s → separate s e → step settings s e = some t →
      Alone m s s' → Event.alone m e = none → Alone m t s' :=
    fun s e t s' hs hok hst hR hn => alone_of_drop hok hst hR hn
  have hk : ∀ s e t s' e', Apart s → separate s e → step settings s e = some t →
      Alone m s s' → Event.alone m e = some e' → ∃ t', step settings s' e' = some t' ∧
        Alone m t t' :=
    fun s e t s' e' hs hok hst hR hso => alone_of_keep hs hok hst hR hso
  obtain ⟨s', hru', hR⟩ := run_filterMap hi hd hk hsta h ha hru
  exact ⟨s', hru', by rw [State.delivered, State.delivered, hR.queue]⟩

/-! ## Two clients -/

def exampleSettings : Settings := ⟨true, true, 3, 16⟩

def dns : NetUtils.IpAddr := .v4 ⟨8, 8, 8, 8⟩

def pinging (m : Nat) (identifier : UInt16) (data : Bytes) (layout : List Waiter) : List Event :=
  [.makeMultiplexer m, .send m (decoded identifier dns 1 64 data) (.ok ()), .register m 0 layout]

def reply (m : Nat) (identifier : UInt16) (data : Bytes) : Received :=
  ⟨dns, .v4 (.echoReply ⟨0, identifier, 1, data⟩), some (m, ⟨0, identifier, 1, data⟩)⟩

def waiterOf (m : Nat) (identifier : UInt16) (data : Bytes) : Waiter :=
  ⟨⟨0, identifier, 1, data⟩, dns, m⟩

def ownIdentifiers : List Event :=
  pinging 0 7 [0xaa, 0xbb] [] ++ pinging 1 8 [] [waiterOf 0 7 [0xaa, 0xbb]] ++
    [.receive (reply 0 7 [0xaa, 0xbb]) [waiterOf 1 8 [], waiterOf 0 7 [0xaa, 0xbb]]]

theorem ownIdentifiers_isolated :
    (run (step exampleSettings) start ownIdentifiers).map (fun s =>
      (s.delivered 0, s.delivered 1)) =
        some ([reply 0 7 [0xaa, 0xbb]], []) ∧
      Isolated exampleSettings ownIdentifiers :=
  ⟨by decide +kernel, replies_isolated exampleSettings ownIdentifiers (by decide +kernel)⟩

def sameIdentifier : List Event :=
  pinging 0 7 [0xaa, 0xbb] [] ++ pinging 1 7 [] [waiterOf 0 7 [0xaa, 0xbb]] ++
    [.receive (reply 0 7 [0xaa, 0xbb]) [waiterOf 1 7 [0xaa, 0xbb]]]

def firstAlone : List Event :=
  pinging 0 7 [0xaa, 0xbb] [] ++ [.receive (reply 0 7 [0xaa, 0xbb]) [waiterOf 0 7 [0xaa, 0xbb]]]

/-- The second client gets the first one's reply. -/
theorem sameIdentifier_stolen :
    (run (step exampleSettings) start sameIdentifier).map (fun s =>
      (s.delivered 0, s.delivered 1)) =
        some ([], [reply 0 7 [0xaa, 0xbb]]) ∧
    (run (step exampleSettings) start firstAlone).map (fun s => s.delivered 0) =
        some [reply 0 7 [0xaa, 0xbb]] ∧
    ¬ Isolated exampleSettings sameIdentifier := by
  have hst : (run (step exampleSettings) start sameIdentifier).map
      (fun s => (s.delivered 0, s.delivered 1)) = some ([], [reply 0 7 [0xaa, 0xbb]]) := by
    decide +kernel
  refine ⟨hst, by decide +kernel, fun hi => ?_⟩
  obtain ⟨s, hru, hs⟩ := Option.map_eq_some_iff.mp hst
  have hse : s.delivered 1 = [reply 0 7 [0xaa, 0xbb]] := congrArg Prod.snd hs
  have hr : Rightful s := hi.1.last hru
  have hz := hr 1 (reply 0 7 [0xaa, 0xbb]) (by rw [hse]; exact mem_singleton_self _)
    0 ⟨0, 7, 1, [0xaa, 0xbb]⟩ rfl
  cases hz

end TrustTunnel.IcmpForwarder
