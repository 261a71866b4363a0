import TrustTunnel.AuthenticationGate
import TrustTunnel.LimiterAccounting

/-!
# The limit on a client's connections

A tunnel takes one slot, of its own credentials or its first request's; later ones may carry
others. `served_le_limit` says when a client has no more than its limit.
-/

namespace TrustTunnel.Core

open Io Http Lib Authentication Tunnel ConnectionLimiter Option AList Table
open Lib.Http1 (utf8)

/-! ## Served clients -/

def Promotion.forwardedAs (p : Promotion) (creds : String) : Bool :=
  p.forwarderAuth.any (fun source => source.creds = creds) && !p.calls.isEmpty

def Endpoint.served (s : Endpoint) (creds : String) (protocol : Protocol) : Nat :=
  s.tunnels.entries.countP (fun e => e.2.protocol.sameClass protocol &&
    s.promoted.any (fun p => p.tunnel == e.1 && p.forwardedAs creds))

def WithinLimits (l0 : ConnectionLimiter) (s : Endpoint) : Prop :=
  ∀ creds e protocol max, l0.clients.lookup creds = some e → l0.limit e protocol = some max →
    s.served creds protocol ≤ max.toNat

section Condition

variable (encode : Bytes → String) (clients : List Client)

/-- Good credentials on a tunnel with a slot are those of the slot. -/
def KeepsCredentials (s : Endpoint) : Event → Prop
  | .request id request => ∀ t g source, s.tunnels.lookup id = some t →
      t.connectionGuard = some g → authInfo request = .ok (some source) →
      Registered encode clients source.creds → source.creds = g.creds
  | _ => True

end Condition

variable {encode : Bytes → String} {clients : List Client}

/-! ## Who takes a slot -/

section

variable {l : ConnectionLimiter} {limiter : Option ConnectionLimiter} {t : Tunnel}
  {request : RequestHeaders}

lemma pass_iff : (RegistryBasedAuthenticator.new encode clients).authenticate source = .pass ↔
      Registered encode clients source.creds := by
  rw [RegistryBasedAuthenticator.authenticate, ← mem_registry encode clients]
  split <;> simp_all

lemma onTunnelRequest_cases {protocol : Protocol} {serverName : String} {sni : Option String}
    (h : onTunnelRequest (registry encode clients) (some l) protocol serverName sni =
      some (t, limiter)) : (t = ⟨protocol, serverName, .default, none⟩ ∧ limiter = some l) ∨
      ∃ creds g l', l.tryAcquire creds protocol = some (g, l') ∧ limiter = some l' ∧
        t = ⟨protocol, serverName, .authenticated (.sni creds), some g⟩ := by
  unfold onTunnelRequest registry at h
  split at h
  · rename_i creds _
    split at h
    · cases h
    · obtain ⟨⟨g, l'⟩, ha, hx⟩ := map_eq_some_iff.mp h
      cases hx
      exact .inr ⟨creds, g, l', ha, rfl, rfl⟩
  · cases h
    exact .inl ⟨rfl, rfl⟩

lemma acquireSlot_cases
    (h : acquireSlot (registry encode clients) (some l) t request = some (t', limiter)) :
    (t' = t ∧ limiter = some l ∧ ∀ source, authInfo request = .ok (some source) →
        Registered encode clients source.creds → t.connectionGuard ≠ none) ∨
      ∃ source g l', t.connectionGuard = none ∧ authInfo request = .ok (some source) ∧
        l.tryAcquire source.creds t.protocol = some (g, l') ∧ limiter = some l' ∧
        t' = { t with connectionGuard := some g } := by
  unfold acquireSlot registry at h
  split at h
  · rename_i source authenticator hg hl hi ha
    cases hl
    cases ha
    split at h
    · obtain ⟨⟨g, l'⟩, hac, hx⟩ := map_eq_some_iff.mp h
      cases hx
      exact .inr ⟨source, g, l', hg, hi, hac, rfl, rfl⟩
    · rename_i hr
      cases h
      refine .inl ⟨rfl, rfl, fun source' hi' hre => ?_⟩
      rw [hi] at hi'
      cases hi'
      rw [pass_iff.mpr hre] at hr
      cases hr
  · rename_i ho
    cases h
    refine .inl ⟨rfl, rfl, fun source hi _ hn => ?_⟩
    exact ho l source _ hn rfl hi rfl

lemma acquireSlot_eq_none (h : acquireSlot (registry encode clients) limiter t request = none) :
    t.connectionGuard = none := by
  unfold acquireSlot at h
  split at h
  · assumption
  · cases h

end

/-! ## The invariant -/

def HasSlot (t : Tunnel) (creds : String) : Prop :=
  ∃ g, t.connectionGuard = some g ∧ g.creds = creds

def slots (tunnels : Table Nat Tunnel) (creds : String) (protocol : Protocol) : Nat :=
  count tunnels (fun t => t.connectionGuard.any (fun g => g.takes creds protocol))

def Limited (l0 : ConnectionLimiter) (creds : String) (protocol : Protocol) : Prop :=
  ∃ e max, l0.clients.lookup creds = some e ∧ l0.limit e protocol = some max

section Invariant

variable (encode : Bytes → String) (clients : List Client)

def TaskSlotted (tunnels : Table Nat Tunnel) (task : Task) : Prop :=
  ∀ t, tunnels.lookup task.tunnel = some t →
    (∀ source, task.authenticationPolicy = .authenticated source → HasSlot t source.creds) ∧
    ∀ source, authInfo task.request = .ok (some source) →
      Registered encode clients source.creds → HasSlot t source.creds

def PromotionSlotted (tunnels : Table Nat Tunnel) (p : Promotion) : Prop :=
  ∀ t, tunnels.lookup p.tunnel = some t →
    ∀ source, p.forwarderAuth = some source → HasSlot t source.creds

structure Slotted (l0 : ConnectionLimiter) (s : Endpoint) : Prop where
  limiter : ∃ l, s.limiter = some l ∧ ConnectionLimiter.Counted (Limited l0) l0 l (slots s.tunnels)
  protocol : ∀ id t g, s.tunnels.lookup id = some t → t.connectionGuard = some g →
    g.protocol = t.protocol
  policy : ∀ id t source, s.tunnels.lookup id = some t →
    t.authenticationPolicy = .authenticated source → HasSlot t source.creds
  opened : ∀ id t, s.tunnels.lookup id = some t → id ∈ s.opened
  tasks : ∀ task ∈ s.tasks, task.tunnel ∈ s.opened ∧ TaskSlotted encode clients s.tunnels task
  promoted : ∀ p ∈ s.promoted, p.tunnel ∈ s.opened ∧ PromotionSlotted s.tunnels p

end Invariant

section

variable {opened : Table Nat (Option String)} {id : Nat} {tunnels tunnels' : Table Nat Tunnel}

def Keeps (opened : Table Nat (Option String)) (tunnels tunnels' : Table Nat Tunnel) : Prop :=
  ∀ id t', id ∈ opened → tunnels'.lookup id = some t' →
    ∃ t, tunnels.lookup id = some t ∧ ∀ creds, HasSlot t creds → HasSlot t' creds

lemma keeps_erase (opened : Table Nat (Option String)) (tunnels : Table Nat Tunnel) (id : Nat) :
    Keeps opened tunnels (tunnels.erase id) :=
  fun _ t' _ h => ⟨t', lookup_of_lookup_erase h, fun _ h => h⟩

lemma keeps_insert_new (hn : id ∉ opened) (tunnels : Table Nat Tunnel) (t : Tunnel) :
    Keeps opened tunnels (tunnels.insert id t) := by
  intro k t' hk h
  have hne : k ≠ id := by
    rintro rfl
    exact hn hk
  rw [lookup_insert_ne hne] at h
  exact ⟨t', h, fun _ h => h⟩

lemma keeps_insert (ht : tunnels.lookup id = some t)
    (hs : ∀ creds, HasSlot t creds → HasSlot t' creds) :
    Keeps opened tunnels (tunnels.insert id t') := by
  intro k t'' _ h
  by_cases hk : k = id
  · subst hk
    rw [lookup_insert] at h
    cases h
    exact ⟨t, ht, hs⟩
  · rw [lookup_insert_ne hk] at h
    exact ⟨t'', h, fun _ h => h⟩

lemma TaskSlotted.mono (h : TaskSlotted encode clients tunnels task)
    (ho : task.tunnel ∈ opened) (hk : Keeps opened tunnels tunnels') :
    TaskSlotted encode clients tunnels' task := by
  intro t' ht'
  obtain ⟨t, ht, hsl⟩ := hk task.tunnel t' ho ht'
  obtain ⟨hp, how⟩ := h t ht
  exact ⟨fun source hs => hsl _ (hp source hs), fun source hi hr => hsl _ (how source hi hr)⟩

lemma PromotionSlotted.mono (h : PromotionSlotted tunnels p)
    (ho : p.tunnel ∈ opened) (hk : Keeps opened tunnels tunnels') :
    PromotionSlotted tunnels' p := by
  intro t' ht' source hsr
  obtain ⟨t, ht, hs⟩ := hk p.tunnel t' ho ht'
  exact hs _ (h t ht source hsr)

end

/-! ## Every step -/

section

variable {l l' l0 : ConnectionLimiter} {creds : String} {g : ConnectionGuard}
  {tunnels : Table Nat Tunnel} {id : Nat} {t : Tunnel} {s s' : Endpoint} {request : RequestHeaders}
  {answers : Answers}

lemma guard_of_tryAcquire {protocol : Protocol} (h : l.tryAcquire creds protocol = some (g, l')) :
    g = ⟨creds, protocol⟩ := by
  obtain ⟨_, _, _, hg, _⟩ := tryAcquire_eq_some h
  exact hg

lemma limit_of_same (h : ConnectionLimiter.SameLimits l0 l)
    (he : l.clients.lookup creds = some e) (he0 : l0.clients.lookup creds = some e0)
    (protocol : Protocol) : l.limit e protocol = l0.limit e0 protocol := by
  have hl : e.limits = e0.limits := by
    have := h.limitsOf creds
    simpa [limitsOf, he, he0] using this
  rw [h.limit, l0.limit_eq_of_limits hl]

lemma counted_tryAcquire {live : String → Protocol → Nat} {protocol : Protocol}
    (h : ConnectionLimiter.Counted (Limited l0) l0 l live)
    (ha : l.tryAcquire creds protocol = some (g, l')) :
    ConnectionLimiter.Counted (Limited l0) l0 l' (fun c q => live c q + (g.takes c q).toNat) := by
  refine h.tryAcquire ha ?_
  rintro c q e ⟨e0, max, he0, hm⟩ he - hn
  rw [limit_of_same h.same he he0, hm] at hn
  cases hn

lemma slots_insert_new (hn : id ∉ tunnels) (t : Tunnel) (c : String) (q : Protocol) :
    slots (tunnels.insert id t) c q =
      slots tunnels c q + (t.connectionGuard.any (fun g => g.takes c q)).toNat := by
  rw [slots, count_insert, count_erase_of_notMem hn, slots]

lemma slots_erase (ht : tunnels.lookup id = some t) (c : String) (q : Protocol) :
    slots tunnels c q =
      slots (tunnels.erase id) c q + (t.connectionGuard.any (fun g => g.takes c q)).toNat :=
  count_erase ht _

lemma slots_insert (t : Tunnel) (c : String) (q : Protocol) : slots (tunnels.insert id t) c q =
      slots (tunnels.erase id) c q + (t.connectionGuard.any (fun g => g.takes c q)).toNat :=
  count_insert tunnels id t _

lemma slotted_start (l0 : ConnectionLimiter)
    (h : ConnectionLimiter.Counted (Limited l0) l0 l0 (fun _ _ => 0)) :
    Slotted encode clients l0 (.start (some l0)) :=
  ⟨⟨l0, rfl, h⟩, fun _ _ _ h => (nomatch h), fun _ _ _ h => (nomatch h), fun _ _ h => (nomatch h),
    fun _ h => (nomatch h), fun _ h => (nomatch h)⟩

lemma forall_lookup_insert {P : Nat → Tunnel → Prop}
    (h : ∀ id t, tunnels.lookup id = some t → P id t) {new : Nat} (ht : P new t) (id : Nat)
    (t' : Tunnel) (hl : (tunnels.insert new t).lookup id = some t') : P id t' := by
  by_cases hid : id = new
  · subst hid
    rw [lookup_insert] at hl
    cases hl
    exact ht
  · rw [lookup_insert_ne hid] at hl
    exact h id t' hl

lemma opening_slotted (hs : Slotted encode clients l0 s) {protocol : Protocol}
    {serverName : String} {sni : Option String}
    (h : step (registry encode clients) s (.opening id protocol serverName sni) = some s') :
    Slotted encode clients l0 s' := by
  obtain ⟨l, hl, hc⟩ := hs.limiter
  simp only [step, hl] at h
  obtain ⟨hne, h⟩ := ite_none_left_eq_some.mp h
  have hm : ∀ k, k ∈ s.opened → k ∈ s.opened.insert id sni :=
    fun k hk => (mem_insert s.opened).mpr (.inr hk)
  split at h
  · cases h
    exact ⟨⟨l, rfl, hc⟩, hs.protocol, hs.policy, fun k t hk => hm k (hs.opened k t hk),
      fun task ht => ⟨hm _ (hs.tasks task ht).1, (hs.tasks task ht).2⟩,
      fun p hp => ⟨hm _ (hs.promoted p hp).1, (hs.promoted p hp).2⟩⟩
  · rename_i t limiter hop
    cases h
    have hke := keeps_insert_new hne s.tunnels t
    have hn : id ∉ s.tunnels := by
      intro hid
      obtain ⟨t0, ht0⟩ := exists_lookup hid
      exact hne (hs.opened id t0 ht0)
    have ho : ∀ k t', (s.tunnels.insert id t).lookup k = some t' → k ∈ s.opened.insert id sni :=
      forall_lookup_insert (fun k t hk => hm k (hs.opened k t hk))
        ((mem_insert s.opened).mpr (.inl rfl))
    have hta : ∀ task ∈ s.tasks, task.tunnel ∈ s.opened.insert id sni ∧
        TaskSlotted encode clients (s.tunnels.insert id t) task := fun task ht =>
      ⟨hm _ (hs.tasks task ht).1, (hs.tasks task ht).2.mono (hs.tasks task ht).1 hke⟩
    have hpr : ∀ p ∈ s.promoted, p.tunnel ∈ s.opened.insert id sni ∧
        PromotionSlotted (s.tunnels.insert id t) p := fun p hp =>
      ⟨hm _ (hs.promoted p hp).1, (hs.promoted p hp).2.mono (hs.promoted p hp).1 hke⟩
    have hsl := slots_insert_new hn t
    rcases onTunnelRequest_cases hop with ⟨rfl, rfl⟩ | ⟨creds, g, l', ha, rfl, rfl⟩
    · refine ⟨⟨l, rfl, ?_⟩, ?_, ?_, ho, hta, hpr⟩
      · exact hc.congr hsl
      · exact fun k t' g hk => forall_lookup_insert (fun k t hk => hs.protocol k t g hk)
          (fun hg => by cases hg) k t' hk
      · exact fun k t' source hk => forall_lookup_insert (fun k t hk => hs.policy k t source hk)
          (fun hp => by cases hp) k t' hk
    · refine ⟨⟨l', rfl, ?_⟩, ?_, ?_, ho, hta, hpr⟩
      · exact (counted_tryAcquire hc ha).congr hsl
      · refine fun k t' g' hk => forall_lookup_insert (fun k t hk =>
          hs.protocol k t g' hk) ?_ k t' hk
        intro hg
        cases hg
        rw [guard_of_tryAcquire ha]
      · refine fun k t' source hk => forall_lookup_insert
          (fun k t hk => hs.policy k t source hk) ?_ k t' hk
        intro hp
        cases hp
        exact ⟨g, rfl, by rw [guard_of_tryAcquire ha]; rfl⟩

/-- What a request with the slot's credentials makes of its tunnel. -/
structure Served (encode : Bytes → String) (clients : List Client) (l0 : ConnectionLimiter)
    (tunnels : Table Nat Tunnel) (id : Nat)
    (request : RequestHeaders) (t t' : Tunnel) (limiter : Option ConnectionLimiter) : Prop where
  limiter : ∃ l', limiter = some l' ∧
    ConnectionLimiter.Counted (Limited l0) l0 l' (slots (tunnels.insert id t'))
  protocol : ∀ g, t'.connectionGuard = some g → g.protocol = t'.protocol
  policy : t'.authenticationPolicy = t.authenticationPolicy
  keeps : ∀ creds, HasSlot t creds → HasSlot t' creds
  own : ∀ source, authInfo request = .ok (some source) → Registered encode clients source.creds →
    HasSlot t' source.creds

lemma served_of_acquireSlot (hc : ConnectionLimiter.Counted (Limited l0) l0 l (slots tunnels))
    (ht : tunnels.lookup id = some t)
    (hp : ∀ g, t.connectionGuard = some g → g.protocol = t.protocol)
    (hk : ∀ g source, t.connectionGuard = some g → authInfo request = .ok (some source) →
      Registered encode clients source.creds → source.creds = g.creds)
    (h : acquireSlot (registry encode clients) (some l) t request = some (t', limiter)) :
    Served encode clients l0 tunnels id request t t' limiter := by
  rcases acquireSlot_cases h with ⟨rfl, rfl, hgu⟩ | ⟨source, g, l', hn, hi, ha, rfl, rfl⟩
  · refine ⟨⟨l, rfl, hc.congr ?_⟩, hp, rfl, fun _ h => h, ?_⟩
    · intro c q
      rw [slots_insert, ← slots_erase ht]
    · intro source hi hr
      obtain ⟨g, hg⟩ := ne_none_iff_exists'.mp (hgu source hi hr)
      exact ⟨g, hg, (hk g source hg hi hr).symm⟩
  · have hg := guard_of_tryAcquire ha
    refine ⟨⟨l', rfl, (counted_tryAcquire hc ha).congr ?_⟩, ?_, rfl, ?_, ?_⟩
    · intro c q
      rw [slots_insert, slots_erase ht, hn]
      rfl
    · intro g' hg'
      cases hg'
      rw [hg]
    · rintro creds ⟨g', hg', -⟩
      rw [hn] at hg'
      cases hg'
    · intro source' hi' _
      rw [hi] at hi'
      cases hi'
      exact ⟨g, rfl, by rw [hg]⟩

lemma request_slotted (hs : Slotted encode clients l0 s)
    (hkee : KeepsCredentials encode clients s (.request id request))
    (h : step (registry encode clients) s (.request id request) = some s') :
    Slotted encode clients l0 s' := by
  obtain ⟨l, hl, hc⟩ := hs.limiter
  simp only [step, hl] at h
  split at h
  · cases h
  · rename_i t ht
    split at h
    · rename_i hno
      cases h
      have hgu := acquireSlot_eq_none hno
      have hke := keeps_erase s.opened s.tunnels id
      have hsl : ∀ c q, slots (s.tunnels.erase id) c q = slots s.tunnels c q := by
        intro c q
        rw [slots_erase ht, hgu]
        rfl
      exact ⟨⟨l, rfl, hc.congr hsl⟩, fun k t g hk => hs.protocol k t g (lookup_of_lookup_erase hk),
        fun k t source hk => hs.policy k t source (lookup_of_lookup_erase hk),
        fun k t hk => hs.opened k t (lookup_of_lookup_erase hk),
        fun task hta => ⟨(hs.tasks task hta).1,
          (hs.tasks task hta).2.mono (hs.tasks task hta).1 hke⟩,
        fun p hp => ⟨(hs.promoted p hp).1, (hs.promoted p hp).2.mono (hs.promoted p hp).1 hke⟩⟩
    · rename_i t' limiter hslo
      cases h
      have hse := served_of_acquireSlot hc ht (hs.protocol id t · ht)
        (fun g source hg => hkee t g source ht hg) hslo
      have hke : Keeps s.opened s.tunnels (s.tunnels.insert id t') := keeps_insert ht hse.keeps
      have hid := hs.opened id t ht
      have hpo : ∀ source, t'.authenticationPolicy = .authenticated source →
          HasSlot t' source.creds := by
        intro source hsr
        rw [hse.policy] at hsr
        exact hse.keeps _ (hs.policy id t source ht hsr)
      refine ⟨hse.limiter, ?_, ?_, ?_, ?_, ?_⟩
      · exact fun k t g hk =>
          forall_lookup_insert (fun k t hk => hs.protocol k t g hk) (hse.protocol g) k t hk
      · exact fun k t source hk =>
          forall_lookup_insert (fun k t hk => hs.policy k t source hk) (hpo source) k t hk
      · exact forall_lookup_insert hs.opened hid
      · intro task hta
        rcases List.mem_append.mp hta with hold | hn
        · exact ⟨(hs.tasks task hold).1, (hs.tasks task hold).2.mono (hs.tasks task hold).1 hke⟩
        · cases List.mem_singleton.mp hn
          refine ⟨hid, fun t'' ht'' => ?_⟩
          rw [lookup_insert] at ht''
          cases ht''
          exact ⟨hpo, hse.own⟩
      · exact fun p hp => ⟨(hs.promoted p hp).1, (hs.promoted p hp).2.mono (hs.promoted p hp).1 hke⟩

lemma closed_slotted (hs : Slotted encode clients l0 s)
    (h : step context s (.closed id) = some s') : Slotted encode clients l0 s' := by
  obtain ⟨l, hl, hc⟩ := hs.limiter
  simp only [step, hl] at h
  split at h
  · cases h
  · rename_i t ht
    cases h
    have hke := keeps_erase s.opened s.tunnels id
    refine ⟨?_, fun k t g hk => hs.protocol k t g (lookup_of_lookup_erase hk),
      fun k t source hk => hs.policy k t source (lookup_of_lookup_erase hk),
      fun k t hk => hs.opened k t (lookup_of_lookup_erase hk),
      fun task hta => ⟨(hs.tasks task hta).1, (hs.tasks task hta).2.mono (hs.tasks task hta).1 hke⟩,
      fun p hp => ⟨(hs.promoted p hp).1, (hs.promoted p hp).2.mono (hs.promoted p hp).1 hke⟩⟩
    have hsl := slots_erase ht
    cases hg : t.connectionGuard with
    | none =>
      refine ⟨l, rfl, hc.congr (fun c q => ?_)⟩
      rw [hsl, hg]
      rfl
    | some g =>
      refine ⟨l.release g, rfl, hc.release (fun c q => ?_)⟩
      rw [hsl, hg]
      rfl

lemma promotionSlotted_of_task (h : TaskSlotted encode clients tunnels task)
    (ha : forwarderAuth (registry encode clients) task.authenticationPolicy task.request =
      .ok auth) : PromotionSlotted tunnels (promote answers task auth) := by
  intro t ht source hs
  obtain ⟨hp, ho⟩ := h t ht
  have hs : auth = some source := hs
  unfold forwarderAuth registry at ha
  split at ha
  · rename_i hi hau
    cases hau
    split at ha
    · rename_i hpa
      cases ha
      cases hs
      exact ho source hi (pass_iff.mp hpa)
    · cases ha
  · rename_i hx _
    cases ha
    cases hs
    exact hp source hx
  all_goals contradiction

lemma handled_slotted (hs : Slotted encode clients l0 s)
    (h : step (registry encode clients) s (.handled index answers) = some s') :
    Slotted encode clients l0 s' := by
  simp only [step] at h
  split at h
  · cases h
  · rename_i task hta
    have ht : ∀ task ∈ s.tasks.eraseIdx index,
        task.tunnel ∈ s.opened ∧ TaskSlotted encode clients s.tunnels task :=
      fun task h => hs.tasks task (List.mem_of_mem_eraseIdx h)
    split at h
    · cases h
      exact ⟨hs.limiter, hs.protocol, hs.policy, hs.opened, ht, hs.promoted⟩
    · rename_i ha
      cases h
      refine ⟨hs.limiter, hs.protocol, hs.policy, hs.opened, ht, ?_⟩
      intro p hp
      rcases List.mem_append.mp hp with hold | hn
      · exact hs.promoted p hold
      · cases List.mem_singleton.mp hn
        obtain ⟨ho, hsl⟩ := hs.tasks task (List.mem_of_getElem? hta)
        exact ⟨ho, promotionSlotted_of_task hsl ha⟩

/-- **Step.** -/
lemma step_slotted (s : Endpoint) (e : Event) (s' : Endpoint) (hs : Slotted encode clients l0 s)
    (hk : KeepsCredentials encode clients s e)
    (h : step (registry encode clients) s e = some s') : Slotted encode clients l0 s' := by
  cases e with
  | opening => exact opening_slotted hs h
  | request => exact request_slotted hs hk h
  | closed => exact closed_slotted hs h
  | handled => exact handled_slotted hs h

end

/-! ## Every run -/

lemma served_le_slots (hs : Slotted encode clients l0 s) (creds : String) (protocol : Protocol) :
    s.served creds protocol ≤ slots s.tunnels creds protocol := by
  apply List.countP_mono_left
  intro e he hse
  simp only [Bool.and_eq_true, List.any_eq_true, beq_iff_eq] at hse
  obtain ⟨hc, p, hp, ht, hf⟩ := hse
  have hl : s.tunnels.lookup e.1 = some e.2 := mem_lookup_iff.mpr he
  simp only [Promotion.forwardedAs, Bool.and_eq_true, any_eq_true, decide_eq_true_eq] at hf
  obtain ⟨⟨source, hsr, hcr⟩, -⟩ := hf
  obtain ⟨g, hg, hgc⟩ := (hs.promoted p hp).2 e.2 (ht ▸ hl) source hsr
  have hpr := hs.protocol e.1 e.2 g hl hg
  simp [hg, ConnectionGuard.takes, hgc, hcr, hpr, hc]

lemma Slotted.withinLimits (hs : Slotted encode clients l0 s) : WithinLimits l0 s := by
  intro creds e0 protocol max he0 hm
  obtain ⟨l, -, hc⟩ := hs.limiter
  have hl : Limited l0 creds protocol := ⟨e0, max, he0, hm⟩
  have hso : (l.limitsOf creds).isSome := by
    rw [hc.same.limitsOf]
    simp [limitsOf, he0]
  rw [limitsOf, isSome_map] at hso
  obtain ⟨e, he⟩ := isSome_iff_exists.mp hso
  have hle := hc.within creds e protocol max hl he (by rw [limit_of_same hc.same he he0, hm])
  rw [UInt32.le_iff_toNat_le, hc.count creds e protocol hl he] at hle
  exact le_trans (served_le_slots hs creds protocol) hle

/-- **The limit** is kept as long as good credentials are those of the tunnel's slot. -/
theorem served_le_limit (encode : Bytes → String) (clients : List Client)
    (defaultMaxHttp2 defaultMaxHttp3 : Option UInt32) (es : List Event)
    (h : EveryStep (step (registry encode clients)) (KeepsCredentials encode clients)
      (.start (some (.new encode clients defaultMaxHttp2 defaultMaxHttp3))) es) :
    EveryState (step (registry encode clients))
      (WithinLimits (.new encode clients defaultMaxHttp2 defaultMaxHttp3))
      (.start (some (.new encode clients defaultMaxHttp2 defaultMaxHttp3))) es :=
  everyState_of_everyStep step_slotted (fun _ hs => hs.withinLimits)
    (slotted_start _ (counted_new encode clients _ _ _)) h

def bob : Client := ⟨"bob", "hunter2", some 1, none⟩

def aliceCreds : String := "YWxpY2U6c2VjcmV0"
def bobCreds : String := "Ym9iOmh1bnRlcjI="

lemma connectPath_valid : isUriText "" ∧ (none : Option String).all isUriText := by
  decide +kernel

def connectWith (value : Bytes) (h : isHeaderValue value = true) : RequestHeaders :=
  { method := .connect, version := .http2
    uri := { authority := some { asStr := "example.org:443", host := "example.org",
                                 portU16 := some 443 },
             pathAndQuery := none, path := "", valid := connectPath_valid }
    headers := [⟨"proxy-authorization", value, by decide +kernel, h⟩] }

def aliceRequest : RequestHeaders := connectWith (utf8 ("Basic " ++ aliceCreds)) (by decide +kernel)
def bobRequest : RequestHeaders := connectWith (utf8 ("Basic " ++ bobCreds)) (by decide +kernel)

def okAnswers : Answers := ⟨.ok (.v4 ⟨192, 0, 2, 1⟩), .ok (), .ok (), fun _ => ""⟩

instance : DecidablePred (Registered encode clients) :=
  fun _ => inferInstanceAs (Decidable (∃ client ∈ clients, _))

instance : DecidableRel (KeepsCredentials encode clients)
  | s, .request id request =>
    decidable_of_iff (∀ g ∈ (s.tunnels.lookup id).bind (·.connectionGuard),
        ∀ source ∈ (authInfo request).toOption.join,
          Registered encode clients source.creds → source.creds = g.creds) <| by
      simp only [KeepsCredentials, mem_def, bind_eq_some_iff, join_eq_some_iff]
      constructor
      · intro h t g source ht hg hi
        exact h g ⟨t, ht, hg⟩ source (by rw [hi]; rfl)
      · rintro h g ⟨t, ht, hg⟩ source hi
        refine h t g source ht hg ?_
        cases ha : authInfo request <;> rw [ha] at hi <;> cases hi
        rfl
  | _, .opening .. | _, .closed _ | _, .handled .. => .isTrue trivial

/-- Two requests on a tunnel with a slot, and a tunnel that gets none. -/
def bobTwice : List Event :=
  [.opening 0 .http2 "vpn.example" none, .request 0 bobRequest, .handled 0 okAnswers,
    .request 0 bobRequest, .handled 0 okAnswers, .opening 1 .http2 "vpn.example" none,
    .request 1 bobRequest]

theorem bobTwice_within : EveryState (step (registry base64 [alice, bob]))
      (WithinLimits (.new base64 [alice, bob] none none))
      (.start (some (.new base64 [alice, bob] none none))) bobTwice ∧
    (run (step (registry base64 [alice, bob])) (.start (some (.new base64 [alice, bob] none none)))
      bobTwice).map (fun s => (s.served bobCreds .http2, s.failed.map (·.1))) = some (1, [1]) :=
  ⟨served_le_limit base64 [alice, bob] none none bobTwice (by decide +kernel), by decide +kernel⟩

def sharedTunnels : List Event :=
  [.opening 0 .http2 "vpn.example" none, .opening 1 .http2 "vpn.example" none,
    .request 0 aliceRequest, .request 1 aliceRequest, .request 0 bobRequest, .request 1 bobRequest,
    .handled 2 okAnswers, .handled 2 okAnswers]

/-- The second client may have one connection and has two. -/
theorem sharedTunnels_exceed : ∃ s, run (step (registry base64 [alice, bob]))
        (.start (some (.new base64 [alice, bob] none none))) sharedTunnels = some s ∧
      ¬ WithinLimits (.new base64 [alice, bob] none none) s := by
  have hr : (run (step (registry base64 [alice, bob]))
      (.start (some (.new base64 [alice, bob] none none))) sharedTunnels).map
        (fun s => s.served bobCreds .http2) = some 2 := by
    decide +kernel
  obtain ⟨s, hs, hse⟩ := map_eq_some_iff.mp hr
  refine ⟨s, hs, fun hw => ?_⟩
  have he : (new base64 [alice, bob] none none).clients.lookup bobCreds =
      some ⟨some 1, none, 0, 0⟩ := by
    decide +kernel
  have hle := hw bobCreds _ .http2 1 he (by decide +kernel)
  rw [hse] at hle
  exact absurd hle (by decide)

end TrustTunnel.Core
