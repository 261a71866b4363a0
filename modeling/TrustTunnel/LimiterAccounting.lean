import TrustTunnel.ConnectionLimiter

/-!
# The accounting of the connection limiter

What a call does to each counter, whatever holds the guards.
-/

namespace TrustTunnel

open Io Lib Authentication ClientEntry

/-! ## One counter at a time -/

def Protocol.isHttp3 : Protocol → Bool
  | .http3 => true
  | _ => false

def Protocol.sameClass (p q : Protocol) : Bool := p.isHttp3 == q.isHttp3

def ConnectionGuard.takes (g : ConnectionGuard) (creds : String) (protocol : Protocol) : Bool :=
  decide (g.creds = creds) && g.protocol.sameClass protocol

namespace ClientEntry

lemma count_setCount (e : ClientEntry) (n : UInt32) (p q : Protocol) :
    (e.setCount n p).count q = if p.sameClass q then n else e.count q := by
  cases p <;> cases q <;> rfl

lemma count_congr (e : ClientEntry) (h : p.sameClass q) : e.count p = e.count q := by
  cases p <;> cases q <;> first | rfl | cases h

def limits (e : ClientEntry) : Option UInt32 × Option UInt32 := (e.maxHttp2, e.maxHttp3)

@[simp] lemma limits_setCount (e : ClientEntry) (n : UInt32) (p : Protocol) :
    (e.setCount n p).limits = e.limits := by
  cases p <;> rfl

end ClientEntry

namespace ConnectionLimiter

section

variable {p q : Protocol} {e e' : ClientEntry} {l l' : ConnectionLimiter} {creds c : String}
  {g : ConnectionGuard}

lemma limit_congr (l : ConnectionLimiter) (e : ClientEntry) (h : p.sameClass q) :
    l.limit e p = l.limit e q := by
  cases p <;> cases q <;> first | rfl | cases h

lemma limit_eq_of_limits (l : ConnectionLimiter) (h : e'.limits = e.limits) (p : Protocol) :
    l.limit e' p = l.limit e p := by
  obtain ⟨h2, h3⟩ := Prod.mk.inj h
  cases p <;> simp [limit, h2, h3]

def put (l : ConnectionLimiter) (creds : String) (e : ClientEntry) : ConnectionLimiter :=
  { l with clients := l.clients.insert creds e }

@[simp] lemma limit_put (l : ConnectionLimiter) (creds : String) (e e' : ClientEntry)
    (p : Protocol) : (l.put creds e).limit e' p = l.limit e' p := by
  cases p <;> rfl

lemma lookup_put (l : ConnectionLimiter) (creds creds' : String) (e : ClientEntry) :
    (l.put creds e).clients.lookup creds' =
      if creds' = creds then some e else l.clients.lookup creds' := by
  by_cases h : creds' = creds
  · subst h
    simp [put]
  · simp [put, h, AList.lookup_insert_ne h]

def HasRoom (l : ConnectionLimiter) (e : ClientEntry) (p : Protocol) : Prop :=
  ∀ max, l.limit e p = some max → e.count p < max

lemma tryAcquire_eq_some (h : l.tryAcquire creds p = some (g, l')) :
    ∃ e, l.clients.lookup creds = some e ∧ l.HasRoom e p ∧ g = ⟨creds, p⟩ ∧
      l' = l.put creds (e.setCount (e.count p + 1) p) := by
  unfold tryAcquire at h
  split at h
  · cases h
  · rename_i e he
    split at h
    · cases h
    · rename_i hr
      cases h
      refine ⟨e, he, fun max hm => ?_, rfl, rfl⟩
      simpa [hm] using hr

lemma tryAcquire_eq_none :
    l.tryAcquire creds p = none ↔ ∀ e, l.clients.lookup creds = some e → ¬ l.HasRoom e p := by
  unfold tryAcquire HasRoom
  cases l.clients.lookup creds with
  | none => simp
  | some e =>
    cases hl : l.limit e p with
    | none | some => simp [hl]

lemma release_eq (h : l.clients.lookup g.creds = some e) : l.release g = l.put g.creds
      (e.setCount (if e.count g.protocol = 0 then 0 else e.count g.protocol - 1) g.protocol) := by
  simp [release, h, put]

lemma count_of_tryAcquire (h : l.tryAcquire creds p = some (g, l'))
    (he' : l'.clients.lookup c = some e')
    (hw : ∀ e, l.clients.lookup c = some e → g.takes c q → (e.count q).toNat + 1 < 2 ^ 32) :
    ∃ e, l.clients.lookup c = some e ∧ e'.limits = e.limits ∧
      (e'.count q).toNat = (e.count q).toNat + (g.takes c q).toNat := by
  obtain ⟨e, he, -, rfl, rfl⟩ := tryAcquire_eq_some h
  rw [lookup_put] at he'
  by_cases hc : c = creds
  · subst hc
    rw [if_pos rfl] at he'
    cases he'
    refine ⟨e, he, limits_setCount e _ p, ?_⟩
    rw [count_setCount]
    by_cases hcl : p.sameClass q
    · have hsmall := hw e he (by simp [ConnectionGuard.takes, hcl])
      have ht : (ConnectionGuard.mk c p).takes c q := by
        simp [ConnectionGuard.takes, hcl]
      rw [if_pos hcl, e.count_congr hcl, UInt32.toNat_add, ht]
      simp only [UInt32.toNat_one, Bool.toNat_true]
      omega
    · simp [hcl, ConnectionGuard.takes]
  · rw [if_neg hc] at he'
    have hne : ¬ creds = c := fun h => hc h.symm
    exact ⟨e', he', rfl, by simp [ConnectionGuard.takes, hne]⟩

lemma count_of_release (he' : (l.release g).clients.lookup c = some e')
    (hp : ∀ e, l.clients.lookup c = some e → g.takes c q → 0 < (e.count q).toNat) :
    ∃ e, l.clients.lookup c = some e ∧ e'.limits = e.limits ∧
      (e.count q).toNat = (e'.count q).toNat + (g.takes c q).toNat := by
  cases hg : l.clients.lookup g.creds with
  | none =>
    simp only [release, hg] at he'
    have hne : ¬ g.creds = c := by
      rintro rfl
      rw [hg] at he'
      cases he'
    exact ⟨e', he', rfl, by simp [ConnectionGuard.takes, hne]⟩
  | some e =>
    rw [release_eq hg, lookup_put] at he'
    by_cases hc : c = g.creds
    · subst hc
      rw [if_pos rfl] at he'
      cases he'
      refine ⟨e, hg, limits_setCount e _ g.protocol, ?_⟩
      rw [count_setCount]
      by_cases hcl : g.protocol.sameClass q
      · have ht : g.takes g.creds q := by simp [ConnectionGuard.takes, hcl]
        have hco := hp e hg ht
        rw [if_pos hcl, ht, e.count_congr hcl]
        have hz : e.count q ≠ 0 := by
          intro h
          simp [h] at hco
        have ho : (1 : UInt32) ≤ e.count q := by
          rw [UInt32.le_iff_toNat_le]
          exact hco
        rw [if_neg hz, UInt32.toNat_sub_of_le _ _ ho]
        simp only [UInt32.toNat_one, Bool.toNat_true]
        omega
      · simp [hcl, ConnectionGuard.takes]
    · rw [if_neg hc] at he'
      have hne : ¬ g.creds = c := fun h => hc h.symm
      exact ⟨e', he', rfl, by simp [ConnectionGuard.takes, hne]⟩

def limitsOf (l : ConnectionLimiter) (creds : String) : Option (Option UInt32 × Option UInt32) :=
  (l.clients.lookup creds).map limits

lemma limitsOf_put (he : l.clients.lookup creds = some e) (n : UInt32) (p : Protocol)
    (c : String) : (l.put creds (e.setCount n p)).limitsOf c = l.limitsOf c := by
  rw [limitsOf, limitsOf, lookup_put]
  by_cases hc : c = creds
  · subst hc
    simp [he]
  · rw [if_neg hc]

structure SameLimits (l l' : ConnectionLimiter) : Prop where
  limit : ∀ e p, l'.limit e p = l.limit e p
  limitsOf : ∀ creds, l'.limitsOf creds = l.limitsOf creds

lemma SameLimits.trans (h : SameLimits l l') (h' : SameLimits l' l'') : SameLimits l l'' :=
  ⟨fun e p => (h'.limit e p).trans (h.limit e p), fun c => (h'.limitsOf c).trans (h.limitsOf c)⟩

lemma sameLimits_tryAcquire (h : l.tryAcquire creds p = some (g, l')) : SameLimits l l' := by
  obtain ⟨e, he, -, rfl, rfl⟩ := tryAcquire_eq_some h
  exact ⟨limit_put l creds _, limitsOf_put he _ p⟩

lemma sameLimits_release (l : ConnectionLimiter) (g : ConnectionGuard) :
    SameLimits l (l.release g) := by
  cases hg : l.clients.lookup g.creds with
  | none =>
    have hs : l.release g = l := by simp [release, hg]
    rw [hs]
    exact ⟨fun _ _ => rfl, fun _ => rfl⟩
  | some =>
    rw [release_eq hg]
    exact ⟨limit_put l g.creds _, limitsOf_put hg _ g.protocol⟩

structure OnlyCounter (l : ConnectionLimiter) (creds : String) (p : Protocol)
    (l' : ConnectionLimiter) : Prop where
  same : SameLimits l l'
  others : ∀ c q, (ConnectionGuard.mk creds p).takes c q = false →
    (l'.clients.lookup c).map (fun e => e.count q) = (l.clients.lookup c).map (fun e => e.count q)

lemma count_put (he : l.clients.lookup creds = some e) (n : UInt32)
    (ht : (ConnectionGuard.mk creds p).takes c q = false) :
    ((l.put creds (e.setCount n p)).clients.lookup c).map (fun e => e.count q) =
      (l.clients.lookup c).map (fun e => e.count q) := by
  rw [lookup_put]
  by_cases hc : c = creds
  · subst hc
    have hcl : p.sameClass q = false := by simpa [ConnectionGuard.takes] using ht
    simp [he, count_setCount, hcl]
  · rw [if_neg hc]

lemma onlyCounter_tryAcquire (h : l.tryAcquire creds p = some (g, l')) :
    l.OnlyCounter creds p l' := by
  refine ⟨sameLimits_tryAcquire h, ?_⟩
  obtain ⟨e, he, -, -, rfl⟩ := tryAcquire_eq_some h
  intro c q ht
  exact count_put he _ ht

lemma onlyCounter_release (l : ConnectionLimiter) (g : ConnectionGuard) :
    l.OnlyCounter g.creds g.protocol (l.release g) := by
  refine ⟨sameLimits_release l g, ?_⟩
  intro c q ht
  cases hg : l.clients.lookup g.creds with
  | none => simp [release, hg]
  | some =>
    rw [release_eq hg]
    exact count_put hg _ ht

end

/-! ## The counters and what is live -/

section

variable {Tracked : String → Protocol → Prop} {l0 l : ConnectionLimiter}
  {live live' : String → Protocol → Nat} {g : ConnectionGuard}

/-- The counters are the numbers of live guards, within the limits. -/
structure Counted (Tracked : String → Protocol → Prop) (l0 l : ConnectionLimiter)
    (live : String → Protocol → Nat) : Prop where
  same : SameLimits l0 l
  count : ∀ creds e p, Tracked creds p → l.clients.lookup creds = some e →
    (e.count p).toNat = live creds p
  within : ∀ creds e p max, Tracked creds p → l.clients.lookup creds = some e →
    l.limit e p = some max → e.count p ≤ max

lemma lookup_new_count {encode : Bytes → String} {clients : List Client}
    {m : Table String ClientEntry} (hm : ∀ c e p, m.lookup c = some e → e.count p = 0) {c : String}
    {e : ClientEntry} (he : (clients.foldl (fun m x =>
      m.insert (x.key encode) ⟨x.maxHttp2Conns, x.maxHttp3Conns, 0, 0⟩) m).lookup c = some e)
    (p : Protocol) : e.count p = 0 := by
  induction clients generalizing m with
  | nil => exact hm c e p he
  | cons x clients ih =>
    rw [List.foldl_cons] at he
    refine ih ?_ he
    intro c' e' p' he'
    by_cases hc : c' = x.key encode
    · subst hc
      rw [AList.lookup_insert] at he'
      cases he'
      cases p' <;> rfl
    · rw [AList.lookup_insert_ne hc] at he'
      exact hm c' e' p' he'

lemma counted_new (encode : Bytes → String) (clients : List Client)
    (defaultMaxHttp2 defaultMaxHttp3 : Option UInt32) (Tracked : String → Protocol → Prop) :
    Counted Tracked (.new encode clients defaultMaxHttp2 defaultMaxHttp3)
      (.new encode clients defaultMaxHttp2 defaultMaxHttp3) (fun _ _ => 0) := by
  have hz : ∀ c e p, (ConnectionLimiter.new encode clients defaultMaxHttp2
      defaultMaxHttp3).clients.lookup c = some e → e.count p = 0 := by
    intro c e p he
    exact lookup_new_count (fun _ _ _ h => by cases h) he p
  refine ⟨⟨fun _ _ => rfl, fun _ => rfl⟩, ?_, ?_⟩
  · intro c e p _ he
    rw [hz c e p he]
    rfl
  · intro c e p max _ he _
    rw [hz c e p he, UInt32.le_iff_toNat_le]
    exact Nat.zero_le _

lemma Counted.congr (h : Counted Tracked l0 l live) (hl : ∀ c q, live' c q = live c q) :
    Counted Tracked l0 l live' := by
  rwa [funext₂ hl]

lemma Counted.tryAcquire
    (h : Counted Tracked l0 l live) (ha : l.tryAcquire creds p = some (g, l'))
    (hw : ∀ c q e, Tracked c q → l.clients.lookup c = some e → g.takes c q →
      l.limit e q = none → live c q + 1 < 2 ^ 32) :
    Counted Tracked l0 l' (fun c q => live c q + (g.takes c q).toNat) := by
  obtain ⟨e0, he0, hr, hg, hl'⟩ := tryAcquire_eq_some ha
  -- the guard's own counter is below its limit
  have hb : ∀ c q e max, l.clients.lookup c = some e → g.takes c q →
      l.limit e q = some max → (e.count q).toNat < max.toNat := by
    intro c q e max he hta hm
    subst hg
    obtain ⟨rfl, hc⟩ : creds = c ∧ p.sameClass q := by
      simpa [ConnectionGuard.takes] using hta
    cases he0.symm.trans he
    have hlt := hr max (by rw [l.limit_congr e0 hc, hm])
    rwa [e0.count_congr hc, UInt32.lt_iff_toNat_lt] at hlt
  have hen : ∀ c q e', Tracked c q → l'.clients.lookup c = some e' →
      ∃ e, l.clients.lookup c = some e ∧ e'.limits = e.limits ∧
        (e'.count q).toNat = (e.count q).toNat + (g.takes c q).toNat := by
    intro c q e' ht he'
    refine count_of_tryAcquire ha he' (fun e he hta => ?_)
    cases hm : l.limit e q with
    | none =>
      rw [h.count c e q ht he]
      exact hw c q e ht he hta hm
    | some max =>
      have hlt := hb c q e max he hta hm
      have hmaxWord := max.toNat_lt
      omega
  refine ⟨h.same.trans (sameLimits_tryAcquire ha), ?_, ?_⟩
  · intro c e' q ht he'
    obtain ⟨e, he, -, had⟩ := hen c q e' ht he'
    rw [had, h.count c e q ht he]
  · intro c e' q max ht he' hm
    obtain ⟨e, he, hli, had⟩ := hen c q e' ht he'
    rw [hl', limit_put, l.limit_eq_of_limits hli] at hm
    rw [UInt32.le_iff_toNat_le, had]
    cases hta : g.takes c q with
    | false => exact UInt32.le_iff_toNat_le.mp (h.within c e q max ht he hm)
    | true => exact hb c q e max he hta hm

lemma Counted.release (h : Counted Tracked l0 l live)
    (hl : ∀ c q, live c q = live' c q + (g.takes c q).toNat) :
    Counted Tracked l0 (l.release g) live' := by
  have hen : ∀ c q e', Tracked c q → (l.release g).clients.lookup c = some e' →
      ∃ e, l.clients.lookup c = some e ∧ e'.limits = e.limits ∧
        (e.count q).toNat = (e'.count q).toNat + (g.takes c q).toNat := by
    intro c q e' ht he'
    refine count_of_release he' (fun e he hta => ?_)
    rw [h.count c e q ht he, hl, hta]
    exact Nat.succ_pos _
  refine ⟨h.same.trans (sameLimits_release l g), ?_, ?_⟩
  · intro c e' q ht he'
    obtain ⟨e, he, -, hs⟩ := hen c q e' ht he'
    have hc := h.count c e q ht he
    rw [hl] at hc
    omega
  · intro c e' q max ht he' hm
    obtain ⟨e, he, hli, hs⟩ := hen c q e' ht he'
    rw [(sameLimits_release l g).limit, l.limit_eq_of_limits hli] at hm
    have hold := UInt32.le_iff_toNat_le.mp (h.within c e q max ht he hm)
    rw [UInt32.le_iff_toNat_le]
    omega

end

end ConnectionLimiter

end TrustTunnel
