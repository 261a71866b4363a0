import TrustTunnel.Metrics

/-!
# The session gauges are balanced

Sessions weigh `a` for their protocol and `b` for user and protocol, which covers single gauges
and sums.
-/

namespace TrustTunnel.Sessions

open Lib Table AList Option GaugeVec

/-! ## The invariant -/

section Weights

variable (a : Protocol → Int) (b : String → Protocol → Int)

def Metrics.reading (m : Metrics) : Int :=
  m.clientSessions.weight a + m.clientSessionsPerUser.weight (fun labels => b labels.1 labels.2)

def Counter.weight : Counter → Int
  | .live protocol label _ => a protocol + b label protocol
  | _ => 0

def Thread.debt : Thread → Int
  | .called _ => 0
  | .counted protocol _ _ => a protocol
  | .labelled protocol _ username => a protocol + b (label username) protocol
  | .relabelling protocol _ _ old => -b old protocol
  | .relabelled protocol _ username old => b (label username) protocol - b old protocol
  | .uncounted protocol _ => -a protocol
  | .removed protocol label => b label protocol

def Weighed (s : System) : Prop :=
  s.metrics.reading a b =
    sum s.counters (fun _ c => c.weight a b) + sum s.threads (fun _ x => x.debt a b)

end Weights

namespace System

variable (s : System)

def Made (protocol : Protocol) (id : String) : Prop :=
  (∃ label dropper, s.counters.lookup id = some (.live protocol label dropper)) ∨
    s.counters.lookup id = some (.gone protocol)

def Justified (thread : Nat) : Thread → Prop
  | .called (.registerConnection _ _) => True
  | .called (.unregisterConnection _) => True
  | .called (.newCounter protocol id _) | .counted protocol id _ | .labelled protocol id _ =>
    s.counters.lookup id = some (.coming protocol thread)
  | .called (.transferSessionUsername protocol id _) => s.Made protocol id
  | .relabelling protocol id _ old | .relabelled protocol id _ old => s.holder = some thread ∧
    ∃ dropper, s.counters.lookup id = some (.live protocol old dropper)
  | .called (.dropCounter protocol id) | .uncounted protocol id =>
    ∃ label, s.counters.lookup id = some (.live protocol label (some thread))
  | .removed _ _ => s.holder = some thread

/-- The entry of a live counter has its label, an earlier one none, and a gone counter none left. -/
structure Sound : Prop where
  perClient : s.metrics.perClient = true
  weighed : ∀ a b, Weighed a b s
  entry : ∀ id protocol l dropper, s.counters.lookup id = some (.live protocol l dropper) →
    ∃ e, s.metrics.clients.lookup id = some e ∧ label e.username = l
  early : ∀ id e, s.metrics.clients.lookup id = some e →
    (∀ protocol l dropper, s.counters.lookup id ≠ some (.live protocol l dropper)) →
    e.username = none
  gone : ∀ id protocol, s.counters.lookup id = some (.gone protocol) → id ∉ s.metrics.clients
  justified : ∀ t x, s.threads.lookup t = some x → s.Justified t x

end System

/-! ## Frames -/

section

variable {s s' : System} {t : Nat} {x : Thread}

/-- What another step leaves to the call of the thread `t`. -/
structure Keeps (s s' : System) (t : Nat) : Prop where
  coming : ∀ id protocol, s.counters.lookup id = some (.coming protocol t) →
    s'.counters.lookup id = some (.coming protocol t)
  dropped : ∀ id protocol l, s.counters.lookup id = some (.live protocol l (some t)) →
    ∃ l', s'.counters.lookup id = some (.live protocol l' (some t))
  made : ∀ id protocol, s.Made protocol id → s'.Made protocol id
  held : s.holder = some t → s'.holder = some t ∧
    ∀ id protocol l dropper, s.counters.lookup id = some (.live protocol l dropper) →
      ∃ dropper', s'.counters.lookup id = some (.live protocol l dropper')

lemma Keeps.justified (h : Keeps s s' t) (hx : s.Justified t x) : s'.Justified t x := by
  cases x with
  | called c =>
    cases c with
    | registerConnection | unregisterConnection => trivial
    | newCounter protocol id => exact h.coming id protocol hx
    | transferSessionUsername protocol id => exact h.made id protocol hx
    | dropCounter protocol id =>
      obtain ⟨l, hl⟩ := hx
      exact h.dropped id protocol l hl
  | counted protocol id | labelled protocol id => exact h.coming id protocol hx
  | relabelling protocol id username old | relabelled protocol id username old =>
    obtain ⟨hh, dropper, hl⟩ := hx
    obtain ⟨hh', hli⟩ := h.held hh
    exact ⟨hh', hli id protocol old dropper hl⟩
  | uncounted protocol id =>
    obtain ⟨l, hl⟩ := hx
    exact h.dropped id protocol l hl
  | removed => exact (h.held hx).1

lemma keeps_of_eq (hc : s'.counters = s.counters)
    (hh : s.holder = some t → s'.holder = some t) : Keeps s s' t where
  coming id protocol h := by rw [hc, h]
  dropped id protocol l h := ⟨l, by rw [hc, h]⟩
  made id protocol h := by
    unfold System.Made at h ⊢
    rw [hc]
    exact h
  held h := ⟨hh h, fun id protocol l dropper h => ⟨dropper, by rw [hc, h]⟩⟩

lemma keeps_of_insert {id : String} {c : Counter} (hco : s'.counters = s.counters.insert id c)
    (hcom : ∀ protocol, s.counters.lookup id ≠ some (.coming protocol t))
    (hd : ∀ protocol l, s.counters.lookup id = some (.live protocol l (some t)) →
      ∃ l', c = .live protocol l' (some t)) (hm : ∀ protocol, s.Made protocol id →
      (∃ l dropper, c = .live protocol l dropper) ∨ c = .gone protocol)
    (hhe : s.holder = some t → s'.holder = some t ∧ ∀ protocol l dropper,
      s.counters.lookup id = some (.live protocol l dropper) →
        ∃ dropper', c = .live protocol l dropper') : Keeps s s' t := by
  have hs : s'.counters.lookup id = some c := by rw [hco, lookup_insert]
  have ho : ∀ id', id' ≠ id → s'.counters.lookup id' = s.counters.lookup id' := by
    intro id' hne
    rw [hco, lookup_insert_ne hne]
  refine ⟨?_, ?_, ?_, ?_⟩
  · intro id' protocol h
    by_cases hid : id' = id
    · subst hid
      exact absurd h (hcom protocol)
    · rw [ho id' hid, h]
  · intro id' protocol l h
    by_cases hid : id' = id
    · subst hid
      obtain ⟨l', hc⟩ := hd protocol l h
      exact ⟨l', by rw [hs, hc]⟩
    · exact ⟨l, by rw [ho id' hid, h]⟩
  · intro id' protocol h
    by_cases hid : id' = id
    · subst hid
      rcases hm protocol h with ⟨l, dropper, hc⟩ | hc
      · exact .inl ⟨l, dropper, by rw [hs, hc]⟩
      · exact .inr (by rw [hs, hc])
    · unfold System.Made at h ⊢
      rw [ho id' hid]
      exact h
  · intro h
    obtain ⟨hh, hli⟩ := hhe h
    refine ⟨hh, fun id' protocol l dropper hl => ?_⟩
    by_cases hid : id' = id
    · subst hid
      obtain ⟨dropper', hc⟩ := hli protocol l dropper hl
      exact ⟨dropper', by rw [hs, hc]⟩
    · exact ⟨dropper, by rw [ho id' hid, hl]⟩

lemma justified_insert (hs : s.Sound) (ht : s'.threads = s.threads.insert t x)
    (hx : s'.Justified t x) (hk : ∀ t', t' ≠ t → Keeps s s' t') :
    ∀ t' y, s'.threads.lookup t' = some y → s'.Justified t' y := by
  intro t' y hy
  rw [ht] at hy
  rcases lookup_insert_cases hy with ⟨rfl, rfl⟩ | ⟨hne, hold⟩
  · exact hx
  · exact (hk t' hne).justified (hs.justified t' y hold)

lemma justified_erase (hs : s.Sound) (ht : s'.threads = s.threads.erase t)
    (hk : ∀ t', t' ≠ t → Keeps s s' t') :
    ∀ t' y, s'.threads.lookup t' = some y → s'.Justified t' y := by
  intro t' y hy
  rw [ht] at hy
  obtain ⟨hne, hold⟩ := lookup_erase_cases hy
  exact (hk t' hne).justified (hs.justified t' y hold)

end

/-! ## Entries -/

def Fits : Option Counter → Option ClientInfo → Prop
  | some (.live _ l _), entry => ∃ e, entry = some e ∧ label e.username = l
  | some (.gone _), entry => entry = none
  | some (.coming _ _), entry | none, entry => ∀ e, entry = some e → e.username = none

section

variable {s : System}

lemma System.Sound.fits (hs : s.Sound) (id : String) :
    Fits (s.counters.lookup id) (s.metrics.clients.lookup id) := by
  cases hc : s.counters.lookup id with
  | none => exact fun e he => hs.early id e he (by simp [hc])
  | some c =>
    cases c with
    | live p l dropper => exact hs.entry id p l dropper hc
    | coming => exact fun e he => hs.early id e he (by simp [hc])
    | gone p => exact lookup_eq_none.mpr (hs.gone id p hc)

lemma sound_of_fits (hp : s.metrics.perClient) (hw : ∀ a b, Weighed a b s)
    (hf : ∀ id, Fits (s.counters.lookup id) (s.metrics.clients.lookup id))
    (hj : ∀ t x, s.threads.lookup t = some x → s.Justified t x) : s.Sound := by
  refine ⟨hp, hw, fun id p l dropper hc => ?_, fun id e he hl => ?_, fun id p hc => ?_, hj⟩
  · have h := hf id
    rwa [hc] at h
  · have h := hf id
    rw [he] at h
    cases hc : s.counters.lookup id with
    | none =>
      rw [hc] at h
      exact h e rfl
    | some c =>
      rw [hc] at h
      cases c with
      | live p l dropper => exact absurd hc (hl p l dropper)
      | coming => exact h e rfl
      | gone => cases h
  · have h := hf id
    rw [hc] at h
    exact lookup_eq_none.mp h

lemma System.Sound.fits_of_one (hs : s.Sound) {counters : Table String Counter}
    {clients : Table String ClientInfo} {id : String}
    (ho : ∀ id', id' ≠ id → counters.lookup id' = s.counters.lookup id' ∧
      clients.lookup id' = s.metrics.clients.lookup id')
    (hid : Fits (counters.lookup id) (clients.lookup id)) (id' : String) :
    Fits (counters.lookup id') (clients.lookup id') := by
  by_cases hne : id' = id
  · exact hne.symm ▸ hid
  · rw [(ho id' hne).1, (ho id' hne).2]
    exact hs.fits id'

end

/-! ## Readings -/

namespace Metrics

variable (m : Metrics) (a : Protocol → Int) (b : String → Protocol → Int)

lemma reading_addSessions (protocol : Protocol) (d : Int) :
    (m.addSessions protocol d).reading a b = m.reading a b + d * a protocol := by
  simp only [reading, addSessions, weight_add]
  omega

lemma reading_addPerUser (h : m.perClient) (label : String) (protocol : Protocol)
    (d : Int) : (m.addPerUser label protocol d).reading a b =
      m.reading a b + d * b label protocol := by
  simp only [reading, addPerUser, h, if_true, weight_add]
  omega

@[simp] lemma reading_registerConnection (id : String) (ip : Option NetUtils.IpAddr) :
    (m.registerConnection id ip).reading a b = m.reading a b := by
  unfold registerConnection
  split <;> rfl

@[simp] lemma reading_unregisterConnection (id : String) :
    (m.unregisterConnection id).reading a b = m.reading a b := rfl

@[simp] lemma reading_enter (id : String) (username : Option String) :
    (m.enter id username).reading a b = m.reading a b := rfl

@[simp] lemma reading_rename (id : String) (username : Option String) :
    (m.rename id username).reading a b = m.reading a b := by
  unfold rename
  split <;> rfl

@[simp] lemma perClient_addPerUser (label : String) (protocol : Protocol) (d : Int) :
    (m.addPerUser label protocol d).perClient = m.perClient := by
  unfold addPerUser
  split <;> rfl

@[simp] lemma clients_addPerUser (label : String) (protocol : Protocol) (d : Int) :
    (m.addPerUser label protocol d).clients = m.clients := by
  unfold addPerUser
  split <;> rfl

end Metrics

def Counter.isLive : Counter → Bool
  | .live _ _ _ => true
  | _ => false

def Counter.isGone : Counter → Bool
  | .gone _ => true
  | _ => false

/-! ## Every step -/

section Steps

variable {s s' : System} {t : Nat}

section

variable {x : Thread} {m : Metrics} {id l : String} {protocol : Protocol} {username : Option String}
  {entry : ClientInfo} {c : Call}

lemma gauges_sound (hs : s.Sound) (hco : s'.counters = s.counters)
    (hc : s'.metrics.clients = s.metrics.clients)
    (hp : s'.metrics.perClient = s.metrics.perClient) (hw : ∀ a b, Weighed a b s')
    (hj : ∀ t x, s'.threads.lookup t = some x → s'.Justified t x) : s'.Sound := by
  refine sound_of_fits (hp.trans hs.perClient) hw (fun id => ?_) hj
  rw [hco, hc]
  exact hs.fits id

lemma goOn_sound (hs : s.Sound) (hx : s.threads.lookup t = some x)
    (hp : m.perClient = s.metrics.perClient) (hc : m.clients = s.metrics.clients)
    (hr : ∀ a b, m.reading a b = s.metrics.reading a b + (x'.debt a b - x.debt a b))
    (hj : s.Justified t x → s.Justified t x') : { s.goOn t x' with metrics := m }.Sound := by
  have ht := hj (hs.justified t x hx)
  have hk : ∀ t', Keeps s { s.goOn t x' with metrics := m } t' :=
    fun t' => keeps_of_eq rfl id
  refine gauges_sound hs rfl hc hp (fun a b => ?_) ?_
  · have hw := hs.weighed a b
    simp only [Weighed, System.goOn] at hw ⊢
    rw [sum_insert_of_lookup hx, hr, hw]
    omega
  · exact justified_insert hs rfl ((hk t).justified ht) (fun t' _ => hk t')

lemma holder_finish (hne : t' ≠ t) (h : s.holder = some t') : (s.finish t).holder = some t' := by
  have ho : s.holder ≠ some t := by
    rw [h]
    exact fun heq => hne (some.inj heq)
  exact (if_neg ho).trans h

lemma finish_sound (hs : s.Sound) (hx : s.threads.lookup t = some x)
    (hd : ∀ a b, x.debt a b = 0) (hp : m.perClient = s.metrics.perClient)
    (hr : ∀ a b, m.reading a b = s.metrics.reading a b)
    (hf : ∀ id, Fits (s.counters.lookup id) (m.clients.lookup id)) :
    { s.finish t with metrics := m }.Sound := by
  refine sound_of_fits (hp.trans hs.perClient) (fun a b => ?_) hf ?_
  · have hw := hs.weighed a b
    simp only [Weighed, System.finish] at hw ⊢
    rw [sum_erase hx, hr, hw, hd]
    omega
  · exact justified_erase hs rfl (fun t' hne => keeps_of_eq rfl (holder_finish hne))

lemma registerConnection_sound {ip : Option NetUtils.IpAddr} (hs : s.Sound)
    (hx : s.threads.lookup t = some (.called (.registerConnection id ip)))
    (hok : ∀ protocol, s.counters.lookup id ≠ some (.gone protocol)) :
    { s.finish t with metrics := s.metrics.registerConnection id ip }.Sound := by
  have hid := hs.fits id
  cases he : s.metrics.clients.lookup id with
  | some =>
    have hsa : s.metrics.registerConnection id ip = s.metrics := by
      rw [Metrics.registerConnection, he]
    rw [hsa]
    exact finish_sound hs hx (fun _ _ => rfl) rfl (fun _ _ => rfl) hs.fits
  | none =>
    have hcl : (s.metrics.registerConnection id ip).clients =
        s.metrics.clients.insert id ⟨none, ip, 0⟩ := by
      rw [Metrics.registerConnection, he]
    have hp : (s.metrics.registerConnection id ip).perClient = s.metrics.perClient := by
      rw [Metrics.registerConnection, he]
    refine finish_sound hs hx (fun _ _ => rfl) hp (fun a b => by simp)
      (hs.fits_of_one (fun id' hne => ⟨rfl, by rw [hcl, lookup_insert_ne hne]⟩) ?_)
    rw [hcl, lookup_insert]
    rw [he] at hid
    cases hc : s.counters.lookup id with
    | none => simp [Fits]
    | some c =>
      rw [hc] at hid
      cases c with
      | live => simp [Fits] at hid
      | coming => simp [Fits]
      | gone p => exact absurd hc (hok p)

lemma unregisterConnection_sound (hs : s.Sound)
    (hx : s.threads.lookup t = some (.called (.unregisterConnection id)))
    (hok : ∀ protocol l dropper, s.counters.lookup id ≠ some (.live protocol l dropper)) :
    { s.finish t with metrics := s.metrics.unregisterConnection id }.Sound := by
  refine finish_sound hs hx (fun _ _ => rfl) rfl (fun _ _ => rfl)
    (hs.fits_of_one (fun id' hne => ⟨rfl, lookup_erase_ne hne⟩) ?_)
  rw [Metrics.unregisterConnection, lookup_erase]
  cases hc : s.counters.lookup id with
  | none => simp [Fits]
  | some c =>
    cases c with
    | live p l dropper => exact absurd hc (hok p l dropper)
    | coming => simp [Fits]
    | gone => rfl

lemma transfer_sound (hs : s.Sound)
    (hx : s.threads.lookup t = some (.called (.transferSessionUsername protocol id username)))
    (hf : s.holder = none) (he : s.metrics.clients.lookup id = some entry) :
    { s.goOn t (.relabelling protocol id username (label entry.username)) with
      metrics := s.metrics.addPerUser (label entry.username) protocol (-1),
      holder := some t }.Sound := by
  have hli : ∃ dropper,
      s.counters.lookup id = some (.live protocol (label entry.username) dropper) := by
    rcases hs.justified t _ hx with ⟨l, dropper, h⟩ | h
    · obtain ⟨e, he', hl⟩ := hs.entry id protocol l dropper h
      rw [he] at he'
      cases he'
      exact ⟨dropper, by rw [h, hl]⟩
    · exact absurd (mem_of_lookup he) (hs.gone id protocol h)
  refine gauges_sound hs rfl (by simp) (by simp) (fun a b => ?_) ?_
  · have hw := hs.weighed a b
    simp only [Weighed, System.goOn] at hw ⊢
    rw [sum_insert_of_lookup hx, Metrics.reading_addPerUser _ _ _ hs.perClient, hw]
    simp only [Thread.debt]
    omega
  · refine justified_insert hs rfl ⟨rfl, hli⟩ (fun t' _ => keeps_of_eq rfl ?_)
    simp [hf]

lemma label_enter (username : Option String)
    (h : ∀ e, m.clients.lookup id = some e → e.username = none) :
    ∃ e, (m.enter id username).clients = m.clients.insert id e ∧
      label e.username = label username := by
  refine ⟨_, rfl, ?_⟩
  cases username with
  | some => rfl
  | none =>
    cases he : m.clients.lookup id with
    | none => rfl
    | some e =>
      simp only [getD_some]
      rw [h e he]

lemma enter_sound (hs : s.Sound) (hx : s.threads.lookup t = some (.labelled protocol id username))
    (hf : s.holder = none) : { s.finish t with
      metrics := s.metrics.enter id username,
      counters := s.counters.insert id (.live protocol (label username) none) }.Sound := by
  have hc : s.counters.lookup id = some (.coming protocol t) := hs.justified t _ hx
  have hn := hs.fits id
  rw [hc] at hn
  obtain ⟨e, hcl, hl⟩ := label_enter username hn
  refine sound_of_fits hs.perClient (fun a b => ?_)
    (hs.fits_of_one (fun id' hne => ⟨lookup_insert_ne hne, ?_⟩) ?_)
    (justified_erase hs rfl fun t' hne => keeps_of_insert rfl ?_ ?_ ?_ ?_)
  · have hw := hs.weighed a b
    simp only [Weighed, System.finish] at hw ⊢
    rw [sum_erase hx, sum_insert_of_lookup hc, Metrics.reading_enter, hw]
    simp only [Thread.debt, Counter.weight]
    omega
  · rw [hcl, lookup_insert_ne hne]
  · rw [hcl, lookup_insert, lookup_insert]
    exact ⟨e, rfl, hl⟩
  · simp [hc, hne.symm]
  · simp [hc]
  · simp [System.Made, hc]
  · simp [hf]

lemma rename_sound {old : String} {dropper : Option Nat} (hs : s.Sound)
    (hx : s.threads.lookup t = some (.relabelled protocol id username old)) (hh : s.holder = some t)
    (hl : s.counters.lookup id = some (.live protocol old dropper)) : { s.finish t with
      metrics := s.metrics.rename id username,
      counters := s.counters.insert id (.live protocol (label username) dropper) }.Sound := by
  obtain ⟨entry, he, -⟩ := hs.entry id protocol old dropper hl
  have hc : (s.metrics.rename id username).clients =
      s.metrics.clients.insert id { entry with username } := by
    rw [Metrics.rename, he]
  have hp : (s.metrics.rename id username).perClient = s.metrics.perClient := by
    rw [Metrics.rename, he]
  refine sound_of_fits (hp.trans hs.perClient) (fun a b => ?_)
    (hs.fits_of_one (fun id' hne => ⟨lookup_insert_ne hne, ?_⟩) ?_)
    (justified_erase hs rfl fun t' hne => keeps_of_insert rfl ?_ ?_ ?_ ?_)
  · have hw := hs.weighed a b
    simp only [Weighed, System.finish] at hw ⊢
    rw [sum_erase hx, sum_insert_of_lookup hl, Metrics.reading_rename, hw]
    simp only [Thread.debt, Counter.weight]
    omega
  · rw [hc, lookup_insert_ne hne]
  · rw [hc, lookup_insert, lookup_insert]
    exact ⟨_, rfl, rfl⟩
  · simp [hl]
  · rintro p l h
    cases hl.symm.trans h
    exact ⟨_, rfl⟩
  · simp [System.Made, hl]
  · simp [hh, hne.symm]

/-- Its label is left to be taken off. -/
lemma remove_sound (hs : s.Sound) (hx : s.threads.lookup t = some (.uncounted protocol id))
    (hf : s.holder = none) (hli : s.counters.lookup id = some (.live protocol l (some t)))
    (he : s.metrics.clients.lookup id = some entry) :
    { s.goOn t (.removed protocol (label entry.username)) with
      metrics := s.metrics.unregisterConnection id,
      counters := s.counters.insert id (.gone protocol),
      holder := some t }.Sound := by
  have hla : label entry.username = l := by
    obtain ⟨e, he', hl⟩ := hs.entry id protocol l (some t) hli
    rw [he] at he'
    cases he'
    exact hl
  refine sound_of_fits hs.perClient (fun a b => ?_)
    (hs.fits_of_one (fun id' hne => ⟨lookup_insert_ne hne, lookup_erase_ne hne⟩) ?_)
    (justified_insert hs rfl rfl fun t' hne => keeps_of_insert rfl ?_ ?_ ?_ ?_)
  · have hw := hs.weighed a b
    simp only [Weighed, System.goOn] at hw ⊢
    rw [sum_insert_of_lookup hx, sum_insert_of_lookup hli, Metrics.reading_unregisterConnection, hw]
    simp only [Thread.debt, Counter.weight, hla]
    omega
  · rw [Metrics.unregisterConnection, lookup_insert, lookup_erase]
    rfl
  · simp [hli]
  · simp [hli, hne.symm]
  · simp [System.Made, hli]
  · simp [hf]

lemma removed_sound (hs : s.Sound) (hx : s.threads.lookup t = some (.removed protocol l)) :
    { s.finish t with metrics := s.metrics.addPerUser l protocol (-1) }.Sound := by
  refine gauges_sound hs rfl (by simp) (by simp) (fun a b => ?_)
    (justified_erase hs rfl fun t' hne => keeps_of_eq rfl (holder_finish hne))
  have hw := hs.weighed a b
  simp only [Weighed, System.finish] at hw ⊢
  rw [sum_erase hx, Metrics.reading_addPerUser _ _ _ hs.perClient, hw]
  simp only [Thread.debt]
  omega

/-- It owes nothing yet. -/
lemma begin_sound (hs : s.Sound) (hn : t ∉ s.threads)
    (hwe : ∀ a b, sum counters (fun _ c => c.weight a b) = sum s.counters (fun _ c => c.weight a b))
    (hf : ∀ id, Fits (counters.lookup id) (s.metrics.clients.lookup id)) (hj : System.Justified
      { s with counters, threads := s.threads.insert t (.called c) } t (.called c))
    (hk : ∀ t', t' ≠ t →
      Keeps s { s with counters, threads := s.threads.insert t (.called c) } t') :
    System.Sound { s with counters, threads := s.threads.insert t (.called c) } := by
  refine sound_of_fits hs.perClient (fun a b => ?_) hf (justified_insert hs rfl hj hk)
  have hw := hs.weighed a b
  simp only [Weighed] at hw ⊢
  rw [sum_insert_of_notMem hn, hwe, hw]
  simp only [Thread.debt]
  omega

lemma newCounter_sound (hs : s.Sound) (hn : t ∉ s.threads) (hid : s.counters.lookup id = none) :
    System.Sound { s with
      counters := s.counters.insert id (.coming protocol t),
      threads := s.threads.insert t (.called (.newCounter protocol id username)) } := by
  refine begin_sound hs hn (fun a b => ?_)
    (hs.fits_of_one (fun id' hne => ⟨lookup_insert_ne hne, rfl⟩) ?_) (lookup_insert _)
    (fun t' _ => keeps_of_insert rfl ?_ ?_ ?_ ?_)
  · rw [sum_insert_of_notMem (lookup_eq_none.mp hid)]
    simp only [Counter.weight]
    omega
  · have hno := hs.fits id
    rw [hid] at hno
    rw [lookup_insert]
    exact hno
  · simp [hid]
  · simp [hid]
  · simp [System.Made, hid]
  · simp [hid]

lemma dropCounter_sound (hs : s.Sound) (hn : t ∉ s.threads)
    (hl : s.counters.lookup id = some (.live protocol l none)) : System.Sound { s with
      counters := s.counters.insert id (.live protocol l (some t)),
      threads := s.threads.insert t (.called (.dropCounter protocol id)) } := by
  refine begin_sound hs hn (fun a b => ?_)
    (hs.fits_of_one (fun id' hne => ⟨lookup_insert_ne hne, rfl⟩) ?_)
    ⟨l, lookup_insert _⟩ (fun t' _ => keeps_of_insert rfl ?_ ?_ ?_ ?_)
  · rw [sum_insert_of_lookup hl]
    simp only [Counter.weight]
    omega
  · have he := hs.fits id
    rw [hl] at he
    rw [lookup_insert]
    exact he
  · simp [hl]
  · simp [hl]
  · simp [System.Made, hl]
  · simp [hl]

lemma call_sound (hs : s.Sound) (h : step s (.call t c) = some s') : s'.Sound := by
  simp only [step] at h
  split at h
  · cases h
  rename_i hn
  obtain ⟨counters, ha, rfl⟩ := map_eq_some_iff.mp h
  have hsa : counters = s.counters → System.Justified
      { s with counters, threads := s.threads.insert t (.called c) } t (.called c) →
      System.Sound { s with counters, threads := s.threads.insert t (.called c) } := by
    rintro rfl hj
    exact begin_sound hs hn (fun _ _ => rfl) hs.fits hj (fun t' _ => keeps_of_eq rfl id)
  cases c with
  | registerConnection | unregisterConnection => exact hsa (some.inj ha).symm trivial
  | newCounter =>
    simp only [System.admits] at ha
    split at ha
    · rename_i hid
      cases ha
      exact newCounter_sound hs hn hid
    · cases ha
  | transferSessionUsername =>
    simp only [System.admits] at ha
    split at ha
    · rename_i l d hid
      split at ha <;> cases ha
      rename_i hp
      subst hp
      exact hsa rfl (.inl ⟨l, d, hid⟩)
    · rename_i hid
      split at ha <;> cases ha
      rename_i hp
      subst hp
      exact hsa rfl (.inr hid)
    · cases ha
  | dropCounter =>
    simp only [System.admits] at ha
    split at ha
    · rename_i hid
      split at ha <;> cases ha
      rename_i hp
      subst hp
      exact dropCounter_sound hs hn hid
    · cases ha

/-- Not registered after the counter is gone, nor unregistered while it is live. -/
def orderly (s : System) : Event → Bool
  | .call _ _ => true
  | .advance t =>
    match s.threads.lookup t with
    | some (.called (.registerConnection id _)) => (s.counters.lookup id).all (!·.isGone)
    | some (.called (.unregisterConnection id)) => (s.counters.lookup id).all (!·.isLive)
    | _ => true

lemma advance_sound (hs : s.Sound) (hok : orderly s (.advance t))
    (h : step s (.advance t) = some s') : s'.Sound := by
  obtain ⟨x, hx, ha⟩ := bind_eq_some_iff.mp h
  have hj := hs.justified t x hx
  simp only [orderly, hx] at hok
  -- a call that has to wait for the lock does not go on
  have hf : ∀ {r : System}, (if s.holder.isSome then none else some r) = some s' →
      s.holder = none ∧ r = s' := by
    intro r hr
    obtain ⟨hh, hr⟩ := ite_none_left_eq_some.mp hr
    exact ⟨by simpa using hh, some.inj hr⟩
  cases x with
  | called c =>
    cases c with
    | registerConnection =>
      obtain ⟨-, rfl⟩ := hf ha
      refine registerConnection_sound hs hx (fun protocol hg => ?_)
      simp only [hg] at hok
      cases hok
    | unregisterConnection =>
      obtain ⟨-, rfl⟩ := hf ha
      refine unregisterConnection_sound hs hx (fun protocol l dropper hl => ?_)
      simp only [hl] at hok
      cases hok
    | newCounter | dropCounter =>
      cases ha
      refine goOn_sound hs hx rfl rfl (fun a b => ?_) (fun h => h)
      rw [Metrics.reading_addSessions]
      simp only [Thread.debt]
      omega
    | transferSessionUsername =>
      simp only [System.advance] at ha
      have hi : { s.finish t with metrics := s.metrics }.Sound :=
        finish_sound hs hx (fun _ _ => rfl) rfl (fun _ _ => rfl) hs.fits
      split at ha
      · cases ha
      rename_i hh
      split at ha
      · cases ha
        exact hi
      · rename_i he
        split at ha <;> cases ha
        · exact hi
        · exact transfer_sound hs hx (by simpa using hh) he
  | counted | relabelling =>
    cases ha
    refine goOn_sound hs hx (by simp) (by simp) (fun a b => ?_) (fun h => h)
    rw [Metrics.reading_addPerUser _ _ _ hs.perClient]
    simp only [Thread.debt]
    omega
  | labelled =>
    obtain ⟨hn, rfl⟩ := hf ha
    exact enter_sound hs hx hn
  | relabelled =>
    obtain ⟨hho, dropper, hl⟩ := hj
    simp only [System.advance, hl] at ha
    cases ha
    exact rename_sound hs hx hho hl
  | uncounted protocol id =>
    obtain ⟨l, hl⟩ := hj
    obtain ⟨e, he, -⟩ := hs.entry id protocol l _ hl
    simp only [System.advance, he] at ha
    obtain ⟨hn, rfl⟩ := hf ha
    exact remove_sound hs hx hn hl he
  | removed =>
    cases ha
    exact removed_sound hs hx

/-- **Every step of every thread.** -/
lemma step_sound (hs : s.Sound) (hok : orderly s e) (h : step s e = some s') : s'.Sound := by
  cases e with
  | call => exact call_sound hs h
  | advance => exact advance_sound hs hok h

end

end Steps

lemma start_sound : (System.start true).Sound where
  perClient := rfl
  weighed _ _ := rfl
  entry _ _ _ _ h := absurd h (by simp [System.start])
  early _ _ h := absurd h (by simp [System.start, Metrics.new])
  gone _ _ h := absurd h (by simp [System.start])
  justified _ _ h := absurd h (by simp [System.start])

/-! ## The gauges -/

def Counter.isOf (protocol : Protocol) (label : String) : Counter → Bool
  | .live p l _ => p == protocol && l == label
  | _ => false

/-- Users' gauges count live counters and sum to the protocols', all zero without any. -/
structure System.Balanced (s : System) : Prop where
  perUser : ∀ label protocol,
    s.metrics.clientSessionsPerUser.get (label, protocol) =
      count s.counters (Counter.isOf protocol label)
  total : ∀ protocol,
    s.metrics.clientSessionsPerUser.weight (fun labels => if labels.2 = protocol then 1 else 0) =
      s.metrics.clientSessions.get protocol
  idle : (∀ id c, s.counters.lookup id = some c → c.isLive = false) →
    (∀ protocol, s.metrics.clientSessions.get protocol = 0) ∧
      ∀ labels, s.metrics.clientSessionsPerUser.get labels = 0

section Balance

variable {s : System}

lemma reading_of_idle (hs : s.Sound) (hi : s.threads = ∅) (a : Protocol → Int)
    (b : String → Protocol → Int) :
    s.metrics.reading a b = sum s.counters (fun _ c => c.weight a b) := by
  have hw := hs.weighed a b
  rw [Weighed, hi, sum_empty] at hw
  omega

lemma weight_zero {κ : Type} [DecidableEq κ] (v : GaugeVec κ) : v.weight (fun _ => 0) = 0 :=
  sum_eq_zero (fun _ n _ => Int.mul_zero n)

lemma clientSessions_of_idle (hs : s.Sound) (hi : s.threads = ∅) (protocol : Protocol) :
    s.metrics.clientSessions.get protocol =
      sum s.counters (fun _ c => c.weight (fun p => if p = protocol then 1 else 0)
        (fun _ _ => 0)) := by
  have hr := reading_of_idle hs hi (fun p => if p = protocol then 1 else 0) (fun _ _ => 0)
  rw [Metrics.reading, weight_single, weight_zero] at hr
  omega

lemma perUser_of_idle (hs : s.Sound) (hi : s.threads = ∅) (b : String → Protocol → Int) :
    s.metrics.clientSessionsPerUser.weight (fun labels => b labels.1 labels.2) =
      sum s.counters (fun _ c => c.weight (fun _ => 0) b) := by
  have hr := reading_of_idle hs hi (fun _ => 0) b
  rw [Metrics.reading, weight_zero] at hr
  omega

lemma balanced_of_idle (hs : s.Sound) (hi : s.threads = ∅) : s.Balanced := by
  have hp : ∀ l protocol, s.metrics.clientSessionsPerUser.get (l, protocol) =
      count s.counters (Counter.isOf protocol l) := by
    intro l protocol
    have hw : (fun labels : String × Protocol => if labels = (l, protocol) then (1 : Int) else 0) =
        fun labels => if labels.2 = protocol ∧ labels.1 = l then 1 else 0 := by
      refine funext ?_
      rintro ⟨l', p⟩
      simp [Prod.ext_iff, and_comm]
    rw [← weight_single, hw,
      perUser_of_idle hs hi (fun l' p => if p = protocol ∧ l' = l then 1 else 0),
      count_eq_sum]
    congr 1
    refine funext fun _ => funext fun c => ?_
    cases c <;> simp [Counter.weight, Counter.isOf]
  have ht : ∀ protocol, s.metrics.clientSessionsPerUser.weight
      (fun labels => if labels.2 = protocol then 1 else 0) =
        s.metrics.clientSessions.get protocol := by
    intro protocol
    rw [perUser_of_idle hs hi (fun _ p => if p = protocol then 1 else 0),
      clientSessions_of_idle hs hi]
    congr 1
    refine funext fun _ => funext fun c => ?_
    cases c <;> simp [Counter.weight]
  refine ⟨hp, ht, fun hn => ⟨fun protocol => ?_, ?_⟩⟩
  · rw [clientSessions_of_idle hs hi]
    refine sum_eq_zero (fun id c hc => ?_)
    cases c with
    | live => exact absurd (hn id _ hc) (by simp [Counter.isLive])
    | coming | gone => rfl
  · rintro ⟨l, protocol⟩
    rw [hp, count_eq_sum]
    refine sum_eq_zero (fun id c hc => if_neg ?_)
    cases c with
    | live => exact absurd (hn id _ hc) (by simp [Counter.isLive])
    | coming | gone => exact Bool.false_ne_true

end Balance

/-- **Balance**, whenever no call is in progress, if connections come and go in order. -/
theorem gauges_balance (es : List Event)
    (h : EveryStep step (fun s e => orderly s e = true) (System.start true) es) :
    EveryState step (fun s => s.threads = ∅ → s.Balanced) (System.start true) es := by
  exact everyState_of_everyStep (fun s e s' hs hok hst => step_sound hs hok hst)
    (fun s hs hi => balanced_of_idle hs hi) start_sound h

/-- A thread makes the call and returns from it after `n` updates. -/
def whole (call : Call) (n : Nat) : List Event := .call 0 call :: List.replicate n (.advance 0)

def aliceSession : List Event :=
  whole (.registerConnection "1" none) 1 ++ whole (.newCounter .http2 "1" none) 3 ++
    whole (.transferSessionUsername .http2 "1" (some "alice")) 3

theorem aliceSession_balanced :
    EveryState step (fun s => s.threads = ∅ → s.Balanced) (System.start true) aliceSession :=
  gauges_balance aliceSession (by decide +kernel)

/-- The counter's gauge is never taken back. -/
def unregisteredAlive : List Event :=
  whole (.newCounter .http2 "1" (some "alice")) 3 ++ whole (.unregisterConnection "1") 1 ++
    whole (.dropCounter .http2 "1") 2

/-- And then given a user. -/
def registeredGone : List Event :=
  whole (.newCounter .http2 "1" none) 3 ++ whole (.dropCounter .http2 "1") 3 ++
    whole (.registerConnection "1" none) 1 ++
    whole (.transferSessionUsername .http2 "1" (some "alice")) 3

/-- No counter is live, but `alice` has a session. -/
def System.stray (s : System) : Bool :=
  s.threads.entries.isEmpty && s.counters.entries.all (!·.2.isLive) &&
    s.metrics.clientSessionsPerUser.get ("alice", .http2) == 1

lemma not_balanced_of_stray {s : System} (h : s.stray) : ¬ (s.threads = ∅ → s.Balanced) := by
  simp only [System.stray, Bool.and_eq_true, List.isEmpty_iff, List.all_eq_true, beq_iff_eq] at h
  obtain ⟨⟨hi, hn⟩, ha⟩ := h
  intro hb
  have hz := ((hb (ext hi)).idle (fun id c hc => ?_)).2 ("alice", .http2)
  · rw [ha] at hz
    cases hz
  · simpa using hn _ (mem_lookup_iff.mp hc)

lemma not_everyState_of_stray (h : (run step (System.start true) (e :: es)).any System.stray) :
    ¬ EveryState step (fun s => s.threads = ∅ → s.Balanced) (System.start true) (e :: es) := by
  intro he
  cases hr : run step (System.start true) (e :: es) with
  | none =>
    rw [hr] at h
    cases h
  | some =>
    rw [hr] at h
    exact not_balanced_of_stray h (he.last hr)

theorem disorder_unbalanced :
    ¬ EveryState step (fun s => s.threads = ∅ → s.Balanced) (System.start true) unregisteredAlive ∧
    ¬ EveryState step (fun s => s.threads = ∅ → s.Balanced) (System.start true) registeredGone :=
  ⟨not_everyState_of_stray (by decide +kernel), not_everyState_of_stray (by decide +kernel)⟩

end TrustTunnel.Sessions
