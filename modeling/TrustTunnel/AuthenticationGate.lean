import TrustTunnel.Tunnel

/-!
# The authentication gate

With an authenticator, a request is promoted only with registered credentials: its own, or else
its tunnel's.
-/

namespace TrustTunnel.Core

open Io Http Lib Authentication Tunnel List Option
open Lib.Http1 (utf8)

section Gate

variable (encode : Bytes → String) (clients : List Client)

def registry : Context := ⟨some (.new encode clients)⟩

/-- The credentials a request may be promoted with. -/
inductive Admits (sni : Option String) (request : RequestHeaders) : Source → Prop
  | own (creds : String) (hown : ProxyCredentials request creds)
      (hregistered : Registered encode clients creds) : Admits sni request (.proxyBasic creds)
  | tunnel (creds : String) (hnone : getHeader "proxy-authorization" request = none)
      (hsni : sni = some creds) (hregistered : Registered encode clients creds) :
      Admits sni request (.sni creds)

/-- It authenticates with registered credentials of the tunnel, if at all. -/
def PolicyFrom (opened : Table Nat (Option String)) (id : Nat) (policy : AuthenticationPolicy) :
    Prop :=
  ∃ sni, opened.lookup id = some sni ∧ ∀ source, policy = .authenticated source →
    ∃ creds, source = .sni creds ∧ sni = some creds ∧ Registered encode clients creds

def Admitted (opened : Table Nat (Option String)) (p : Promotion) : Prop :=
  ∃ sni source, opened.lookup p.tunnel = some sni ∧ Admits encode clients sni p.request source ∧
    p.forwarderAuth = some source ∧
    ∀ call ∈ p.calls, ∀ auth, call.auth = some auth → auth = some source

structure Authentic (s : Endpoint) : Prop where
  tunnels : ∀ id t, s.tunnels.lookup id = some t →
    PolicyFrom encode clients s.opened id t.authenticationPolicy
  tasks : ∀ task ∈ s.tasks, PolicyFrom encode clients s.opened task.tunnel task.authenticationPolicy
  promoted : ∀ p ∈ s.promoted, Admitted encode clients s.opened p

end Gate

variable {encode : Bytes → String} {clients : List Client}

/-! ## One request -/

lemma forwarderAuth_admits (hp : ∀ source, policy = .authenticated source →
      ∃ creds, source = .sni creds ∧ sni = some creds ∧ Registered encode clients creds)
    (h : forwarderAuth (registry encode clients) policy request = .ok auth) :
    ∃ source, auth = some source ∧ Admits encode clients sni request source := by
  unfold forwarderAuth registry at h
  split at h
  · rename_i hi ha
    cases ha
    split at h
    · rename_i hpa
      cases h
      obtain ⟨creds, rfl, ho⟩ := authInfo_eq_some hi
      exact ⟨_, rfl, .own creds ho (registered_of_pass hpa)⟩
    · cases h
  · rename_i x _ hi _
    cases h
    obtain ⟨creds, rfl, hs, hregistered⟩ := hp x rfl
    exact ⟨_, rfl, .tunnel creds (authInfo_eq_none hi) hs hregistered⟩
  all_goals contradiction

/-! ## Opening a tunnel and taking its slot -/

lemma onTunnelRequest_policy {limiter limiter' : Option ConnectionLimiter} {protocol : Protocol}
    {serverName : String} {sni : Option String} {t : Tunnel}
    (h : onTunnelRequest (registry encode clients) limiter protocol serverName sni =
      some (t, limiter')) (source : Source) (hs : t.authenticationPolicy = .authenticated source) :
    ∃ creds, source = .sni creds ∧ sni = some creds ∧ Registered encode clients creds := by
  unfold onTunnelRequest registry at h
  split at h
  · rename_i creds ha
    cases ha
    split at h
    · cases h
    · rename_i hp
      have hregistered := registered_of_pass hp
      split at h
      · cases h
        cases hs
        exact ⟨creds, rfl, rfl, hregistered⟩
      · obtain ⟨x, -, hx⟩ := map_eq_some_iff.mp h
        cases hx
        cases hs
        exact ⟨creds, rfl, rfl, hregistered⟩
  · cases h
    cases hs

lemma acquireSlot_policy (h : acquireSlot context limiter t request = some (t', limiter')) :
    t'.authenticationPolicy = t.authenticationPolicy := by
  unfold acquireSlot at h
  split at h
  · split at h
    · obtain ⟨x, -, hx⟩ := map_eq_some_iff.mp h
      cases hx
      rfl
    · cases h
      rfl
  · cases h
    rfl

/-! ## Every run -/

section

variable {opened : Table Nat (Option String)} {id new : Nat} {tunnels : Table Nat Tunnel}
  {t : Tunnel} {s s' : Endpoint}

lemma PolicyFrom.insert
    (h : PolicyFrom encode clients opened id policy) (hn : new ∉ opened) (sni : Option String) :
    PolicyFrom encode clients (opened.insert new sni) id policy := by
  obtain ⟨x, hx, hp⟩ := h
  exact ⟨x, Table.lookup_insert_of_notMem hx hn sni, hp⟩

lemma Admitted.insert (h : Admitted encode clients opened p) (hn : new ∉ opened)
    (sni : Option String) : Admitted encode clients (opened.insert new sni) p := by
  obtain ⟨x, source, hx, hr⟩ := h
  exact ⟨x, source, Table.lookup_insert_of_notMem hx hn sni, hr⟩

lemma policyFrom_insert_tunnel (h : ∀ id t, tunnels.lookup id = some t →
      PolicyFrom encode clients opened id t.authenticationPolicy)
    (ht : PolicyFrom encode clients opened new t.authenticationPolicy) (id : Nat) (t' : Tunnel)
    (hl : (tunnels.insert new t).lookup id = some t') :
    PolicyFrom encode clients opened id t'.authenticationPolicy := by
  by_cases hid : id = new
  · subst hid
    rw [AList.lookup_insert] at hl
    cases hl
    exact ht
  · rw [AList.lookup_insert_ne hid] at hl
    exact h id t' hl

lemma lookup_of_lookup_erase (h : (tunnels.erase gone).lookup id = some t) :
    tunnels.lookup id = some t := by
  by_cases hid : id = gone
  · subst hid
    rw [AList.lookup_erase] at h
    cases h
  · rwa [AList.lookup_erase_ne hid] at h

lemma authentic_start (limiter : Option ConnectionLimiter) :
    Authentic encode clients (.start limiter) :=
  ⟨fun _ _ h => (nomatch h), fun _ h => (nomatch h), fun _ h => (nomatch h)⟩

lemma opening_authentic (hs : Authentic encode clients s) {protocol : Protocol}
    {serverName : String} {sni : Option String}
    (h : step (registry encode clients) s (.opening id protocol serverName sni) = some s') :
    Authentic encode clients s' := by
  obtain ⟨hn, h⟩ := ite_none_left_eq_some.mp h
  have htu : ∀ k t, s.tunnels.lookup k = some t →
      PolicyFrom encode clients (s.opened.insert id sni) k t.authenticationPolicy :=
    fun k t hk => (hs.tunnels k t hk).insert hn sni
  have hta : ∀ task ∈ s.tasks, PolicyFrom encode clients (s.opened.insert id sni)
      task.tunnel task.authenticationPolicy :=
    fun task htas => (hs.tasks task htas).insert hn sni
  have hpr : ∀ p ∈ s.promoted, Admitted encode clients (s.opened.insert id sni) p :=
    fun p hp => (hs.promoted p hp).insert hn sni
  split at h
  · cases h
    exact ⟨htu, hta, hpr⟩
  · rename_i ht
    cases h
    refine ⟨policyFrom_insert_tunnel htu ?_, hta, hpr⟩
    exact ⟨sni, AList.lookup_insert s.opened, onTunnelRequest_policy ht⟩

lemma request_authentic (hs : Authentic encode clients s)
    (h : step (registry encode clients) s (.request id request) = some s') :
    Authentic encode clients s' := by
  simp only [step] at h
  split at h
  · cases h
  · rename_i t ht
    have hp := hs.tunnels id t ht
    split at h
    · cases h
      exact ⟨fun k t hk => hs.tunnels k t (lookup_of_lookup_erase hk), hs.tasks, hs.promoted⟩
    · rename_i hsl
      cases h
      rw [← acquireSlot_policy hsl] at hp
      refine ⟨policyFrom_insert_tunnel hs.tunnels hp, ?_, hs.promoted⟩
      intro task hta
      rcases mem_append.mp hta with h | h
      · exact hs.tasks task h
      · cases mem_singleton.mp h
        exact hp

lemma closed_authentic (hs : Authentic encode clients s)
    (h : step context s (.closed id) = some s') : Authentic encode clients s' := by
  simp only [step] at h
  split at h
  · cases h
  · cases h
    exact ⟨fun k t hk => hs.tunnels k t (lookup_of_lookup_erase hk), hs.tasks, hs.promoted⟩

lemma handled_authentic (hs : Authentic encode clients s)
    (h : step (registry encode clients) s (.handled index answers) = some s') :
    Authentic encode clients s' := by
  simp only [step] at h
  split at h
  · cases h
  · rename_i task hta
    have ht : ∀ task ∈ s.tasks.eraseIdx index,
        PolicyFrom encode clients s.opened task.tunnel task.authenticationPolicy :=
      fun task h => hs.tasks task (mem_of_mem_eraseIdx h)
    split at h
    · cases h
      exact ⟨hs.tunnels, ht, hs.promoted⟩
    · rename_i hau
      cases h
      refine ⟨hs.tunnels, ht, ?_⟩
      intro p hp
      rcases mem_append.mp hp with h | h
      · exact hs.promoted p h
      · cases mem_singleton.mp h
        obtain ⟨sni, hsn, hpo⟩ := hs.tasks task (mem_of_getElem? hta)
        obtain ⟨source, rfl, ha⟩ := forwarderAuth_admits hpo hau
        exact ⟨sni, source, hsn, ha, rfl, fun call hc _ h => promote_auth hc h⟩

/-- **Step.** -/
lemma step_authentic (s : Endpoint) (e : Event) (s' : Endpoint)
    (hs : Authentic encode clients s) (h : step (registry encode clients) s e = some s') :
    Authentic encode clients s' := by
  cases e with
  | opening => exact opening_authentic hs h
  | request => exact request_authentic hs h
  | closed => exact closed_authentic hs h
  | handled => exact handled_authentic hs h

/-- **The gate.** A promoted request had registered credentials, and the forwarder was handed
those. -/
theorem promoted_admitted {limiter : Option ConnectionLimiter} {s : Endpoint}
    (hs : Reachable (step (registry encode clients)) (.start limiter) s) {p : Promotion}
    (hp : p ∈ s.promoted) : Admitted encode clients s.opened p :=
  (reachable_invariant (authentic_start limiter) step_authentic hs).promoted p hp

def base64 (bytes : Bytes) : String := String.ofList (go bytes)
where
  digit (n : Nat) : Char :=
    "ABCDEFGHIJKLMNOPQRSTUVWXYZabcdefghijklmnopqrstuvwxyz0123456789+/".toList.getD (n % 64) '='
  go : Bytes → List Char
    | [] => []
    | [a] =>
      let n := a.toNat * 2 ^ 16
      [digit (n / 2 ^ 18), digit (n / 2 ^ 12), '=', '=']
    | [a, b] =>
      let n := a.toNat * 2 ^ 16 + b.toNat * 2 ^ 8
      [digit (n / 2 ^ 18), digit (n / 2 ^ 12), digit (n / 2 ^ 6), '=']
    | a :: b :: c :: rest =>
      let n := a.toNat * 2 ^ 16 + b.toNat * 2 ^ 8 + c.toNat
      digit (n / 2 ^ 18) :: digit (n / 2 ^ 12) :: digit (n / 2 ^ 6) :: digit n :: go rest

def alice : Client := ⟨"alice", "secret", none, none⟩

/-- A health check with the credentials of `alice`. -/
def aliceCheck : RequestHeaders :=
  { method := .connect, version := .http2
    uri := { authority := some { asStr := "_check", host := "_check", portU16 := none },
             pathAndQuery := none, path := "" }
    headers := [{ name := "proxy-authorization", value := utf8 "Basic YWxpY2U6c2VjcmV0" }] }

def aliceEvents : List Event :=
  [.opening 0 .http2 "vpn.example" none, .request 0 aliceCheck,
    .handled 0 ⟨.ok (.v4 ⟨192, 0, 2, 1⟩), .ok (), .ok (), fun _ => ""⟩]

theorem aliceCheck_admitted : ∃ s, Reachable (step (registry base64 [alice])) (.start none) s ∧
      ∃ p ∈ s.promoted, p.request = aliceCheck ∧ Admitted base64 [alice] s.opened p := by
  have hr : (run (step (registry base64 [alice])) (.start none) aliceEvents).any (fun s =>
      decide (⟨0, aliceCheck, .healthCheck, some (.proxyBasic "YWxpY2U6c2VjcmV0"), [], none⟩ ∈
        s.promoted)) := by
    decide +kernel
  obtain ⟨s, hs, hp⟩ := (any_eq_true _ _).mp hr
  exact ⟨s, ⟨aliceEvents, hs⟩, _, of_decide_eq_true hp, rfl,
    promoted_admitted ⟨aliceEvents, hs⟩ (of_decide_eq_true hp)⟩

end

end TrustTunnel.Core
