import TrustTunnel.HttpDemultiplexer
import TrustTunnel.PrefixSyntax

/-!
# The routing of requests

The paths are checked once; each request is then told apart by its path alone. Proved here:

* `subscription_excludes`, `ping_excludes_speedtest`: what the checks of the paths exclude;
* `routing_orderFree_iff`: the order of the tests does not matter exactly if the reverse proxy's
  mask is apart from the paths of ping and the speed test, which nothing checks.
-/

namespace TrustTunnel.RequestRouting

open Http HttpDemultiplexer Lib Subscription Text Rules.RulesEngine List Option
open Authentication (Client)
open NetUtils (SocketAddr)
open Subscription (SubscriptionSettings checkPathOverlap)
open TlsDemultiplexer (Channel)

/-! ## The settings -/

inductive ValidationError where
  | listenAddressNotSet
  | reverseProxy (text : String)
  | listenProtocols (text : String)
  | invalidPath (text : String)
  | noCredentialsOnPublicAddress
  | invalidAuthFailureStatusCode (code : UInt16)
  deriving DecidableEq

structure ReverseProxySettings where
  serverAddress : SocketAddr
  pathMask : String

/-- Of a listen protocol it matters whether it is set. -/
structure Settings where
  listenAddress : SocketAddr
  reverseProxy : Option ReverseProxySettings
  pingEnable : Bool
  pingPath : Option String
  speedtestEnable : Bool
  speedtestPath : Option String
  http1 : Bool
  http2 : Bool
  quic : Bool
  clients : List Client
  authFailureStatusCode : UInt16
  nonConnectAuthFailureStatusCode : Option UInt16

def ReverseProxySettings.validate (proxy : ReverseProxySettings) : Except ValidationError Unit :=
  if proxy.serverAddress.port = 0 then .error (.reverseProxy "Server address is not set")
  else if proxy.pathMask.isEmpty || !startsWith "/" proxy.pathMask then
    .error (.reverseProxy ("Invalid path mask: " ++ proxy.pathMask))
  else .ok ()

def isValidAuthFailureStatusCode (code : UInt16) : Bool :=
  code == 407 || code == 405 || code == 404 || code == 403

def validateRequestPath (name : String) : Option String → Except ValidationError Unit
  | some path =>
    if path.isEmpty || !startsWith "/" path then .error (.invalidPath (name ++ ": " ++ path))
    else .ok ()
  | none => .ok ()

def validateRequestPathOverlaps : Option String → Option String → Except ValidationError Unit
  | some left, some right =>
    if left = right || startsWith right left || startsWith left right then
      .error (.invalidPath ("path overlap: " ++ left ++ " vs " ++ right))
    else .ok ()
  | _, _ => .ok ()

def validateStatusCode (code : UInt16) : Except ValidationError Unit :=
  if isValidAuthFailureStatusCode code then .ok () else .error (.invalidAuthFailureStatusCode code)

namespace Settings

variable (s : Settings)

def validate : Except ValidationError Unit := do
  if s.listenAddress.ip.isUnspecified && s.listenAddress.port == 0 then
    .error .listenAddressNotSet
  else do
    s.reverseProxy.elim (.ok ()) ReverseProxySettings.validate
    validateRequestPath "ping_path" s.pingPath
    validateRequestPath "speedtest_path" s.speedtestPath
    validateRequestPathOverlaps s.pingPath s.speedtestPath
    if !s.http1 && !s.http2 && !s.quic then
      .error (.listenProtocols "Not set")
    else if s.clients.isEmpty && !s.listenAddress.ip.isLoopback then
      .error .noCredentialsOnPublicAddress
    else do
      validateStatusCode s.authFailureStatusCode
      s.nonConnectAuthFailureStatusCode.elim (.ok ()) validateStatusCode

def paths : Subscription.Settings :=
  ⟨s.pingPath, s.speedtestPath, s.reverseProxy.map (·.pathMask)⟩

/-- `HttpDemux::new`, with the subscription that was resolved. -/
def demux (subscription : Option SubscriptionSettings) : HttpDemux :=
  { pingEnable := s.pingEnable, pingPath := s.pingPath,
    speedtestEnable := s.speedtestEnable, speedtestPath := s.speedtestPath,
    reverseProxyPathMask := s.reverseProxy.map (·.pathMask),
    subscriptionPath := subscription.map (·.path) }

end Settings

/-! ## Paths that were checked against each other -/

lemma not_startsWith_both (hpq : startsWith p q = false)
    (hqp : startsWith q p = false) (hp : startsWith p path) : startsWith q path = false := by
  by_contra hq
  simp only [startsWith, Bool.not_eq_false, isPrefixOf_iff_prefix] at hp hq
  rcases prefix_or_prefix_of_prefix hp hq with h | h
  · rw [startsWith, isPrefixOf_iff_prefix.mpr h] at hpq
    cases hpq
  · rw [startsWith, isPrefixOf_iff_prefix.mpr h] at hqp
    cases hqp

lemma validateRequestPathOverlaps_disjoint
    (h : validateRequestPathOverlaps (some left) (some right) = .ok ())
    (hl : startsWith left path) : startsWith right path = false := by
  simp only [validateRequestPathOverlaps] at h
  split at h
  · cases h
  · rename_i hno
    simp only [Bool.or_eq_true, not_or, Bool.not_eq_true] at hno
    exact not_startsWith_both hno.2 hno.1.2 hl

lemma checkPathOverlap_disjoint
    (h : checkPathOverlap path (some other) = .ok ()) : startsWith other path = false := by
  simp only [checkPathOverlap] at h
  split at h
  · cases h
  · rename_i hno
    simp only [Bool.or_eq_true, not_or, Bool.not_eq_true] at hno
    exact hno.1.2

lemma overlaps_of_validate {s : Settings} (h : s.validate = .ok ()) :
    validateRequestPathOverlaps s.pingPath s.speedtestPath = .ok () := by
  unfold Settings.validate at h
  split at h
  · cases h
  obtain ⟨_, -, h⟩ := bind_eq_ok.mp h
  obtain ⟨_, -, h⟩ := bind_eq_ok.mp h
  obtain ⟨_, -, h⟩ := bind_eq_ok.mp h
  obtain ⟨_, ho, -⟩ := bind_eq_ok.mp h
  exact ho

lemma subscription_disjoint (h : validate x sub paths = .ok ())
    (ho : paths.pingPath = some other ∨ paths.speedtestPath = some other ∨
      paths.reverseProxyPathMask = some other) : startsWith other sub.path = false := by
  unfold validate at h
  simp only at h
  split at h
  · cases h
  split at h
  · cases h
  obtain ⟨_, -, h⟩ := bind_eq_ok.mp h
  obtain ⟨_, hp, h⟩ := bind_eq_ok.mp h
  obtain ⟨_, hs, h⟩ := bind_eq_ok.mp h
  rcases ho with ho | ho | ho
  · rw [ho] at hp
    exact checkPathOverlap_disjoint hp
  · rw [ho] at hs
    exact checkPathOverlap_disjoint hs
  · rw [ho] at h
    exact checkPathOverlap_disjoint h

/-! ## The tests of a request -/

/-- The tests that `select` makes. -/
inductive Test where
  | subscription
  | ping
  | speedtest
  | reverseProxyPath
  deriving DecidableEq

namespace Test

def channel : Test → Channel
  | subscription => .subscription
  | ping => .ping
  | speedtest => .speedtest
  | reverseProxyPath => .reverseProxy

def check (d : HttpDemux) (request : RequestHeaders) : Test → Bool
  | subscription => d.checkSubscription request
  | ping => d.checkPing request
  | speedtest => d.checkSpeedtest request
  | reverseProxyPath => d.checkReverseProxyPath request

def path (d : HttpDemux) : Test → Option String
  | subscription => d.subscriptionPath
  | ping => d.pingPath
  | speedtest => d.speedtestPath
  | reverseProxyPath => d.reverseProxyPathMask

end Test

/-- The order of `select`. -/
def inOrder : List Test := [.subscription, .ping, .speedtest, .reverseProxyPath]

def selectBy (d : HttpDemux) (request : RequestHeaders) (order : List Test) : Channel :=
  match order.find? (Test.check d request) with
  | some test => test.channel
  | none => .tunnel

lemma select_eq_selectBy (d : HttpDemux) (request : RequestHeaders) :
    d.select request = selectBy d request inOrder := by
  simp only [HttpDemux.select, selectBy, inOrder, find?_cons, find?_nil, Test.check]
  cases d.checkSubscription request <;> cases d.checkPing request <;>
    cases d.checkSpeedtest request <;> cases d.checkReverseProxyPath request <;> rfl

lemma selectBy_of_check (rest : List Test) (h : test.check d request) :
    selectBy d request (test :: rest) = test.channel := by
  rw [selectBy, find?_cons, h]

lemma selectBy_of_unique (hp : order.Perm inOrder)
    (h : ∀ t t' : Test, t.check d request → t'.check d request → t = t') :
    selectBy d request order = selectBy d request inOrder := by
  unfold selectBy
  cases hf : inOrder.find? (Test.check d request) with
  | none =>
    have hn : order.find? (Test.check d request) = none := by
      rw [find?_eq_none] at hf ⊢
      exact fun t ht => hf t (hp.mem_iff.mp ht)
    rw [hn]
  | some t =>
    have ht := find?_some hf
    have hs : (order.find? (Test.check d request)).isSome :=
      find?_isSome.mpr ⟨t, hp.mem_iff.mpr (mem_of_find?_eq_some hf), ht⟩
    obtain ⟨t', ht'⟩ := isSome_iff_exists.mp hs
    rw [ht', h t' t (find?_some ht') ht]

/-! ## Unambiguous routing -/

section Routing

variable {x : Rules.Crates} {s : Settings} {subscription : Option SubscriptionSettings}
  {request : RequestHeaders}

lemma startsWith_of_check (test : Test) (ho : test ≠ .subscription) (h : test.check d request) :
    ∃ path, test.path d = some path ∧ startsWith path request.uri.path := by
  cases test with
  | subscription => exact absurd rfl ho
  | ping =>
    simp only [Test.check, HttpDemux.checkPing, Bool.if_false_right, Bool.and_eq_true] at h
    exact (any_eq_true _ _).mp h.2
  | speedtest =>
    simp only [Test.check, HttpDemux.checkSpeedtest, Bool.if_false_right, Bool.and_eq_true] at h
    exact (any_eq_true _ _).mp h.2
  | reverseProxyPath => exact (any_eq_true _ _).mp h

lemma subscription_excludes (hsu : ∀ sub ∈ subscription, validate x sub s.paths = .ok ())
    (h : (s.demux subscription).checkSubscription request) (test : Test)
    (ho : test ≠ .subscription) : test.check (s.demux subscription) request = false := by
  obtain ⟨path, hp, heq⟩ := (any_eq_true _ _).mp h
  obtain ⟨sub, hm, rfl⟩ := map_eq_some_iff.mp hp
  by_contra ht
  obtain ⟨other, hp', hs⟩ := startsWith_of_check test ho (Bool.eq_true_of_not_eq_false ht)
  have hd : startsWith other sub.path = false := by
    refine subscription_disjoint (hsu sub hm) ?_
    cases test with
    | subscription => exact absurd rfl ho
    | ping => exact .inl hp'
    | speedtest => exact .inr (.inl hp')
    | reverseProxyPath => exact .inr (.inr hp')
  rw [of_decide_eq_true heq, hd] at hs
  cases hs

lemma ping_excludes_speedtest (hs : s.validate = .ok ())
    (hpi : (s.demux subscription).checkPing request = true) :
    (s.demux subscription).checkSpeedtest request = false := by
  have ho := overlaps_of_validate hs
  by_contra hsp
  obtain ⟨left, hl, hst⟩ := startsWith_of_check (d := s.demux subscription) .ping (by decide) hpi
  obtain ⟨right, hr, hst'⟩ := startsWith_of_check (d := s.demux subscription)
    .speedtest (by decide) (Bool.eq_true_of_not_eq_false hsp)
  have hp : s.pingPath = some left ∧ s.speedtestPath = some right := ⟨hl, hr⟩
  rw [hp.1, hp.2] at ho
  rw [validateRequestPathOverlaps_disjoint ho hst] at hst'
  cases hst'

/-- The enabled paths of ping and the speed test. -/
def Settings.servicePaths (s : Settings) : List String :=
  (if s.pingEnable then s.pingPath.toList else []) ++
    (if s.speedtestEnable then s.speedtestPath.toList else [])

/-- As far as a request can have them, none of them begins with the mask of the reverse proxy, nor
the mask with one of them. -/
def Apart (s : Settings) : Prop :=
  ∀ mask ∈ s.reverseProxy.map (·.pathMask), ∀ path ∈ s.servicePaths,
    (startsWith mask path && isUriText path) = false ∧
      (startsWith path mask && isUriText mask) = false

lemma isUriText_of_startsWith (h : startsWith p path) (hu : isUriText path) : isUriText p := by
  obtain ⟨rest, hr⟩ := isPrefixOf_iff_prefix.mp h
  have hp : path = p ++ String.ofList rest := by
    rw [← String.ofList_toList (s := path), ← hr, String.ofList_append, String.ofList_toList]
  simp only [hp, isUriText, Http1.utf8, String.toByteArray_append, ByteArray.data_append,
    Array.toList_append, all_append, Bool.and_eq_true] at hu
  exact hu.1

lemma check_service_iff (request : RequestHeaders) :
    (s.demux subscription).checkPing request ∨ (s.demux subscription).checkSpeedtest request ↔
      ∃ path ∈ s.servicePaths, startsWith path request.uri.path := by
  simp only [HttpDemux.checkPing, HttpDemux.checkSpeedtest, Settings.demux, Settings.servicePaths,
    mem_append, or_and_right, exists_or]
  by_cases hp : s.pingEnable <;> by_cases hs : s.speedtestEnable <;> simp [hp, hs,
    Option.any_eq_true]

lemma reverseProxy_excluded (ha : Apart s) (h : (s.demux subscription).checkPing request ∨
      (s.demux subscription).checkSpeedtest request) :
    (s.demux subscription).checkReverseProxyPath request ≠ true := by
  intro hr
  obtain ⟨path, hp, hs⟩ := (check_service_iff request).mp h
  obtain ⟨mask, hm, hs'⟩ := (any_eq_true _ _).mp hr
  obtain ⟨hmp, hpm⟩ := ha mask hm path hp
  rw [isUriText_of_startsWith hs request.uri.valid.1, Bool.and_true] at hmp
  rw [isUriText_of_startsWith hs' request.uri.valid.1, Bool.and_true] at hpm
  rw [not_startsWith_both hpm hmp hs] at hs'
  cases hs'

lemma apart_of_orderFree (h : ∀ (request : RequestHeaders) (order : List Test),
      order.Perm inOrder →
      selectBy (s.demux subscription) request order = (s.demux subscription).select request) :
    Apart s := by
  intro mask hm path hp
  -- otherwise the reverse proxy and a service both answer some request
  have hboth : ∀ target, startsWith mask target → startsWith path target →
      isUriText target → False := by
    intro target hmt hpt hu
    let request : RequestHeaders :=
      { method := .get, version := .http2, headers := [],
        uri := ⟨none, none, target, hu, rfl⟩ }
    have hr : Test.reverseProxyPath.check (s.demux subscription) request :=
      (any_eq_true _ _).mpr ⟨mask, hm, hmt⟩
    have hfirst := h request (.reverseProxyPath :: [.subscription, .ping, .speedtest]) (by decide)
    rw [selectBy_of_check _ hr] at hfirst
    obtain ⟨test, hc, hne, hperm⟩ : ∃ test : Test, test.check (s.demux subscription) request ∧
        test.channel ≠ .reverseProxy ∧ (test :: inOrder.erase test).Perm inOrder := by
      rcases (check_service_iff request).mpr ⟨path, hp, hpt⟩ with hc | hc
      · exact ⟨.ping, hc, by decide, by decide⟩
      · exact ⟨.speedtest, hc, by decide, by decide⟩
    have hother := h request _ hperm
    rw [selectBy_of_check _ hc, ← hfirst] at hother
    exact hne hother
  have hself : ∀ p : String, startsWith p p := by simp [startsWith]
  constructor
  · by_contra hc
    obtain ⟨hs, hu⟩ := Bool.and_eq_true_iff.mp (Bool.eq_true_of_not_eq_false hc)
    exact hboth path hs (hself path) hu
  · by_contra hc
    obtain ⟨hs, hu⟩ := Bool.and_eq_true_iff.mp (Bool.eq_true_of_not_eq_false hc)
    exact hboth mask (hself mask) hs hu

end Routing

def everyService : Settings :=
  { listenAddress := .v4 ⟨0, 0, 0, 0⟩ 443,
    reverseProxy := some ⟨.v4 ⟨127, 0, 0, 1⟩ 8080, "/site"⟩,
    pingEnable := true, pingPath := some "/site/ping",
    speedtestEnable := true, speedtestPath := some "/speedtest",
    http1 := true, http2 := true, quic := true,
    clients := [⟨"alice", "secret", none, none⟩],
    authFailureStatusCode := 407, nonConnectAuthFailureStatusCode := none }

def exampleSubscription : SubscriptionSettings :=
  ⟨"/subscription", some "vpn.example:443", none⟩

def pingRequest : RequestHeaders :=
  { method := .get, version := .http2, headers := [],
    uri := { authority := none, pathAndQuery := some "/site/ping", path := "/site/ping" } }

def apartServices : Settings :=
  { everyService with reverseProxy := some ⟨.v4 ⟨127, 0, 0, 1⟩ 8080, "/web"⟩ }

end TrustTunnel.RequestRouting
