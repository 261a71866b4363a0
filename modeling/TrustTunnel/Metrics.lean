import TrustTunnel.ConnectionLimiter
import TrustTunnel.Lib.Runs
import TrustTunnel.NetUtils

/-!
# The session gauges (`metrics.rs`)

Sessions by protocol and by user. The lock guards the map of clients but not the gauges. A call
goes from one visible update to the next (`Thread`); `counters` is not in the source.
-/

namespace TrustTunnel.Sessions

open Lib NetUtils Table

/-! ## Gauges and clients -/

/-- `IntGaugeVec`; a gauge that is not there is made at zero. -/
structure GaugeVec (κ : Type) where
  gauges : Table κ Int

namespace GaugeVec

variable {κ : Type} [DecidableEq κ]

def get (v : GaugeVec κ) (labels : κ) : Int := (v.gauges.lookup labels).getD 0

/-- `inc` and `dec` of the gauge with the labels. -/
def add (v : GaugeVec κ) (labels : κ) (d : Int) : GaugeVec κ :=
  ⟨v.gauges.insert labels (v.get labels + d)⟩

/-- What the gauges weigh if each weighs its value times `w`. -/
def weight (v : GaugeVec κ) (w : κ → Int) : Int := sum v.gauges (fun labels n => n * w labels)

lemma weight_add (v : GaugeVec κ) (labels : κ) (d : Int) (w : κ → Int) :
    (v.add labels d).weight w = v.weight w + d * w labels := by
  cases h : v.gauges.lookup labels with
  | none =>
    have hn : labels ∉ v.gauges := AList.lookup_eq_none.mp h
    rw [add, weight, weight, sum_insert_of_notMem hn, get, h]
    simp
  | some =>
    rw [add, weight, weight, sum_insert_of_lookup h, get, h, Option.getD_some, Int.add_mul]
    omega

lemma weight_single (v : GaugeVec κ) (labels : κ) :
    v.weight (fun k => if k = labels then 1 else 0) = v.get labels := by
  have ho : ∀ t : Table κ Int, labels ∉ t →
      sum t (fun k n => n * (if k = labels then 1 else 0)) = 0 := by
    intro t ht
    refine sum_eq_zero (fun k n hk => ?_)
    have hne : k ≠ labels := by
      rintro rfl
      exact ht (mem_of_lookup hk)
    rw [if_neg hne, Int.mul_zero]
  cases h : v.gauges.lookup labels with
  | none => rw [weight, ho _ (AList.lookup_eq_none.mp h), get, h, Option.getD_none]
  | some n =>
    have he := sum_erase h (fun k n => n * (if k = labels then 1 else 0))
    rw [ho _ (by simp), if_pos rfl] at he
    rw [weight, get, h, Option.getD_some]
    omega

end GaugeVec

/-- `ClientInfo`; `sessions` is 64 bits wide. -/
structure ClientInfo where
  username : Option String
  ip : Option IpAddr
  sessions : Nat

structure Metrics where
  perClient : Bool
  clientSessions : GaugeVec Protocol
  clientSessionsPerUser : GaugeVec (String × Protocol)
  clients : Table String ClientInfo

def Metrics.new (perClient : Bool) : Metrics := ⟨perClient, ⟨∅⟩, ⟨∅⟩, ∅⟩

/-- The label of a username: `as_deref().unwrap_or("")`. -/
def label (username : Option String) : String := username.getD ""

def saturatingAdd (n m : Nat) : Nat := min (n + m) (2 ^ 64 - 1)

namespace Metrics

variable (m : Metrics)

def addSessions (protocol : Protocol) (d : Int) : Metrics :=
  { m with clientSessions := m.clientSessions.add protocol d }

def addPerUser (label : String) (protocol : Protocol) (d : Int) : Metrics :=
  if m.perClient then
    { m with clientSessionsPerUser := m.clientSessionsPerUser.add (label, protocol) d }
  else m

def registerConnection (id : String) (ip : Option IpAddr) : Metrics :=
  match m.clients.lookup id with
  | some _ => m
  | none => { m with clients := m.clients.insert id ⟨none, ip, 0⟩ }

def unregisterConnection (id : String) : Metrics := { m with clients := m.clients.erase id }

/-- What `ClientSessionsCounter::new` does under the lock. -/
def enter (id : String) (username : Option String) : Metrics :=
  let entry := (m.clients.lookup id).getD ⟨none, none, 0⟩
  let entry := match username with
    | some u => { entry with username := some u }
    | none => entry
  { m with
    clients := m.clients.insert id { entry with sessions := saturatingAdd entry.sessions 1 } }

/-- The last thing `transfer_session_username` does under the lock. -/
def rename (id : String) (username : Option String) : Metrics :=
  match m.clients.lookup id with
  | none => m
  | some entry => { m with clients := m.clients.insert id { entry with username } }

end Metrics

/-! ## Threads -/

inductive Call where
  | registerConnection (id : String) (ip : Option IpAddr)
  | unregisterConnection (id : String)
  | newCounter (protocol : Protocol) (id : String) (username : Option String)
  | transferSessionUsername (protocol : Protocol) (id : String) (username : Option String)
  | dropCounter (protocol : Protocol) (id : String)

/-- How far a call has got, update by update. -/
inductive Thread where
  | called (call : Call)
  | counted (protocol : Protocol) (id : String) (username : Option String)
  | labelled (protocol : Protocol) (id : String) (username : Option String)
  | relabelling (protocol : Protocol) (id : String) (username : Option String) (old : String)
  | relabelled (protocol : Protocol) (id : String) (username : Option String) (old : String)
  | uncounted (protocol : Protocol) (id : String)
  | removed (protocol : Protocol) (label : String)

/-- A counter is made, live until one drops it, or gone. -/
inductive Counter where
  | coming (protocol : Protocol) (thread : Nat)
  | live (protocol : Protocol) (label : String) (dropper : Option Nat)
  | gone (protocol : Protocol)

structure System where
  metrics : Metrics
  counters : Table String Counter
  threads : Table Nat Thread
  holder : Option Nat

def System.start (perClient : Bool) : System := ⟨.new perClient, ∅, ∅, none⟩

inductive Event where
  | call (thread : Nat) (call : Call)
  | advance (thread : Nat)

namespace System

variable (s : System) (thread : Nat)

/-- What a call makes of the counters; each connection has one, dropped once. `none` if there is
no such call. -/
def admits : Call → Option (Table String Counter)
  | .registerConnection _ _ | .unregisterConnection _ => some s.counters
  | .newCounter protocol id _ =>
    match s.counters.lookup id with
    | none => some (s.counters.insert id (.coming protocol thread))
    | some _ => none
  | .transferSessionUsername protocol id _ =>
    match s.counters.lookup id with
    | some (.live p _ _) | some (.gone p) => if p = protocol then some s.counters else none
    | _ => none
  | .dropCounter protocol id =>
    match s.counters.lookup id with
    | some (.live p label none) =>
      if p = protocol then some (s.counters.insert id (.live p label (some thread))) else none
    | _ => none

def goOn (x : Thread) : System := { s with threads := s.threads.insert thread x }

def finish : System :=
  { s with
    threads := s.threads.erase thread,
    holder := if s.holder = some thread then none else s.holder }

/-- One update of the call; `none` if it waits for the lock. -/
def advance : Thread → Option System
  | .called (.registerConnection id ip) =>
    if s.holder.isSome then none
    else some { s.finish thread with metrics := s.metrics.registerConnection id ip }
  | .called (.unregisterConnection id) =>
    if s.holder.isSome then none
    else some { s.finish thread with metrics := s.metrics.unregisterConnection id }
  | .called (.newCounter protocol id username) =>
    some { s.goOn thread (.counted protocol id username) with
      metrics := s.metrics.addSessions protocol 1 }
  | .counted protocol id username =>
    some { s.goOn thread (.labelled protocol id username) with
      metrics := s.metrics.addPerUser (label username) protocol 1 }
  | .labelled protocol id username =>
    if s.holder.isSome then none
    else some { s.finish thread with
      metrics := s.metrics.enter id username,
      counters := s.counters.insert id (.live protocol (label username) none) }
  | .called (.transferSessionUsername protocol id username) =>
    if s.holder.isSome then none
    else
      match s.metrics.clients.lookup id with
      | none => some (s.finish thread)
      | some entry =>
        if label entry.username = label username then some (s.finish thread)
        else some { s.goOn thread (.relabelling protocol id username (label entry.username)) with
          metrics := s.metrics.addPerUser (label entry.username) protocol (-1),
          holder := some thread }
  | .relabelling protocol id username old =>
    some { s.goOn thread (.relabelled protocol id username old) with
      metrics := s.metrics.addPerUser (label username) protocol 1 }
  | .relabelled _ id username _ =>
    some { s.finish thread with
      metrics := s.metrics.rename id username,
      counters :=
        match s.counters.lookup id with
        | some (.live p _ dropper) => s.counters.insert id (.live p (label username) dropper)
        | _ => s.counters }
  | .called (.dropCounter protocol id) =>
    some { s.goOn thread (.uncounted protocol id) with
      metrics := s.metrics.addSessions protocol (-1) }
  | .uncounted protocol id =>
    if s.holder.isSome then none
    else
      match s.metrics.clients.lookup id with
      | none => some { s.finish thread with counters := s.counters.insert id (.gone protocol) }
      | some entry =>
        some { s.goOn thread (.removed protocol (label entry.username)) with
          metrics := s.metrics.unregisterConnection id,
          counters := s.counters.insert id (.gone protocol),
          holder := some thread }
  | .removed protocol label =>
    some { s.finish thread with metrics := s.metrics.addPerUser label protocol (-1) }

end System

def step (s : System) : Event → Option System
  | .call thread call =>
    if thread ∈ s.threads then none
    else (s.admits thread call).map (fun counters =>
      { s with counters, threads := s.threads.insert thread (.called call) })
  | .advance thread => (s.threads.lookup thread).bind (s.advance thread)

end TrustTunnel.Sessions
