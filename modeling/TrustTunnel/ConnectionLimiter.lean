import TrustTunnel.Authentication

/-!
# The connection limiter (`connection_limiter.rs`)

Connections of each client in two classes: HTTP/1 with HTTP/2, and HTTP/3.
-/

namespace TrustTunnel

open Io Lib Authentication

inductive Protocol where
  | http1
  | http2
  | http3
  deriving DecidableEq

structure ClientEntry where
  maxHttp2 : Option UInt32
  maxHttp3 : Option UInt32
  http2Count : UInt32
  http3Count : UInt32
  deriving DecidableEq

structure ConnectionLimiter where
  clients : Table String ClientEntry
  defaultMaxHttp2 : Option UInt32
  defaultMaxHttp3 : Option UInt32

/-- A slot that is held; dropping it is `release`. -/
structure ConnectionGuard where
  creds : String
  protocol : Protocol

def ConnectionLimiter.new (encode : Bytes → String) (clients : List Client)
    (defaultMaxHttp2 defaultMaxHttp3 : Option UInt32) : ConnectionLimiter :=
  { clients := clients.foldl
      (fun m c => m.insert (c.key encode) ⟨c.maxHttp2Conns, c.maxHttp3Conns, 0, 0⟩) ∅
    defaultMaxHttp2, defaultMaxHttp3 }

def ClientEntry.count (e : ClientEntry) : Protocol → UInt32
  | .http1 | .http2 => e.http2Count
  | .http3 => e.http3Count

def ClientEntry.setCount (e : ClientEntry) (n : UInt32) : Protocol → ClientEntry
  | .http1 | .http2 => { e with http2Count := n }
  | .http3 => { e with http3Count := n }

def ConnectionLimiter.limit (l : ConnectionLimiter) (e : ClientEntry) : Protocol → Option UInt32
  | .http1 | .http2 => e.maxHttp2.or l.defaultMaxHttp2
  | .http3 => e.maxHttp3.or l.defaultMaxHttp3

def ConnectionLimiter.tryAcquire (l : ConnectionLimiter) (creds : String) (protocol : Protocol) :
    Option (ConnectionGuard × ConnectionLimiter) :=
  match l.clients.lookup creds with
  | none => none
  | some e =>
    if (l.limit e protocol).any (fun max => e.count protocol ≥ max) then none
    else some (⟨creds, protocol⟩,
      { l with clients := l.clients.insert creds (e.setCount (e.count protocol + 1) protocol) })

/-- `release`; the subtraction saturates. -/
def ConnectionLimiter.release (l : ConnectionLimiter) (g : ConnectionGuard) : ConnectionLimiter :=
  match l.clients.lookup g.creds with
  | none => l
  | some e =>
    let n := if e.count g.protocol = 0 then 0 else e.count g.protocol - 1
    { l with clients := l.clients.insert g.creds (e.setCount n g.protocol) }

end TrustTunnel
