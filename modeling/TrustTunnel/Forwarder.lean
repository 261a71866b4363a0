import TrustTunnel.NetUtils

/-!
# Datagrams on both sides of a pipe (`downstream.rs`, `forwarder.rs`)

The source's field `meta` is `flow` here.
-/

namespace TrustTunnel

open Io NetUtils

namespace Downstream

/-- `downstream::UdpDatagramMeta`, as the client wrote it. -/
structure UdpDatagramMeta where
  source : SocketAddr
  destination : SocketAddr
  appName : Option String
  deriving DecidableEq

structure UdpDatagram where
  flow : UdpDatagramMeta
  payload : Bytes
  deriving DecidableEq

end Downstream

namespace Forwarder

/-- `forwarder::UdpDatagramMeta`, the key of every flow table: `source` is the client. -/
structure UdpDatagramMeta where
  source : SocketAddr
  destination : SocketAddr
  deriving DecidableEq

structure UdpDatagram where
  flow : UdpDatagramMeta
  payload : Bytes
  deriving DecidableEq

def UdpDatagramMeta.reversed (m : UdpDatagramMeta) : UdpDatagramMeta :=
  ⟨m.destination, m.source⟩

/-- `UdpDatagramMeta::from`: the application name is dropped. -/
def UdpDatagramMeta.ofDownstream (m : Downstream.UdpDatagramMeta) : UdpDatagramMeta :=
  ⟨m.source, m.destination⟩

@[simp] lemma UdpDatagramMeta.reversed_reversed (m : UdpDatagramMeta) :
    m.reversed.reversed = m := rfl

structure Settings where
  allowPrivateNetworkConnections : Bool
  ipv6Available : Bool

def Settings.guarded (ipv6Available : Bool) : Settings := ⟨false, ipv6Available⟩

def Settings.refuses (settings : Settings) (ip : IpAddr) : Bool :=
  !settings.allowPrivateNetworkConnections && !isGlobalIp ip

/-- An `mpsc` channel of capacity one for wake-ups. -/
inductive Channel where
  | empty
  | full
  | closed

/-- `try_send(())`, where a full channel counts as sent. -/
def Channel.trySend : Channel → Option Channel
  | .closed => none
  | _ => some .full

end Forwarder

def Downstream.UdpDatagram.key (d : Downstream.UdpDatagram) : Forwarder.UdpDatagramMeta :=
  .ofDownstream d.flow

@[simp] lemma Downstream.UdpDatagram.key_source (d : Downstream.UdpDatagram) :
    d.key.source = d.flow.source := rfl

@[simp] lemma Downstream.UdpDatagram.key_destination (d : Downstream.UdpDatagram) :
    d.key.destination = d.flow.destination := rfl

end TrustTunnel
