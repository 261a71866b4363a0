import TrustTunnel.TlsDemultiplexer

/-!
# The HTTP demultiplexer (`http_demultiplexer.rs`)

Which service a request is for, by its path alone.
-/

namespace TrustTunnel.HttpDemultiplexer

open Http TlsDemultiplexer

/-- `HttpDemux`: the settings it reads and the path of the subscription. -/
structure HttpDemux where
  pingEnable : Bool
  pingPath : Option String
  speedtestEnable : Bool
  speedtestPath : Option String
  reverseProxyPathMask : Option String
  subscriptionPath : Option String

namespace HttpDemux

variable (d : HttpDemux) (request : RequestHeaders)

def checkSubscription : Bool := d.subscriptionPath.any (fun path => request.uri.path = path)

def checkPing : Bool :=
  if d.pingEnable then d.pingPath.any (fun path => Text.startsWith path request.uri.path) else false

def checkSpeedtest : Bool :=
  if d.speedtestEnable then d.speedtestPath.any (fun path => Text.startsWith path request.uri.path)
  else false

def checkReverseProxyPath : Bool :=
  d.reverseProxyPathMask.any (fun mask => Text.startsWith mask request.uri.path)

def select : Channel :=
  if d.checkSubscription request then .subscription
  else if d.checkPing request then .ping
  else if d.checkSpeedtest request then .speedtest
  else if d.checkReverseProxyPath request then .reverseProxy
  else .tunnel

lemma select_eq_of_uri (h : request.uri = request'.uri) :
    d.select request = d.select request' := by
  unfold select checkSubscription checkPing checkSpeedtest checkReverseProxyPath
  rw [h]

end HttpDemux

end TrustTunnel.HttpDemultiplexer
