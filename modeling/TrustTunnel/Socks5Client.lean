import TrustTunnel.NetUtils

/-!
# The SOCKS5 client (`socks5_client.rs`)

What the forwarder requests and how a handshake can end; the server's answer is an input.
-/

namespace TrustTunnel.Socks5Client

open Io NetUtils

inductive Error where
  | io (e : IoError)
  | protocol (text : String)
  | authentication (text : String)

inductive ReplyCode where
  | succeeded
  | generalFailure
  | notAllowed
  | networkUnreachable
  | hostUnreachable
  | connectionRefused
  | ttlExpired
  | commandNotSupported
  | addressTypeNotSupported
  deriving DecidableEq

/-- The derived `Debug` text. -/
def ReplyCode.debug : ReplyCode → String
  | .succeeded => "Succeeded"
  | .generalFailure => "GeneralFailure"
  | .notAllowed => "NotAllowed"
  | .networkUnreachable => "NetworkUnreachable"
  | .hostUnreachable => "HostUnreachable"
  | .connectionRefused => "ConnectionRefused"
  | .ttlExpired => "TtlExpired"
  | .commandNotSupported => "CommandNotSupported"
  | .addressTypeNotSupported => "AddressTypeNotSupported"

/-- How `connect` ends, after the connection to the server was made. -/
inductive ConnectResult where
  | connected
  | failure (code : ReplyCode)
  | error (e : Error)

/-- `socks_to_io_error`. -/
def Error.toIoError : Error → IoError
  | .io e => e
  | .protocol text => .other ("SOCKS protocol error: " ++ text)
  | .authentication text => .other ("Authentication error: " ++ text)

/-! ## A CONNECT request -/

inductive Address where
  | ipAddress (ip : IpAddr)
  | domainName (name : String)
  deriving DecidableEq

def maxDomainNameLength : Nat := 255

/-- How the authentication ends, and the handshake after the request. -/
structure Server where
  authentication : Except Error Unit
  reply : ConnectResult

/-- `connect_inner` with `Request::Connect`; names have at most 255 bytes. -/
def connectInner (server : Server) (destination : Address) (port : UInt16) :
    Option (Address × UInt16) × ConnectResult :=
  match server.authentication with
  | .error e => (none, .error e)
  | .ok () =>
    match destination with
    | .ipAddress ip => (some (.ipAddress ip, port), server.reply)
    | .domainName name =>
      if name.utf8ByteSize ≤ maxDomainNameLength then
        (some (.domainName name, port), server.reply)
      else (none, .error (.protocol "Too long domain name"))

end TrustTunnel.Socks5Client
