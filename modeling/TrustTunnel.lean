import TrustTunnel.AlternativeNames
import TrustTunnel.AssociationTables
import TrustTunnel.ConnectionLimit
import TrustTunnel.DatagramReplies
import TrustTunnel.DeepLinkOffsets
import TrustTunnel.DnsCompletion
import TrustTunnel.FixedLength
import TrustTunnel.GeneratedPrefix
import TrustTunnel.HeaderConversion
import TrustTunnel.HostField
import TrustTunnel.Http1Delivery
import TrustTunnel.Http3Upload
import TrustTunnel.Http3Waiting
import TrustTunnel.IcmpEchos
import TrustTunnel.IcmpWaiters
import TrustTunnel.LimiterThreads
import TrustTunnel.PemRoundTrip
import TrustTunnel.PipeTimeout
import TrustTunnel.PipeWakeups
import TrustTunnel.ProtocolChoice
import TrustTunnel.QuicDeadlines
import TrustTunnel.RequestLog
import TrustTunnel.ReverseProxyFixed
import TrustTunnel.ReverseProxyFraming
import TrustTunnel.SessionGauges
import TrustTunnel.Shutdown
import TrustTunnel.Socks5Handshake
import TrustTunnel.SourceCancellation
import TrustTunnel.SubscriptionUrl
import TrustTunnel.TlsListener
import TrustTunnel.UdpExpiry
import TrustTunnel.UdpPromptness
import TrustTunnel.UdpSendErrors
import TrustTunnel.UdpWork
