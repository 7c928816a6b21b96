import Blackwire.Common.BoxedStream
import Blackwire.Common.BufferPool
import Blackwire.Common.VisionUnpadding
import Blackwire.Vless.MuxLocks
import Blackwire.Reality.Bounds
import Blackwire.Reality.Tls13Session
import Blackwire.Reality.Server
import Blackwire.Vmess.StreamRoundTrip
import Blackwire.Vmess.Handshake
import Blackwire.Trojan.Udp
import Blackwire.Vless.Udp
import Blackwire.Ss2022.Handshake
import Blackwire.Mkcp.Limits
import Blackwire.Mkcp.Timers
import Blackwire.App.FakeIp
import Blackwire.App.Sniff
import Blackwire.App.Dispatch
import Blackwire.Transport.PacketUp
import Blackwire.Transport.SplitHttpStream
import Blackwire.Transport.TunRuntime
import Blackwire.Transport.TcpServer
import Blackwire.Transport.WebSocket
import Blackwire.Transport.GrpcTunnel
import Blackwire.ShadowTls.Session
import Blackwire.ShadowTls.Relay
import Blackwire.Transport.HttpUpgrade
import Blackwire.Hysteria2.Udp
import Blackwire.Hysteria2.Replies
import Blackwire.Core.Layers
import Blackwire.Cli.Revocation
import Blackwire.Cli.Interleaving
import Blackwire.Panel.Sync
