import Blackwire.Common.Context
import Blackwire.Config.Value

/-!
# The configuration

The records of `blackwire-config/src/schema` that the rest of the program is built from.  What is
read nowhere (`log`, `stats`) is left out; a `HashMap` is the list of its entries; an `f64` is kept
by its bits.

* `Config`: the whole, and `Config.validate`, which checks next to nothing: endpoints exist, ports
  are not zero, `shadowtls` is not a protocol.
-/

namespace Blackwire.Schema

open Json

/-! ### Transports -/

inductive Protocol
  | vless
  | vmess
  | trojan
  | shadowsocks
  | hysteria2
  | shadowTls
  | socks
  | http
  | freedom
  deriving DecidableEq

inductive NetworkType
  | tcp
  | ws
  | httpUpgrade
  | grpc
  | quic
  | kcp
  | splitHttp
  deriving DecidableEq

inductive SecurityType
  | none
  | tls
  | reality
  | shadowTls
  deriving DecidableEq

structure TlsConfig where
  serverName : String
  allowInsecure : Bool
  alpn : List String
  certificateFile : String
  keyFile : String
  deriving DecidableEq

structure RealityConfig where
  showFlag : Bool
  dest : String
  privateKey : String
  shortIds : List String
  publicKey : String
  shortId : String
  fingerprint : String
  serverName : String
  maxTimeDiff : UInt64
  deriving DecidableEq

structure WsConfig where
  path : String
  headers : List (String × String)
  deriving DecidableEq

structure SplitHttpConfig where
  path : String
  host : List String
  method : String
  mode : String
  uplinkHttpMethod : String
  headers : List (String × String)
  xPaddingBytes : Option Value
  xPaddingMethod : String
  xPaddingHeader : String
  xPaddingKey : String
  xPaddingPlacement : String
  sessionPlacement : String
  sessionKey : String
  seqPlacement : String
  seqKey : String
  uplinkDataPlacement : String
  uplinkDataKey : String
  uplinkChunkSize : UInt32
  scMaxBufferedPosts : ℕ
  xmux : Option Value
  downloadSettings : Option Value
  deriving DecidableEq

structure GrpcConfig where
  serviceName : String
  multiMode : Bool
  deriving DecidableEq

structure ShadowTlsConfig where
  password : String
  dest : String
  version : UInt8
  deriving DecidableEq

structure KcpConfig where
  header : String
  mtu : UInt16
  tti : UInt64
  uplinkCapacity : UInt32
  downlinkCapacity : UInt32
  congestion : Bool
  readBufferSize : UInt32
  writeBufferSize : UInt32
  deriving DecidableEq

structure StreamSettingsConfig where
  network : NetworkType := .tcp
  security : SecurityType := .none
  tlsSettings : Option TlsConfig := none
  realitySettings : Option RealityConfig := none
  wsSettings : Option WsConfig := none
  httpupgradeSettings : Option WsConfig := none
  splithttpSettings : Option SplitHttpConfig := none
  grpcSettings : Option GrpcConfig := none
  shadowTlsSettings : Option ShadowTlsConfig := none
  kcpSettings : Option KcpConfig := none
  deriving DecidableEq

/-! ### Endpoints -/

structure SniffingConfig where
  enabled : Bool
  destOverride : List String
  metadataOnly : Bool
  routeOnly : Bool
  deriving DecidableEq

structure InboundLimitsConfig where
  maxConnections : Option ℕ
  maxHandshakeSeconds : Option UInt64
  maxIdleSeconds : Option UInt64
  deriving DecidableEq

structure InboundConfig where
  tag : String
  protocol : Protocol
  listen : IpAddr
  port : UInt16
  settings : Value := .null
  streamSettings : Option StreamSettingsConfig := none
  limits : Option InboundLimitsConfig := none
  sniffing : Option SniffingConfig := none
  deriving DecidableEq

structure OutboundConfig where
  tag : String
  protocol : Protocol
  settings : Value := .null
  streamSettings : Option StreamSettingsConfig := none
  deriving DecidableEq

/-! ### Routing -/

structure RoutingRule where
  domain : List String := []
  ip : List String := []
  port : Option String := none
  inboundTag : List String := []
  protocol : List String := []
  outboundTag : String

structure BalancerProfileConfig where
  name : String
  outboundTag : String

structure AdaptiveBalancerConfig where
  failureThreshold : UInt32
  cooldownSecs : UInt64
  ewmaAlpha : UInt64
  switchMargin : UInt64

structure HealthCheckConfig where
  url : String
  intervalSecs : UInt64
  timeoutSecs : UInt64
  maxFailures : UInt32

structure BalancerConfig where
  tag : String
  selector : List String := []
  strategy : String := "latency"
  profiles : List BalancerProfileConfig := []
  adaptive : Option AdaptiveBalancerConfig := none
  healthCheck : Option HealthCheckConfig := none

structure RoutingConfig where
  domainStrategy : Option String := none
  geoipFile : Option String := none
  geositeFile : Option String := none
  rules : List RoutingRule := []
  balancers : List BalancerConfig := []

/-! ### The whole -/

structure FakeIpConfig where
  enabled : Bool
  pool : String

structure DnsConfig where
  servers : List String
  fakeIp : Option FakeIpConfig

inductive ProfileMode
  | compat
  | fast
  deriving DecidableEq

inductive FastPoolPolicy
  | adaptive
  | disabled
  | fixed

inductive FastSplicePolicy
  | adaptive
  | disabled
  | always

structure FastConfig where
  strictProduction : Bool := true
  pool : FastPoolPolicy := .disabled
  splice : FastSplicePolicy := .adaptive

structure LimitsConfig where
  maxConnections : Option ℕ := none
  maxConnectionsPerInbound : Option ℕ := none
  maxHandshakeSeconds : Option UInt64 := none
  maxIdleSeconds : Option UInt64 := none

structure TunConfig where
  name : String
  address : String
  netmask : String
  mtu : UInt16
  bypassMark : UInt32
  outboundInterface : Option String
  redirectPort : UInt16
  dnsPort : UInt16
  wintunFile : Option String
  deriving DecidableEq

structure Config where
  profile : ProfileMode := .compat
  fast : Option FastConfig := none
  dns : Option DnsConfig := none
  routing : Option RoutingConfig := none
  tun : Option TunConfig := none
  limits : LimitsConfig := {}
  inbounds : List InboundConfig
  outbounds : List OutboundConfig
  api : Option Value := none
  metricsAddr : Option String := none

/-! ### Validation -/

def InboundConfig.validate (cfg : InboundConfig) : Bool := cfg.protocol ≠ .shadowTls ∧ cfg.port ≠ 0

def portInRange : Value → Bool
  | .number n => 0 < n ∧ n ≤ 65535
  | _ => true

def OutboundConfig.validate (cfg : OutboundConfig) : Bool :=
  cfg.protocol ≠ .shadowTls ∧ (cfg.settings.get "port").all portInRange

def Config.validate (cfg : Config) : Bool :=
  (cfg.inbounds ≠ [] ∧ cfg.inbounds.all InboundConfig.validate) ∧
    (cfg.outbounds ≠ [] ∧ cfg.outbounds.all OutboundConfig.validate)

end Blackwire.Schema
