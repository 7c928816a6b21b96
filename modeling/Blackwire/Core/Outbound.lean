import Blackwire.App.Routing
import Blackwire.Config.Schema
import Blackwire.Lib.Acquire
import Blackwire.Reality.Auth

/-!
# The outbounds of an instance

The outbound half of `Instance::from_config`: the builders of `instance/helpers.rs`, `trojan.rs`,
`vmess.rs`, `ss2022.rs`, `hysteria2.rs` and `reality.rs`, and `connect_transport` of
`outbound_transport.rs`, which puts the layers on a connection.
-/

namespace Blackwire.Core

open Schema Json Routing Failure

/-- What construction asks of the standard library, of other crates and of the file system. -/
structure Env where
  parseSocketAddr : String → Except String SocketAddr
  parseIpv4 : String → Except String (Octets 4)
  parseUuid : String → Except String (Octets 16)
  hexDecode : String → Except String Bytes
  readToString : String → Except String String
  tlsBuildServerConfig : String → String → List String → Except String Unit

/-! ### Transport settings -/

inductive HeaderType
  | none
  | srtp
  | utp
  | wechatVideo
  | dtls
  | wireguard

def HeaderType.fromStr (s : String) : Except String HeaderType :=
  if s = "none" then .ok .none
  else if s = "srtp" then .ok .srtp
  else if s = "utp" then .ok .utp
  else if s = "wechat-video" then .ok .wechatVideo
  else if s = "dtls" then .ok .dtls
  else if s = "wireguard" then .ok .wireguard
  else .error ("unknown header type: " ++ s)

/-- The fields that `MkcpClientConfig` and `MkcpServerConfig` share; the conversation of a client is
drawn for each connection. -/
structure MkcpConfig where
  endpoint : SocketAddr
  header : HeaderType
  intervalMs : UInt64
  rcvWnd : UInt16
  sndWnd : UInt16
  nodelay : Bool

def buildMkcpConfig (endpoint : SocketAddr) (streamSettings : Option StreamSettingsConfig) :
    Except String MkcpConfig := do
  let settings := streamSettings.bind fun s => s.kcpSettings
  let header ← settings.elim (.ok .none) fun k => HeaderType.fromStr k.header
  return {
    endpoint, header
    intervalMs := (settings.map fun k => k.tti).getD 50
    rcvWnd := (settings.map fun k => k.readBufferSize.toUInt16).getD 128
    sndWnd := (settings.map fun k => k.writeBufferSize.toUInt16).getD 128
    nodelay := true }

def checkShadowTls (shadow : ShadowTlsConfig) (version nonEmpty : String) : Except String Unit :=
  if shadow.version ≠ 3 then .error (version ++ toString shadow.version.toNat)
  else if shadow.password = "" ∨ shadow.dest = "" then .error nonEmpty
  else .ok ()

def rejectShadowTls (entry : String) (settings : StreamSettingsConfig) : Except Failure Unit :=
  if settings.security = .shadowTls then
    okOr settings.shadowTlsSettings
        (entry ++ " requests security=shadowtls but has no shadowTlsSettings") >>= fun shadow =>
      lift (checkShadowTls shadow (entry ++ " requests unsupported ShadowTLS version ")
        (entry ++ " ShadowTLS requires non-empty password and dest"))
  else .ok ()

def rejectKcp (entry : String) (settings : StreamSettingsConfig) : Except Failure Unit :=
  if settings.network = .kcp then
    settings.kcpSettings.elim (.ok ()) fun kcp =>
      lift (((HeaderType.fromStr kcp.header).map fun _ => ()).mapError
        fun e => entry ++ " has invalid mKCP header: " ++ e)
  else .ok ()

def rejectUnfinishedTransportSettings (side tag : String)
    (streamSettings : Option StreamSettingsConfig) : Except Failure Unit :=
  streamSettings.elim (.ok ()) fun settings => do
    let entry := side ++ " '" ++ tag ++ "'"
    rejectShadowTls entry settings
    rejectKcp entry settings

section Uses

variable (streamSettings : Option StreamSettingsConfig)

/-- A connection over this network is asked for: `uses_quic`, `uses_kcp`, `uses_ws` and so on. -/
def usesNetwork (network : NetworkType) : Bool := streamSettings.any fun s => s.network = network

def usesSecurity (security : SecurityType) : Bool :=
  streamSettings.any fun s => s.security = security

def usesOutboundTransport : Bool :=
  usesSecurity streamSettings .tls || usesSecurity streamSettings .shadowTls ||
    usesNetwork streamSettings .quic || usesNetwork streamSettings .kcp ||
    usesNetwork streamSettings .httpUpgrade || usesNetwork streamSettings .splitHttp ||
    usesNetwork streamSettings .ws || usesNetwork streamSettings .grpc

end Uses

/-! ### Layers -/

inductive LayerKind
  | tcp
  | udp
  | quic
  | mkcp
  | hysteria2
  | tls
  | shadowTls
  | reality
  | ws
  | httpUpgrade
  | splitHttp
  | grpc
  deriving DecidableEq

structure RealityDial where
  server : SocketAddr
  client : Reality.RealityClientConfig
  fingerprint : String

structure Hysteria2ClientConfig where
  server : SocketAddr
  serverName : Option String
  password : String
  upMbps : ℕ
  downMbps : ℕ
  skipCertVerify : Bool

inductive ClientLayer
  | tcp (server : Option SocketAddr)
  | quic (server : SocketAddr) (serverName : String) (allowInsecure : Bool)
  | mkcp (config : MkcpConfig)
  | hysteria2 (config : Hysteria2ClientConfig)
  | tls (serverName : String) (alpn : List String) (allowInsecure : Bool)
  | shadowTls (password dest : String)
  | reality (dial : RealityDial)
  | ws (path host : String) (headers : List (String × String))
  | httpUpgrade (host : String) (settings : StreamSettingsConfig)
  | splitHttp (authority : String) (settings : StreamSettingsConfig)
  | grpc (authority serviceName : String)

def ClientLayer.kind : ClientLayer → LayerKind
  | .tcp _ => .tcp
  | .quic _ _ _ => .quic
  | .mkcp _ => .mkcp
  | .hysteria2 _ => .hysteria2
  | .tls _ _ _ => .tls
  | .shadowTls _ _ => .shadowTls
  | .reality _ => .reality
  | .ws _ _ _ => .ws
  | .httpUpgrade _ _ => .httpUpgrade
  | .splitHttp _ _ => .splitHttp
  | .grpc _ _ => .grpc

variable (settings : StreamSettingsConfig)

def serverName? : Option String :=
  (settings.tlsSettings.map fun t => t.serverName).filter fun s => s ≠ ""

def serverNameOf : String :=
  (serverName? settings).getD "localhost"

/-- The layer of `ws_connect`, for the headers of the settings: a header `Host` becomes the host,
the others are sorted. -/
def wsLayer : ClientLayer :=
  let entries := settings.wsSettings.elim [] fun ws => ws.headers
  let isHost (entry : String × String) : Bool := entry.1.toLower = "host"
  let host := ((entries.filter isHost).getLast?.map fun entry => entry.2).or (serverName? settings)
  .ws ((settings.wsSettings.map fun ws => ws.path).getD "/") (host.getD "localhost")
    ((entries.filter fun entry => !isHost entry).mergeSort fun a b => a.1 ≤ b.1)

def securityLayers : Except ProxyError (List ClientLayer) :=
  match settings.security with
  | .shadowTls =>
    settings.shadowTlsSettings.elim
      (.error (.protocol "security=shadowtls but no shadowTlsSettings provided")) fun shadow =>
        ((checkShadowTls shadow "unsupported ShadowTLS version "
          "ShadowTLS requires non-empty password and dest").mapError .protocol).map
            fun _ => [.shadowTls shadow.password shadow.dest]
  | .tls =>
    let tls := settings.tlsSettings
    .ok [.tls (serverNameOf settings) (tls.elim [] fun t => t.alpn)
      (tls.any fun t => t.allowInsecure)]
  | .none | .reality => .ok []

def networkLayers : List ClientLayer :=
  match settings.network with
  | .grpc =>
    [.grpc (serverNameOf settings)
      ((settings.grpcSettings.map fun g => g.serviceName).getD "GunService")]
  | .splitHttp => [.splitHttp (serverNameOf settings) settings]
  | .ws => [wsLayer settings]
  | .tcp | .httpUpgrade | .quic | .kcp => []

/-- `connect_transport`.  QUIC, mKCP and HTTPUpgrade return before the security layer. -/
def connectTransport (server : SocketAddr) (streamSettings : Option StreamSettingsConfig) :
    Except ProxyError (List ClientLayer) :=
  match streamSettings with
  | none => .ok [.tcp server]
  | some settings =>
    match settings.network with
    | .quic =>
      .ok [.quic server (serverNameOf settings) (settings.tlsSettings.any fun t => t.allowInsecure)]
    | .kcp =>
      ((buildMkcpConfig server streamSettings).mapError .protocol).map fun cfg => [.mkcp cfg]
    | .httpUpgrade => .ok [.tcp server, .httpUpgrade (serverNameOf settings) settings]
    | .tcp | .ws | .grpc | .splitHttp =>
      (securityLayers settings).map fun security =>
        .tcp server :: (security ++ networkLayers settings)

/-! ### Handlers -/

structure DnsModuleConfig where
  servers : List String
  fakeIpEnabled : Bool
  fakeIpRange : String
  deriving DecidableEq

structure PoolConfig where
  maxPerDest : ℕ
  maxGlobalIdle : ℕ
  maxDests : ℕ
  idleTtlMs : ℕ
  hotnessWindowMs : ℕ
  minHotnessForPool : ℕ

/-- The outbound handlers that `from_config` builds from an entry of `outbounds`. -/
inductive OutboundHandler
  | freedom (tag : String) (dns : Option DnsModuleConfig) (pool : Option PoolConfig)
  | vless (tag : String) (server : SocketAddr) (uuid : Octets 16) (flow : String)
  | realityVless (tag : String) (dial : RealityDial) (uuid : Octets 16) (flow : String)
  | transportVless (tag : String) (server : SocketAddr) (uuid : Octets 16) (flow : String)
      (streamSettings : Option StreamSettingsConfig)
  | trojan (tag : String) (server : SocketAddr) (password : String)
  | transportTrojan (tag : String) (server : SocketAddr) (password : String)
      (streamSettings : Option StreamSettingsConfig)
  | vmess (tag : String) (server : SocketAddr) (uuid : Octets 16)
  | transportVmess (tag : String) (server : SocketAddr) (uuid : Octets 16)
      (streamSettings : Option StreamSettingsConfig)
  | ss2022 (tag : String) (server : SocketAddr) (password : String)
  | hysteria2 (tag : String) (config : Hysteria2ClientConfig)

/-- The layers that `connect` puts on a connection before it writes the header of its protocol.
Freedom dials the destination itself. -/
def OutboundHandler.connect : OutboundHandler → Except ProxyError (List ClientLayer)
  | .freedom _ _ _ => .ok [.tcp none]
  | .vless _ server _ _ => .ok [.tcp server]
  | .realityVless _ dial _ _ => .ok [.tcp dial.server, .reality dial]
  | .transportVless _ server _ _ streamSettings => connectTransport server streamSettings
  | .trojan _ server _ => .ok [.tcp server]
  | .transportTrojan _ server _ streamSettings => connectTransport server streamSettings
  | .vmess _ server _ => .ok [.tcp server]
  | .transportVmess _ server _ streamSettings => connectTransport server streamSettings
  | .ss2022 _ server _ => .ok [.tcp server]
  | .hysteria2 _ config => .ok [.hysteria2 config]

/-! ### Pools of the freedom outbound -/

section Pool

variable [Text] (config : Config)

namespace PoolConfig

def fastProfile : PoolConfig := ⟨8, 256, 512, 8000, 12000, 8⟩

def fixed (maxPerDest : ℕ) : PoolConfig :=
  { fastProfile with
    maxPerDest
    maxGlobalIdle := max (min (maxPerDest * 64) (2 ^ 64 - 1)) maxPerDest
    minHotnessForPool := 1 }

end PoolConfig

def asPoolMode (value : Option Value) : Option String :=
  (value.bind Value.asStr).map fun s => (Text.trim s).toLower

def poolNumber (source : Value) (key snakeKey : String) : Option ℕ :=
  (((source.get key).or (source.get snakeKey)).bind Value.asU64).map (max 1)

def applyPoolOverrides (cfg : PoolConfig) (source : Value) : PoolConfig where
  maxPerDest := (poolNumber source "maxPerDest" "max_per_dest").getD cfg.maxPerDest
  maxGlobalIdle := (poolNumber source "maxGlobalIdle" "max_global_idle").getD cfg.maxGlobalIdle
  maxDests := (poolNumber source "maxDests" "max_dests").getD cfg.maxDests
  idleTtlMs := (poolNumber source "idleTtlMs" "idle_ttl_ms").getD cfg.idleTtlMs
  hotnessWindowMs :=
    (poolNumber source "hotnessWindowMs" "hotness_window_ms").getD cfg.hotnessWindowMs
  minHotnessForPool :=
    (poolNumber source "minHotnessForPool" "min_hotness_for_pool").getD cfg.minHotnessForPool

def poolConfigFromMode (mode : String) : Option PoolConfig :=
  if mode = "adaptive" then some .fastProfile
  else if mode = "fixed" then some (.fixed 8)
  else none

def profilePool : Option PoolConfig :=
  if config.profile = .fast then
    match (config.fast.getD {}).pool with
    | .adaptive => some .fastProfile
    | .disabled => none
    | .fixed => some (.fixed 8)
  else none

def poolFromSize (settings : Value) : Option PoolConfig :=
  let fallback := if (settings.get "poolEnabled").bind Value.asBool = some false then none
    else profilePool config
  match settings.get "poolSize" with
  | some .null => none
  | some (.string policy) => poolConfigFromMode policy.toLower
  | some value => value.asU64.elim fallback fun size => some (.fixed (max 1 size))
  | none => fallback

def freedomPoolConfig (settings : Value) : Option PoolConfig :=
  match settings.get "pool" with
  | some .null => none
  | some (.string mode) => poolConfigFromMode (Text.trim mode).toLower
  | some (.object fields) =>
    let pool := Value.object fields
    (poolConfigFromMode ((asPoolMode (pool.get "mode")).getD "adaptive")).map
      fun base => applyPoolOverrides base pool
  | _ => poolFromSize config settings

end Pool

/-! ### Builders -/

section Builders

variable (env : Env) (value field : String) (cfg : OutboundConfig)

def parseUuid (s : String) : Except Failure (Octets 16) :=
  withContext (lift (env.parseUuid s)) ("invalid UUID '" ++ s ++ "'")

def requireNonEmpty : Except Failure String :=
  if value = "" then bail (field ++ " must not be empty") else .ok value

def parseHex32 : Except Failure (Octets 32) := do
  let value ← requireNonEmpty value field
  let bytes ← withContext (lift (env.hexDecode value)) (field ++ " must be hex")
  if h : bytes.length = 32 then .ok ⟨bytes, h⟩
  else bail (field ++ " must be 32 bytes, got " ++ toString bytes.length)

def parseShortId : Except Failure Bytes := do
  let value ← requireNonEmpty value field
  let bytes ← withContext (lift (env.hexDecode value)) (field ++ " must be hex")
  if bytes.length > 8 then bail (field ++ " must be at most 8 bytes") else .ok bytes

def parseServer (settings : Value) (what subject : String) : Except Failure SocketAddr := do
  let address ← okOr (settings.field "address").asStr (subject ++ " missing 'address'")
  let port ← okOr (settings.field "port").asU64 (subject ++ " missing 'port'")
  let server := address ++ ":" ++ toString port
  withContext (lift (env.parseSocketAddr server))
    ("invalid " ++ what ++ " server address '" ++ server ++ "'")

def buildRealityClient (server : SocketAddr) : Except Failure RealityDial := do
  let reality ← okOr (cfg.streamSettings.bind fun s => s.realitySettings)
    "REALITY outbound missing streamSettings.realitySettings"
  let serverPublicKey ← parseHex32 env reality.publicKey "publicKey"
  let shortId ← parseShortId env reality.shortId "shortId"
  let sni ← requireNonEmpty reality.serverName "serverName"
  return ⟨server, ⟨serverPublicKey, shortId, sni⟩, reality.fingerprint⟩

def buildVlessOutbound : Except Failure OutboundHandler := do
  let server ← parseServer env cfg.settings "VLESS" "VLESS outbound"
  let user := ((cfg.settings.field "users").item 0)
  let id ← okOr (user.field "id").asStr "VLESS outbound missing users[0].id"
  let uuid ← parseUuid env id
  let flow := (user.field "flow").asStr.getD ""
  if usesSecurity cfg.streamSettings .reality then
    let dial ← buildRealityClient env cfg server
    return .realityVless cfg.tag dial uuid flow
  else if usesOutboundTransport cfg.streamSettings then
    return .transportVless cfg.tag server uuid flow cfg.streamSettings
  else
    return .vless cfg.tag server uuid flow

def buildTrojanOutbound : Except Failure OutboundHandler := do
  let subject := "Trojan outbound '" ++ cfg.tag ++ "'"
  let server ← parseServer env cfg.settings "Trojan" subject
  let password ← okOr (cfg.settings.field "password").asStr (subject ++ " missing 'password'")
  if usesOutboundTransport cfg.streamSettings then
    return .transportTrojan cfg.tag server password cfg.streamSettings
  else
    return .trojan cfg.tag server password

def buildVmessOutbound : Except Failure OutboundHandler := do
  let subject := "VMess outbound '" ++ cfg.tag ++ "'"
  let server ← parseServer env cfg.settings "VMess" subject
  let id ← okOr (((cfg.settings.field "users").item 0).field "id").asStr
    (subject ++ " missing users[0].id")
  let uuid ← parseUuid env id
  if usesOutboundTransport cfg.streamSettings then
    return .transportVmess cfg.tag server uuid cfg.streamSettings
  else
    return .vmess cfg.tag server uuid

def buildSs2022Outbound : Except Failure OutboundHandler := do
  let subject := "SS-2022 outbound '" ++ cfg.tag ++ "'"
  let server ← parseServer env cfg.settings "SS-2022" subject
  let password ← okOr (cfg.settings.field "password").asStr (subject ++ " missing 'password'")
  return .ss2022 cfg.tag server password

def buildHysteria2Outbound : Except Failure OutboundHandler := do
  let text ← okOr (cfg.settings.field "server").asStr
    ("Hysteria2 outbound '" ++ cfg.tag ++ "' missing 'server'")
  let server ← withContext (lift (env.parseSocketAddr text))
    ("invalid Hysteria2 server address '" ++ text ++ "'")
  return .hysteria2 cfg.tag {
    server
    serverName := (cfg.settings.field "serverName").asStr
    password := (cfg.settings.field "auth").asStr.getD ""
    upMbps := (cfg.settings.field "upMbps").asU64.getD 100
    downMbps := (cfg.settings.field "downMbps").asU64.getD 100
    skipCertVerify := (cfg.settings.field "skipCertVerify").asBool.getD false }

def debugName : Protocol → String
  | .vless => "Vless"
  | .vmess => "Vmess"
  | .trojan => "Trojan"
  | .shadowsocks => "Shadowsocks"
  | .hysteria2 => "Hysteria2"
  | .shadowTls => "ShadowTls"
  | .socks => "Socks"
  | .http => "Http"
  | .freedom => "Freedom"

def buildOutbound [Text] (dns : Option DnsModuleConfig) (config : Config) (cfg : OutboundConfig) :
    Except Failure OutboundHandler := do
  rejectUnfinishedTransportSettings "outbound" cfg.tag cfg.streamSettings
  let building (what : String) := "building " ++ what ++ " outbound '" ++ cfg.tag ++ "'"
  match cfg.protocol with
  | .freedom => return .freedom cfg.tag dns (freedomPoolConfig config cfg.settings)
  | .vless => withContext (buildVlessOutbound env cfg) (building "VLESS")
  | .hysteria2 => withContext (buildHysteria2Outbound env cfg) (building "Hysteria2")
  | .trojan => withContext (buildTrojanOutbound env cfg) (building "Trojan")
  | .vmess => withContext (buildVmessOutbound env cfg) (building "VMess")
  | .shadowsocks => withContext (buildSs2022Outbound env cfg) (building "SS-2022")
  | .shadowTls | .socks | .http =>
    bail ("outbound protocol " ++ debugName cfg.protocol ++ " not yet implemented")

end Builders

end Blackwire.Core
