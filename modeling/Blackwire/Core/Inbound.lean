import Blackwire.Core.Outbound
import Blackwire.Vless.Inbound

/-!
# The inbounds of an instance

The inbound half of `Instance::from_config`: the handlers of the protocols, the user registries of
VLESS, the layers that `build_conn_handler` wraps a handler with, and the listeners that are
started.
-/

namespace Blackwire.Core

open Schema Json Routing Failure Vless Acquire

/-- What the operating system answers to the calls that `from_config` makes while it starts: the
TUN device, the resolver, the sockets of the inbound at a place of the list, the metrics and the
interface for outbound connections. -/
structure Host where
  tunSupported : Except String Unit
  createTun : TunConfig → Except String Unit
  dnsNew : DnsModuleConfig → Except String Unit
  shards : ℕ
  bindUdp : ℕ → SocketAddr → Except String Unit
  bindQuic : ℕ → SocketAddr → Except String Unit
  bindTcp : ℕ → ℕ → SocketAddr → Except String Unit
  startMetrics : SocketAddr → Except String Unit
  setOutboundInterface : String → Except String Unit

/-! ### User registries -/

section Registries

variable (env : Env)

def parseClient (client : Value) : Except Failure VlessUser := do
  let id ← okOr (client.field "id").asStr "VLESS client missing 'id'"
  let uuid ← parseUuid env id
  return ⟨(client.field "email").asStr.getD "", uuid, (client.field "flow").asStr.getD ""⟩

/-- The loop of `populate_vless_registry`: the registry when the loop ends, and how it ends. -/
def addClients : List Value → VlessUserRegistry → VlessUserRegistry × Except Failure Unit
  | [], registry => (registry, .ok ())
  | client :: clients, registry =>
    match parseClient env client with
    | .error e => (registry, .error e)
    | .ok user => addClients clients (registry.addUser user)

/-- `populate_vless_registry`.  The registry is cleared first, also when the settings turn out to be
wrong. -/
def populateVlessRegistry (cfg : InboundConfig) : VlessUserRegistry × Except Failure Unit :=
  (cfg.settings.field "clients").asArray.elim
    (⟨[]⟩, bail ("VLESS inbound '" ++ cfg.tag ++ "' missing 'clients' array")) fun clients =>
      if clients = [] then
        (⟨[]⟩, bail ("VLESS inbound '" ++ cfg.tag ++ "' has no configured clients"))
      else addClients env clients ⟨[]⟩

abbrev Registries := String → Option VlessUserRegistry

def Registries.set (registries : Registries) (tag : String) (registry : VlessUserRegistry) :
    Registries :=
  fun t => if t = tag then some registry else registries t

end Registries

/-! ### Handlers -/

inductive InboundHandler
  | socks (tag : String)
  | vless (tag : String) (fallback : Option SocketAddr) (handshakeTimeout : Option UInt64)
  | trojan (tag : String) (passwords : List String)
  | vmess (tag : String) (users : List (Octets 16 × String))
  | http (tag : String) (handshakeTimeout : Option UInt64)
  | ss2022 (tag password : String)

section Builders

variable (env : Env) (cfg : InboundConfig)

def clientsOf (what : String) : Except Failure (List Value) :=
  okOr (cfg.settings.field "clients").asArray
    (what ++ " inbound '" ++ cfg.tag ++ "' missing 'clients' array")

def buildTrojanInbound : Except Failure InboundHandler := do
  let clients ← clientsOf cfg "Trojan"
  let passwords ← clients.zipIdx.mapM fun (client, i) =>
    okOr (client.field "password").asStr
      ("Trojan client #" ++ toString i ++ " in '" ++ cfg.tag ++ "' missing 'password'")
  bailIf (passwords = []) ("Trojan inbound '" ++ cfg.tag ++ "' has no configured clients")
  return .trojan cfg.tag passwords

def buildVmessInbound : Except Failure InboundHandler := do
  let clients ← clientsOf cfg "VMess"
  bailIf (clients = []) ("VMess inbound '" ++ cfg.tag ++ "' has no configured clients")
  let users ← clients.zipIdx.mapM fun (client, i) => do
    let id ← okOr (client.field "id").asStr ("VMess client #" ++ toString i ++ " missing 'id'")
    let uuid ← withContext (parseUuid env id) ("invalid UUID in VMess client #" ++ toString i)
    return (uuid, (client.field "email").asStr.getD "")
  return .vmess cfg.tag users

def buildSs2022Inbound : Except Failure InboundHandler := do
  let password ← okOr (cfg.settings.field "password").asStr
    ("SS-2022 inbound '" ++ cfg.tag ++ "' missing 'password'")
  return .ss2022 cfg.tag password

def vlessInbound (handshakeTimeout : Option UInt64) : InboundHandler :=
  let dest := ((cfg.settings.field "fallback").field "dest").asStr
  .vless cfg.tag (dest.bind fun s => (env.parseSocketAddr s).toOption) handshakeTimeout

def handshakeTimeoutFor (limits : LimitsConfig) : Option UInt64 :=
  (cfg.limits.bind fun l => l.maxHandshakeSeconds).or limits.maxHandshakeSeconds

def maxConnectionsFor (limits : LimitsConfig) : Option ℕ :=
  ((cfg.limits.bind fun l => l.maxConnections).or limits.maxConnectionsPerInbound).or
    limits.maxConnections

/-- `build_vless_inbound`: the handler, and the registries with the one that it fills. -/
def buildVlessInbound (registries : Registries) (cfg : InboundConfig)
    (handshakeTimeout : Option UInt64) : Except Failure (InboundHandler × Registries) := do
  let (registry, result) := populateVlessRegistry env cfg
  result
  return (vlessInbound env cfg handshakeTimeout, registries.set cfg.tag registry)

def buildInbound (config : Config) (registries : Registries) (cfg : InboundConfig) :
    Except Failure (InboundHandler × Registries) :=
  let building (what : String) := "building " ++ what ++ " inbound '" ++ cfg.tag ++ "'"
  let timeout := handshakeTimeoutFor cfg config.limits
  let keep (handler : Except Failure InboundHandler) := handler.map fun h => (h, registries)
  match cfg.protocol with
  | .socks => .ok (.socks cfg.tag, registries)
  | .vless => withContext (buildVlessInbound env registries cfg timeout) (building "VLESS")
  | .trojan => keep (withContext (buildTrojanInbound cfg) (building "Trojan"))
  | .vmess => keep (withContext (buildVmessInbound env cfg) (building "VMess"))
  | .http => .ok (.http cfg.tag timeout, registries)
  | .shadowsocks => keep (withContext (buildSs2022Inbound cfg) (building "SS-2022"))
  | .hysteria2 | .shadowTls | .freedom =>
    bail ("inbound protocol " ++ debugName cfg.protocol ++ " not yet implemented")

end Builders

/-! ### Layers -/

inductive SplitHttpMode
  | streamOne
  | packetUp
  | other

structure RealityListen where
  server : Reality.RealityServerConfig
  fallback : SocketAddr
  coverSni : String

inductive ServerLayer
  | tls (certPem keyPem : String) (alpn : List String)
  | shadowTls (password dest : String)
  | reality (listen : RealityListen)
  | ws
  | httpUpgrade (expectedPath : Option String)
  | splitHttp (expectedPath expectedMethod : Option String) (mode : SplitHttpMode)
  | grpc (serviceName : String)

def ServerLayer.kind : ServerLayer → LayerKind
  | .tls _ _ _ => .tls
  | .shadowTls _ _ => .shadowTls
  | .reality _ => .reality
  | .ws => .ws
  | .httpUpgrade _ => .httpUpgrade
  | .splitHttp _ _ _ => .splitHttp
  | .grpc _ => .grpc

section Handlers

variable [Text] (env : Env) (settings : StreamSettingsConfig)

def normalizeSplithttpMode (mode : String) : SplitHttpMode :=
  let mode := (Text.trim mode).toLower
  if mode = "" ∨ mode = "stream-one" then .streamOne
  else if mode = "packet-up" then .packetUp
  else .other

def splithttpLayer : ServerLayer :=
  let path := (settings.splithttpSettings.map fun c => c.path).getD
    ((settings.wsSettings.map fun ws => ws.path).getD "/")
  let method := (settings.splithttpSettings.map fun c => c.method).getD "PUT"
  let mode := (settings.splithttpSettings.map fun c => c.mode).getD ""
  .splitHttp path (if method = "" then none else some method) (normalizeSplithttpMode mode)

def serverNetworkLayers : List ServerLayer :=
  match settings.network with
  | .ws => [.ws]
  | .httpUpgrade =>
    -- `httpupgrade_listen_path`
    [.httpUpgrade ((settings.httpupgradeSettings.or settings.wsSettings).map fun c => c.path)]
  | .splitHttp => [splithttpLayer settings]
  | .grpc => [.grpc ((settings.grpcSettings.map fun g => g.serviceName).getD "GunService")]
  | .tcp | .quic | .kcp => []

def serverAlpn (tls : TlsConfig) : List String :=
  if tls.alpn ≠ [] then tls.alpn
  else if settings.network = .grpc ∨ settings.network = .splitHttp then ["h2"]
  else []

def serverTlsLayer : Except Failure ServerLayer := do
  let tls ← okOr settings.tlsSettings "security=tls but no tlsSettings provided"
  bailIf (tls.certificateFile = "" ∨ tls.keyFile = "")
    "TLS requires non-empty certificateFile and keyFile"
  let certPem ← lift ((env.readToString tls.certificateFile).mapError
    fun e => "cannot read cert file '" ++ tls.certificateFile ++ "': " ++ e)
  let keyPem ← lift ((env.readToString tls.keyFile).mapError
    fun e => "cannot read key file '" ++ tls.keyFile ++ "': " ++ e)
  let alpn := serverAlpn settings tls
  lift ((env.tlsBuildServerConfig certPem keyPem alpn).mapError
    fun e => "invalid TLS certificate/key material: " ++ e)
  return .tls certPem keyPem alpn

def serverShadowTlsLayer : Except Failure ServerLayer := do
  let shadow ← okOr settings.shadowTlsSettings
    "security=shadowtls but no shadowTlsSettings provided"
  lift (checkShadowTls shadow "unsupported ShadowTLS version "
    "ShadowTLS requires non-empty password and dest")
  return .shadowTls shadow.password shadow.dest

def buildConnHandler : Except Failure (List ServerLayer) :=
  let network := serverNetworkLayers settings
  match settings.security with
  | .tls => (serverTlsLayer env settings).map fun layer => layer :: network
  | .shadowTls => (serverShadowTlsLayer settings).map fun layer => layer :: network
  | .none | .reality => .ok network

def buildRealityServer : Except Failure ServerLayer := do
  let reality ← okOr settings.realitySettings
    "REALITY inbound missing streamSettings.realitySettings"
  let dest ← requireNonEmpty reality.dest "dest"
  let fallback ← withContext (lift (env.parseSocketAddr dest))
    ("invalid REALITY fallback dest '" ++ reality.dest ++ "'")
  let shortIds ← reality.shortIds.mapM fun shortId => parseShortId env shortId "shortIds[]"
  bailIf (shortIds = []) "REALITY inbound requires at least one shortIds entry"
  let privateKey ← parseHex32 env reality.privateKey "privateKey"
  let coverSni := if reality.serverName = "" then "localhost" else reality.serverName
  let server := Reality.RealityServerConfig.new
    ⟨privateKey, shortIds, reality.maxTimeDiff.toInt64.toInt⟩
  return .reality ⟨server, fallback, coverSni⟩

def connHandlerFor (cfg : InboundConfig) : Except Failure (List ServerLayer) :=
  cfg.streamSettings.elim (.ok []) fun settings =>
    if settings.security = .reality then
      withContext ((buildRealityServer env settings).map fun layer => [layer])
        ("building REALITY inbound '" ++ cfg.tag ++ "'")
    else
      withContext (buildConnHandler env settings)
        ("building TLS/WS connection handler for inbound '" ++ cfg.tag ++ "'")

end Handlers

/-! ### Listeners -/

structure Hysteria2Listen where
  tag : String
  addr : SocketAddr
  password : String
  upMbps : ℕ
  downMbps : ℕ
  certPem : String
  keyPem : String
  maxConnections : Option ℕ

inductive Listener
  | hysteria2 (config : Hysteria2Listen)
  | ss2022Udp (tag : String) (addr : SocketAddr) (password : String)
  | mkcp (config : MkcpConfig) (handler : InboundHandler) (maxConnections : Option ℕ)
  | quic (addr : SocketAddr) (certPem keyPem : String) (handler : InboundHandler)
      (maxConnections : Option ℕ)
  | tcp (addr : SocketAddr) (layers : List ServerLayer) (layerTimeout : Option UInt64)
      (handler : InboundHandler) (maxConnections : Option ℕ)

def Listener.kinds : Listener → List LayerKind
  | .hysteria2 _ => [.hysteria2]
  | .ss2022Udp _ _ _ => [.udp]
  | .mkcp _ _ _ => [.mkcp]
  | .quic _ _ _ _ _ => [.quic]
  | .tcp _ layers _ _ _ => .tcp :: layers.map ServerLayer.kind

inductive Task
  | tun (name : String)
  | healthCheck (tag : String)
  | listener (listener : Listener) (shard : ℕ)
  | api (addr : SocketAddr)
  | metrics (addr : SocketAddr)

section Start

variable [Text] (env : Env) (host : Host) (n : ℕ) (config : Config)

def listenAddr (cfg : InboundConfig) : Option SocketAddr :=
  match cfg.listen with
  | .v4 ip => some (.v4 ip cfg.port)
  | .v6 _ => none

def addrText : SocketAddr → String
  | .v4 ip port =>
    String.intercalate "." (ip.val.map fun b => toString b.toNat) ++ ":" ++ toString port.toNat
  | .v6 _ _ => ""

def parseServerConfig (cfg : InboundConfig) (addr : SocketAddr) :
    Except Failure Hysteria2Listen := do
  let subject := "Hysteria2 inbound '" ++ cfg.tag ++ "'"
  let stream ← okOr cfg.streamSettings (subject ++ " missing streamSettings")
  let tls ← okOr stream.tlsSettings (subject ++ " missing tlsSettings")
  let certPath ← requireNonEmpty tls.certificateFile "tlsSettings.certificateFile"
  let keyPath ← requireNonEmpty tls.keyFile "tlsSettings.keyFile"
  let certPem ← withContext (lift (env.readToString certPath))
    ("reading Hysteria2 cert '" ++ certPath ++ "'")
  let keyPem ← withContext (lift (env.readToString keyPath))
    ("reading Hysteria2 key '" ++ keyPath ++ "'")
  return {
    tag := cfg.tag
    addr, certPem, keyPem
    password := (cfg.settings.field "auth").asStr.getD ""
    upMbps := (cfg.settings.field "upMbps").asU64.getD 100
    downMbps := (cfg.settings.field "downMbps").asU64.getD 100
    maxConnections := cfg.limits.bind fun l => l.maxConnections }

def quicPems (cfg : InboundConfig) : Except Failure (String × String) := do
  let subject := "inbound '" ++ cfg.tag ++ "' uses network=quic"
  let tls ← okOr (cfg.streamSettings.bind fun s => s.tlsSettings)
    (subject ++ " but has no tlsSettings")
  bailIf (tls.certificateFile = "" ∨ tls.keyFile = "")
    (subject ++ " and requires certificateFile/keyFile")
  let certPem ← withContext (lift (env.readToString tls.certificateFile))
    ("cannot read QUIC cert file '" ++ tls.certificateFile ++ "'")
  let keyPem ← withContext (lift (env.readToString tls.keyFile))
    ("cannot read QUIC key file '" ++ tls.keyFile ++ "'")
  return (certPem, keyPem)

/-- The shards of `serve_multi` from a number on: each binds a socket of its own and spawns its
accept loop. -/
def serveShards (addr : SocketAddr) (listener : Listener) : ℕ → ℕ → Acquire Task Unit
  | _, 0 => pure ()
  | shard, more + 1 => do
    ofExcept (lift (host.bindTcp n shard addr))
    acquire (.listener listener shard)
    serveShards addr listener (shard + 1) more

def serveMulti (addr : SocketAddr) (listener : Listener) : Acquire Task Unit :=
  serveShards host n addr listener 0 (max host.shards 1)

def ssNetwork (cfg : InboundConfig) : String :=
  ((cfg.settings.get "network").bind Value.asStr).getD "tcp"

def OverUdp (cfg : InboundConfig) : Prop :=
  cfg.protocol = .shadowsocks ∧
    (ssNetwork cfg = "udp" ∨ ssNetwork cfg = "tcp,udp" ∨ ssNetwork cfg = "udp,tcp")

instance (cfg : InboundConfig) : Decidable (OverUdp cfg) := inferInstanceAs (Decidable (_ ∧ _))

def startSs2022Udp (cfg : InboundConfig) (addr : SocketAddr) : Acquire Task (List Listener) := do
  let password ← ofExcept (okOr ((cfg.settings.get "password").bind Value.asStr)
    ("SS-2022 UDP inbound '" ++ cfg.tag ++ "' missing 'password'"))
  ofExcept (withContext (lift (host.bindUdp n addr))
    ("binding SS-2022 UDP inbound '" ++ cfg.tag ++ "' on " ++ addrText addr))
  acquire (.listener (.ss2022Udp cfg.tag addr password) 0)
  return [.ss2022Udp cfg.tag addr password]

def startUdp (cfg : InboundConfig) (addr : SocketAddr) : Acquire Task (List Listener) :=
  if OverUdp cfg then startSs2022Udp host n cfg addr else pure []

def startMkcp (cfg : InboundConfig) (addr : SocketAddr) (handler : InboundHandler)
    (maxConnections : Option ℕ) : Acquire Task Listener := do
  let mkcp ← ofExcept (withContext (lift (buildMkcpConfig addr cfg.streamSettings))
    ("building mKCP inbound '" ++ cfg.tag ++ "'"))
  acquire (.listener (.mkcp mkcp handler maxConnections) 0)
  return .mkcp mkcp handler maxConnections

def startQuic (cfg : InboundConfig) (addr : SocketAddr) (handler : InboundHandler)
    (maxConnections : Option ℕ) : Acquire Task Listener := do
  let pems ← ofExcept (quicPems env cfg)
  ofExcept (withContext (lift (host.bindQuic n addr))
    ("binding QUIC inbound '" ++ cfg.tag ++ "'"))
  acquire (.listener (.quic addr pems.1 pems.2 handler maxConnections) 0)
  return .quic addr pems.1 pems.2 handler maxConnections

def layerTimeout (layers : List ServerLayer) (timeout : Option UInt64) : Option UInt64 :=
  if layers.isEmpty then none else timeout

def startTcp (cfg : InboundConfig) (addr : SocketAddr) (handler : InboundHandler)
    (timeout : Option UInt64) (maxConnections : Option ℕ) : Acquire Task Listener := do
  let layers ← ofExcept (connHandlerFor env cfg)
  let listener := Listener.tcp addr layers (layerTimeout layers timeout) handler maxConnections
  withContext (serveMulti host n addr listener)
    ("binding inbound listener '" ++ cfg.tag ++ "'")
  return listener

def startTransport (cfg : InboundConfig) (addr : SocketAddr)
    (handler : InboundHandler) : Acquire Task Listener :=
  let maxConnections := maxConnectionsFor cfg config.limits
  if usesNetwork cfg.streamSettings .kcp then startMkcp cfg addr handler maxConnections
  else if usesNetwork cfg.streamSettings .quic then
    startQuic env host n cfg addr handler maxConnections
  else
    startTcp env host n cfg addr handler (handshakeTimeoutFor cfg config.limits) maxConnections

def startHysteria2 (cfg : InboundConfig) (addr : SocketAddr) : Acquire Task Listener := do
  let listen ← ofExcept (withContext (parseServerConfig env cfg addr)
    ("starting Hysteria2 inbound '" ++ cfg.tag ++ "'"))
  acquire (.listener (.hysteria2 listen) 0)
  return .hysteria2 listen

def startStream (registries : Registries) (cfg : InboundConfig)
    (addr : SocketAddr) : Acquire Task (Listener × Registries) := do
  let built ← ofExcept (buildInbound env config registries cfg)
  let listener ← startTransport env host n config cfg addr built.1
  return (listener, built.2)

def startListeners (registries : Registries) (cfg : InboundConfig)
    (addr : SocketAddr) : Acquire Task (List Listener × Registries) :=
  if cfg.protocol = .hysteria2 then
    startHysteria2 env cfg addr >>= fun listener => pure ([listener], registries)
  else
    startUdp host n cfg addr >>= fun udp =>
      -- an inbound for UDP only has no other listener
      if udp ≠ [] ∧ ssNetwork cfg = "udp" then pure (udp, registries)
      else startStream env host n config registries cfg addr >>= fun stream =>
        pure (udp ++ [stream.1], stream.2)

def startInbound (n : ℕ) (registries : Registries) (cfg : InboundConfig) :
    Acquire Task (List Listener × Registries) := do
  ofExcept (rejectUnfinishedTransportSettings "inbound" cfg.tag cfg.streamSettings)
  let addr ← ofExcept (okOr (listenAddr cfg)
    ("invalid listen address for inbound '" ++ cfg.tag ++ "'"))
  startListeners env host n config registries cfg addr

end Start

/-! ### A small machine -/

def anyV4 : IpAddr := .v4 ⟨[0, 0, 0, 0], rfl⟩

def labEnv : Env where
  parseSocketAddr s := if s = "10.0.0.3:443" then .ok (.v4 ⟨[10, 0, 0, 3], rfl⟩ 443)
    else .error "invalid socket address syntax"
  parseIpv4 _ := .error "invalid IPv4 address syntax"
  parseUuid s := if s = "u" then .ok (.replicate 16 7) else .error "invalid character"
  hexDecode _ := .error "Invalid character"
  readToString _ := .ok "pem"
  tlsBuildServerConfig _ _ _ := .ok ()

def labHost : Host where
  tunSupported := .ok ()
  createTun _ := .ok ()
  dnsNew _ := .ok ()
  shards := 1
  bindUdp _ _ := .ok ()
  bindQuic _ _ := .ok ()
  bindTcp _ _ _ := .ok ()
  startMetrics _ := .ok ()
  setOutboundInterface _ := .ok ()

end Blackwire.Core
