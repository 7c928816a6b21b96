import Blackwire.Core.Reload

/-!
# Instances

`Instance::from_config` of `instance/mod.rs`: the TUN device, the resolver, the outbounds and the
balancers, the router, the listeners, and the API and metrics servers, in this order.  Each step may
fail, and what the steps before it have spawned goes on running: a `JoinHandle` that is dropped does
not stop its task.
-/

namespace Blackwire.Core

open Schema Json Routing Router Failure Acquire

/-! ### Outbounds and balancers -/

inductive OutboundEntry
  | handler (handler : OutboundHandler)
  | balancer (config : BalancerConfig) (members : List (String × OutboundEntry))

abbrev OutboundMap := List (String × OutboundEntry)

namespace OutboundMap

def insert (tag : String) (entry : OutboundEntry) (map : OutboundMap) : OutboundMap :=
  (tag, entry) :: map.filter fun e => e.1 ≠ tag

def keys (map : OutboundMap) : List String := map.map fun e => e.1

end OutboundMap

variable (cfg : BalancerConfig)

def selectedTags : List String :=
  if cfg.profiles = [] then cfg.selector else cfg.profiles.map fun p => p.outboundTag

def selectBalancerOutbounds (map : OutboundMap) :
    Except Failure (List (String × OutboundEntry)) := do
  bailIf (selectedTags cfg = [])
    ("balancer '" ++ cfg.tag ++ "' selector/profiles must not be empty")
  (selectedTags cfg).mapM fun tag =>
    (okOr (map.lookup tag)
      ("balancer '" ++ cfg.tag ++ "' references missing outbound '" ++ tag ++ "'")).map
        fun entry => (tag, entry)

def parseHealthPort (port : List Char) : Except String Unit :=
  ((parseU16 (String.ofList port)).mapError fun _ =>
    "protocol error: invalid health check URL port '" ++ String.ofList port ++ "'").map fun _ => ()

def checkAuthority (authority : List Char) : Except String Unit :=
  match authority with
  | '[' :: text =>
    match text.span (· ≠ ']') with
    | (_, []) => .error "protocol error: health check IPv6 host is missing closing ']'"
    | (_, [_]) => .ok ()
    | (_, _ :: ':' :: port) => parseHealthPort port
    | (_, _ :: _ :: _) => .error "protocol error: invalid health check IPv6 authority"
  | authority =>
    match authority.reverse.span (· ≠ ':') with
    | (_, []) => .ok ()
    | (port, _ :: host) =>
      if ':' ∈ host then .error "protocol error: IPv6 health check hosts must use brackets"
      else parseHealthPort port.reverse

def checkHealthUrl (url : String) : Except String Unit :=
  (stripPrefix "http://" url).elim
    (.error "protocol error: health check only supports http:// URLs") fun rest =>
      let authority := rest.toList.takeWhile (· ≠ '/')
      if authority = [] then .error "protocol error: health check URL is missing a host"
      else checkAuthority authority

def startHealthCheck : Acquire Task Unit :=
  cfg.healthCheck.elim (pure ()) fun health => do
    ofExcept (lift ((checkHealthUrl health.url).mapError
      fun e => "invalid health check for balancer '" ++ cfg.tag ++ "': " ++ e))
    acquire (.healthCheck cfg.tag)

/-- The balancers are added in order; each may start a health check. -/
def startBalancers : List BalancerConfig → OutboundMap → Acquire Task OutboundMap
  | [], map => pure map
  | cfg :: balancers, map => do
    ofExcept (bailIf (cfg.tag ∈ map.keys)
      ("balancer tag '" ++ cfg.tag ++ "' conflicts with an existing outbound"))
    let members ← ofExcept (selectBalancerOutbounds cfg map)
    startHealthCheck cfg
    startBalancers balancers (map.insert cfg.tag (.balancer cfg members))

def balancersOf (config : Config) : List BalancerConfig :=
  config.routing.elim [] fun r => r.balancers

section Start

variable (env : Env) (host : Host) (config : Config)

def dnsModuleConfig (dns : DnsConfig) : DnsModuleConfig where
  servers := dns.servers
  fakeIpEnabled := dns.fakeIp.any fun f => f.enabled
  fakeIpRange := (dns.fakeIp.map fun f => f.pool).getD "198.18.0.0/15"

def buildDnsModule : Except Failure (Option DnsModuleConfig) :=
  config.dns.elim (.ok none) fun dns =>
    (lift ((host.dnsNew (dnsModuleConfig dns)).mapError fun e => "building DNS module: " ++ e)).map
      fun _ => some (dnsModuleConfig dns)

def createTunDevice (tun : TunConfig) : Except Failure Unit := do
  lift host.tunSupported
  let _ ← withContext (lift (env.parseIpv4 tun.address))
    ("invalid TUN address '" ++ tun.address ++ "'")
  let _ ← withContext (lift (env.parseIpv4 tun.netmask))
    ("invalid TUN netmask '" ++ tun.netmask ++ "'")
  withContext (lift (host.createTun tun)) "TUN device creation failed (are we running as root?)"

def startTun : Acquire Task Unit :=
  config.tun.elim (pure ()) fun tun =>
    ofExcept (createTunDevice env host tun) >>= fun _ => acquire (.tun tun.name)

def apiListenAddr (api : Value) : Option String :=
  api.asStr.or (((api.get "listen").bind Value.asStr).or (do
    let name ← (api.get "host").bind Value.asStr
    let port ← (api.get "port").bind Value.asU64
    return name ++ ":" ++ toString port))

def startApi : Acquire Task Unit :=
  (config.api.bind apiListenAddr).elim (pure ()) fun text => do
    let addr ← ofExcept (withContext (withContext (lift (env.parseSocketAddr text))
      ("invalid API listen address '" ++ text ++ "'"))
      ("starting blackwire-api gRPC server on '" ++ text ++ "'"))
    acquire (.api addr)

def startMetrics : Acquire Task Unit :=
  config.metricsAddr.elim (pure ()) fun text => do
    let starting := "starting metrics server on '" ++ text ++ "'"
    let addr ← ofExcept (withContext (lift ((env.parseSocketAddr text).mapError
      fun e => "invalid metrics addr '" ++ text ++ "': " ++ e)) starting)
    ofExcept (withContext (lift (host.startMetrics addr)) starting)
    acquire (.metrics addr)

def setOutboundInterface : Except Failure Unit :=
  (config.tun.bind fun t => t.outboundInterface).elim (.ok ()) fun interface =>
    withContext (lift (host.setOutboundInterface interface))
      ("invalid TUN outbound interface '" ++ interface ++ "'")

variable [Text]

def buildOutbounds (dns : Option DnsModuleConfig) (config : Config) :
    List OutboundConfig → OutboundMap → Except Failure OutboundMap
  | [], map => .ok map
  | cfg :: outbounds, map => do
    let handler ← buildOutbound env dns config cfg
    buildOutbounds dns config outbounds (map.insert cfg.tag (.handler handler))

def startInbounds (config : Config) :
    ℕ → List InboundConfig → Registries → Acquire Task (List Listener × Registries)
  | _, [], registries => pure ([], registries)
  | n, cfg :: inbounds, registries => do
    let started ← startInbound env host config n registries cfg
    let rest ← startInbounds config (n + 1) inbounds started.2
    return (started.1 ++ rest.1, rest.2)

def splicePolicyForProfile : FastSplicePolicy :=
  if config.profile = .fast then (config.fast.getD {}).splice else .adaptive

variable (toUppercase : String → String) {IpNet : Type} [IpNetApi IpNet] [Automata]
  (files : GeoFiles IpNet)

variable (IpNet) in
structure Instance where
  listeners : List Listener
  reload : ReloadState IpNet
  outbounds : OutboundMap
  dns : Option DnsModuleConfig
  profile : ProfileMode
  splicePolicy : FastSplicePolicy

section

variable (config : Config)

def loadGeoData : GeoCache IpNet where
  geoip :=
    { matchers := (config.routing.bind fun r => r.geoipFile).elim (fun _ => none) files.geoip }
  geosite :=
    { matchers := (config.routing.bind fun r => r.geositeFile).elim (fun _ => none) files.geosite }

def freshReloadState (rules : List (CompiledRule IpNet))
    (registries : Registries) : ReloadState IpNet where
  router := routerOf config rules (loadGeoData files config)
  registries := registries
  sniffing := buildSniffingMap config.inbounds
  inboundTags := config.inbounds.map fun i => i.tag
  outboundTags := config.outbounds.map fun o => o.tag
  geoCache := {}

/-- `Instance::from_config` behind the TUN device: the steps that build without spawning, and the
balancers. -/
def prepare : Acquire Task (Option DnsModuleConfig × OutboundMap × List (CompiledRule IpNet)) := do
  let dns ← ofExcept (buildDnsModule host config)
  let handlers ← ofExcept (buildOutbounds env dns config config.outbounds [])
  let outbounds ← startBalancers (balancersOf config) handlers
  let rules ← ofExcept (configRules toUppercase config outbounds.keys)
  return (dns, outbounds, rules)

def serve : Acquire Task (List Listener × Registries) := do
  let started ← startInbounds env host config 0 config.inbounds fun _ => none
  startApi env config
  startMetrics env host config
  ofExcept (setOutboundInterface host config)
  return started

/-- `Instance::from_config`, with the tasks that it has spawned. -/
def fromConfig : Acquire Task (Instance IpNet) := do
  startTun env host config
  let prepared ← prepare env host toUppercase config
  let started ← serve env host config
  return {
    listeners := started.1
    reload := freshReloadState files config prepared.2.2 started.2
    outbounds := prepared.2.1
    dns := prepared.1
    profile := config.profile
    splicePolicy := splicePolicyForProfile config }

end

end Start

def socksOn (tag : String) (listen : IpAddr) (port : UInt16) : InboundConfig where
  tag := tag
  protocol := .socks
  listen := listen
  port := port

def withInbounds (inbounds : List InboundConfig) : Config where
  inbounds := inbounds
  outbounds := [{ tag := "direct", protocol := .freedom }]

def labStart (config : Config) : Acquire Task (Instance Router.Cidr) :=
  letI := plainAutomata
  fromConfig labEnv labHost id noGeoFiles config

end Blackwire.Core
