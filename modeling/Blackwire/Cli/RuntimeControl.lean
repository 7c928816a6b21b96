import Blackwire.Core.Restart

/-!
# The management of a running instance

`blackwire-cli/src/main.rs`: the running instance with the configuration that it was built from, the
management operations of `RuntimeControl`, and the reload task of `run_proxy`.

* `rebuild`: a fresh instance in the place of the running one, or the previous configuration again;
  `mutateConfig` rebuilds with an edited copy of the stored configuration;
* `addVlessUser`, `removeVlessUser`: an operation on a user changes a registry of the running
  instance, and not the stored configuration;
* `notified`: the reload task takes a configuration file, by a reload or by a rebuild; a reload does
  not change the stored configuration either.
-/

namespace Blackwire.Cli

open Schema Json Routing Router Failure Vless Core

/-! ### The checks of a configuration -/

def protocolName : Protocol → String
  | .vless => "vless"
  | .vmess => "vmess"
  | .trojan => "trojan"
  | .shadowsocks => "shadowsocks"
  | .hysteria2 => "hysteria2"
  | .shadowTls => "shadowtls"
  | .socks => "socks"
  | .http => "http"
  | .freedom => "freedom"

def networkName : NetworkType → String
  | .tcp => "tcp"
  | .ws => "ws"
  | .httpUpgrade => "httpupgrade"
  | .grpc => "grpc"
  | .quic => "quic"
  | .kcp => "kcp"
  | .splitHttp => "splithttp"

/-- The errors of `validate_fast_profile` on the stream settings of an inbound; without
`strictProduction` the lack of security is only a warning. -/
def streamErrors (strict : Bool) (inbound : InboundConfig) : List String :=
  let subject := "inbound '" ++ inbound.tag ++ "': "
  inbound.streamSettings.elim
    (if strict then
      [subject ++ "no streamSettings (security=none); use reality or tls in Fast Profile"] else [])
    fun settings =>
      (if settings.network ≠ .tcp then
        [subject ++ "network='" ++ networkName settings.network ++
          "' is not allowed in Fast Profile (only tcp)"] else []) ++
      (if settings.security = .none ∧ strict then
        [subject ++ "security=none; use reality or tls in Fast Profile"] else [])

def inboundErrors (strict : Bool) (inbound : InboundConfig) : List String :=
  let subject := "inbound '" ++ inbound.tag ++ "': "
  (if inbound.protocol ≠ .vless then
    [subject ++ "protocol '" ++ protocolName inbound.protocol ++
      "' is not allowed in Fast Profile (only vless)"] else []) ++
  streamErrors strict inbound ++
  (if inbound.sniffing.any fun s => s.enabled then
    [subject ++ "sniffing=true is not allowed in Fast Profile (adds per-connection overhead)"]
    else [])

def outboundErrors (outbound : OutboundConfig) : List String :=
  if outbound.protocol ≠ .vless ∧ outbound.protocol ≠ .freedom then
    ["outbound '" ++ outbound.tag ++ "': protocol '" ++ protocolName outbound.protocol ++
      "' is not allowed in Fast Profile (only vless, freedom)"] else []

/-- The errors of `validate_fast_profile` on a configuration with the fast profile; its warnings are
printed and have no effect. -/
def fastProfileErrors (config : Config) : List String :=
  config.inbounds.flatMap
    (inboundErrors ((config.fast.map fun f => f.strictProduction).getD true)) ++
  config.outbounds.flatMap outboundErrors ++
  (if (config.dns.bind fun d => d.fakeIp).any fun f => f.enabled then
    ["dns.fakeIp=true is not allowed in Fast Profile (adds per-query overhead)"] else []) ++
  (if (config.routing.bind fun r => r.domainStrategy).any fun s => s.toLower = "ipondemand" then
    ["routing.domainStrategy=IpOnDemand is not allowed in Fast Profile " ++
      "(forces a DNS lookup on every connection)"] else [])

variable (profileOverride : Option ProfileMode)

def applyProfileOverrideAndValidate (config : Config) : Except String Unit :=
  let errors := fastProfileErrors config
  if profileOverride.getD config.profile = .fast ∧ errors ≠ [] then
    .error ("config rejected by Fast Profile (" ++ toString errors.length ++ " error(s)):\n" ++
      String.intercalate "\n" (errors.map fun e => "  • " ++ e))
  else .ok ()

def effectiveConfig (base : Config) : Config :=
  { base with profile := profileOverride.getD base.profile }

def instanceRuntimeConfig (base : Config) : Config := { base with api := none }

/-! ### The running instance -/

/-- The machine at a time: the answers of the operating system, and the geographical data. -/
structure Machine (IpNet : Type) [IpNetApi IpNet] where
  host : Host
  files : GeoFiles IpNet

structure RunningInstance (IpNet : Type) [IpNetApi IpNet] where
  config : Config
  inst : Instance IpNet

/-- The slot that `RuntimeControl` and the reload task share, and whether the reload task is in its
loop. -/
structure State (IpNet : Type) [IpNetApi IpNet] where
  slot : Option (RunningInstance IpNet)
  reloading : Bool

/-- `RuntimeControl`, with what it asks of other crates: the parsers of endpoints, and the texts of
validation errors. -/
structure Control where
  env : Env
  toUppercase : String → String
  profileOverride : Option ProfileMode
  parseInbound : Value → Except String InboundConfig
  parseOutbound : Value → Except String OutboundConfig
  describe : Config → String
  describeInbound : InboundConfig → String
  describeOutbound : OutboundConfig → String

structure NativeEndpointConfig where
  tag : String
  config : Value

inductive Mutation
  | addInbound (config : NativeEndpointConfig)
  | removeInbound (tag : String)
  | addOutbound (config : NativeEndpointConfig)
  | removeOutbound (tag : String)
  | alterOutbound (config : NativeEndpointConfig)

def replaceFirst {α : Type} (found : α → Bool) (value : α) : List α → Option (List α)
  | [] => none
  | a :: as => if found a then some (value :: as) else (replaceFirst found value as).map (a :: ·)

def causes (e : Failure) : String := String.intercalate ": " e

namespace Control

variable (ctl : Control) (config : NativeEndpointConfig)

def parseInboundEndpoint : Except String InboundConfig := do
  let endpoint ← (ctl.parseInbound config.config).mapError ("invalid inbound config JSON: " ++ ·)
  if endpoint.tag ≠ config.tag then
    .error ("inbound tag mismatch: request tag '" ++ config.tag ++ "' != config tag '" ++
      endpoint.tag ++ "'")
  else if endpoint.validate then .ok endpoint
  else .error ("inbound validation failed: " ++ ctl.describeInbound endpoint)

def parseOutboundEndpoint : Except String OutboundConfig := do
  let endpoint ← (ctl.parseOutbound config.config).mapError ("invalid outbound config JSON: " ++ ·)
  if endpoint.tag ≠ config.tag then
    .error ("outbound tag mismatch: request tag '" ++ config.tag ++ "' != config tag '" ++
      endpoint.tag ++ "'")
  else if endpoint.validate then .ok endpoint
  else .error ("outbound validation failed: " ++ ctl.describeOutbound endpoint)

def closure : Mutation → Except String (Config → Except String Config)
  | .addInbound config => (ctl.parseInboundEndpoint config).map fun endpoint cfg =>
    if cfg.inbounds.any fun i => i.tag = endpoint.tag then
      .error ("inbound '" ++ endpoint.tag ++ "' already exists")
    else .ok { cfg with inbounds := cfg.inbounds ++ [endpoint] }
  | .removeInbound tag => .ok fun cfg =>
    if cfg.inbounds.any fun i => i.tag = tag then
      .ok { cfg with inbounds := cfg.inbounds.filter fun i => i.tag ≠ tag }
    else .error ("inbound '" ++ tag ++ "' not found")
  | .addOutbound config => (ctl.parseOutboundEndpoint config).map fun endpoint cfg =>
    if cfg.outbounds.any fun o => o.tag = endpoint.tag then
      .error ("outbound '" ++ endpoint.tag ++ "' already exists")
    else .ok { cfg with outbounds := cfg.outbounds ++ [endpoint] }
  | .removeOutbound tag => .ok fun cfg =>
    if cfg.outbounds.any fun o => o.tag = tag then
      .ok { cfg with outbounds := cfg.outbounds.filter fun o => o.tag ≠ tag }
    else .error ("outbound '" ++ tag ++ "' not found")
  | .alterOutbound config => (ctl.parseOutboundEndpoint config).map fun endpoint cfg =>
    (replaceFirst (fun o => o.tag = endpoint.tag) endpoint cfg.outbounds).elim
      (.error ("outbound '" ++ endpoint.tag ++ "' not found"))
      fun outbounds => .ok { cfg with outbounds }

def runtimeConfig (file : Config) : Config :=
  instanceRuntimeConfig (effectiveConfig ctl.profileOverride file)

def checkConfig (config : Config) : Except String Unit :=
  if config.validate then applyProfileOverrideAndValidate ctl.profileOverride config
  else .error ("config validation failed: " ++ ctl.describe config)

def edit (mutation : Mutation) (config : Config) : Except String Config := do
  let f ← ctl.closure mutation
  let edited ← f config
  ctl.checkConfig edited
  return edited

def Edits (old new : Config) : Mutation → Prop
  | .addInbound config => ∃ endpoint, ctl.parseInboundEndpoint config = .ok endpoint ∧
      (∀ i ∈ old.inbounds, i.tag ≠ endpoint.tag) ∧
      new = { old with inbounds := old.inbounds ++ [endpoint] }
  | .removeInbound tag => new = { old with inbounds := old.inbounds.filter fun i => i.tag ≠ tag }
  | .addOutbound config => ∃ endpoint, ctl.parseOutboundEndpoint config = .ok endpoint ∧
      new = { old with outbounds := old.outbounds ++ [endpoint] }
  | .removeOutbound tag => new = { old with outbounds := old.outbounds.filter fun o => o.tag ≠ tag }
  | .alterOutbound config => ∃ endpoint outbounds, ctl.parseOutboundEndpoint config = .ok endpoint ∧
      replaceFirst (fun o => o.tag = endpoint.tag) endpoint old.outbounds = some outbounds ∧
      new = { old with outbounds }

variable {ctl} {config : NativeEndpointConfig}

theorem edits_of_edit {mutation : Mutation} {old new : Config}
    (h : ctl.edit mutation old = .ok new) : ctl.Edits old new mutation := by
  obtain ⟨f, hf, h⟩ := bind_eq_ok.1 h
  obtain ⟨edited, hedited, h⟩ := bind_eq_ok.1 h
  obtain ⟨-, -, h⟩ := bind_eq_ok.1 h
  obtain rfl := Except.ok.inj h
  cases mutation with
  | addInbound config =>
    obtain ⟨endpoint, hendpoint, rfl⟩ := map_eq_ok.1 hf
    dsimp only at hedited
    split_ifs at hedited with hany
    obtain rfl := Except.ok.inj hedited
    refine ⟨endpoint, hendpoint, fun i hi htag => hany ?_, rfl⟩
    exact List.any_eq_true.2 ⟨i, hi, decide_eq_true htag⟩
  | removeInbound tag | removeOutbound tag =>
    obtain rfl := Except.ok.inj hf
    dsimp only at hedited
    split_ifs at hedited
    exact (Except.ok.inj hedited).symm
  | addOutbound config =>
    obtain ⟨endpoint, hendpoint, rfl⟩ := map_eq_ok.1 hf
    dsimp only at hedited
    split_ifs at hedited
    exact ⟨endpoint, hendpoint, (Except.ok.inj hedited).symm⟩
  | alterOutbound config =>
    obtain ⟨endpoint, hendpoint, rfl⟩ := map_eq_ok.1 hf
    dsimp only at hedited
    cases houtbounds : replaceFirst (fun o => o.tag = endpoint.tag) endpoint old.outbounds with
    | none =>
      rw [houtbounds] at hedited
      cases hedited
    | some outbounds =>
      rw [houtbounds] at hedited
      exact ⟨endpoint, outbounds, hendpoint, houtbounds, (Except.ok.inj hedited).symm⟩

theorem parseInboundEndpoint_ok {endpoint : InboundConfig}
    (h : ctl.parseInboundEndpoint config = .ok endpoint) :
    ctl.parseInbound config.config = .ok endpoint ∧ endpoint.tag = config.tag := by
  obtain ⟨parsed, hparsed, h⟩ := bind_eq_ok.1 h
  split_ifs at h with htag hvalid
  obtain rfl := Except.ok.inj h
  exact ⟨mapError_eq_ok.1 hparsed, not_not.1 htag⟩

theorem parseOutboundEndpoint_ok {endpoint : OutboundConfig}
    (h : ctl.parseOutboundEndpoint config = .ok endpoint) :
    ctl.parseOutbound config.config = .ok endpoint ∧ endpoint.tag = config.tag := by
  obtain ⟨parsed, hparsed, h⟩ := bind_eq_ok.1 h
  split_ifs at h with htag hvalid
  obtain rfl := Except.ok.inj h
  exact ⟨mapError_eq_ok.1 hparsed, not_not.1 htag⟩

variable (ctl)

/-! ### Operations -/

variable {IpNet : Type} [IpNetApi IpNet]

def withRegistry (tag : String) (f : VlessUserRegistry → Except String VlessUserRegistry)
    (s : State IpNet) : State IpNet × Except String Unit :=
  match s.slot with
  | none => (s, .error "no running instance is available")
  | some running =>
    match running.inst.reload.registries tag with
    | none => (s, .error ("inbound '" ++ tag ++ "' has no VLESS user registry"))
    | some registry =>
      match f registry with
      | .error e => (s, .error e)
      | .ok changed =>
        let reload := running.inst.reload
        ({ s with slot := some { running with inst := { running.inst with
            reload := { reload with registries := reload.registries.set tag changed } } } }, .ok ())

def addVlessUser (tag email uuid flow : String) (s : State IpNet) :
    State IpNet × Except String Unit :=
  withRegistry tag (fun registry =>
    ((ctl.env.parseUuid uuid).mapError fun e => "invalid UUID '" ++ uuid ++ "': " ++ e).map
      fun bytes => registry.addUser ⟨email, bytes, flow⟩) s

def removeVlessUser (tag email : String) (s : State IpNet) : State IpNet × Except String Unit :=
  withRegistry tag (fun registry =>
    if registry.users.any fun entry => entry.2.email = email then
      .ok (registry.removeUserByEmail email)
    else .error ("no VLESS user with email '" ++ email ++ "' on inbound '" ++ tag ++ "'")) s

variable [Text] [Automata] (now later : Machine IpNet)

/-- A fresh instance, built from the configuration. -/
def build (machine : Machine IpNet) (config : Config) : Except Failure (Instance IpNet) :=
  (fromConfig ctl.env machine.host ctl.toUppercase machine.files config).result

/-- `rebuild_with_config`: on failure the previous configuration is built again. -/
def rebuild (config : Config) (running : RunningInstance IpNet) :
    Option (RunningInstance IpNet) × Except String Unit :=
  match ctl.build now config with
  | .ok inst => (some ⟨config, inst⟩, .ok ())
  | .error e =>
    match ctl.build later running.config with
    | .ok inst =>
      (some ⟨running.config, inst⟩,
        .error ("instance rebuild failed; rolled back: " ++ causes e))
    | .error e' =>
      (none, .error ("instance rebuild failed and rollback failed; " ++
        "no instance is running: rebuild=" ++
        causes e ++ "; rollback=" ++ causes e'))

/-- `mutate_config`: edit the stored configuration and rebuild. -/
def mutateConfig (mutation : Mutation) (s : State IpNet) : State IpNet × Except String Unit :=
  match ctl.closure mutation, s.slot with
  | .error e, _ => (s, .error e)
  | .ok _, none => (s, .error "no running instance is available")
  | .ok _, some running =>
    match ctl.edit mutation running.config with
    | .error e => (s, .error e)
    | .ok config =>
      let rebuilt := ctl.rebuild now later config running
      ({ s with slot := rebuilt.1 }, rebuilt.2)

/-- The reload task, when it is told of a new file. -/
def notified (file : Config) (s : State IpNet) : State IpNet :=
  if s.reloading then
    match s.slot with
    | none => { s with reloading := false }
    | some running =>
      let config := ctl.runtimeConfig file
      if requiresInstanceRestart running.config config then
        { s with slot := (ctl.rebuild now later config running).1 }
      else
        { s with slot := some { running with
            inst := running.inst.reloaded ctl.env ctl.toUppercase now.files config } }
  else s

inductive Op
  | addVlessUser (tag email uuid flow : String)
  | removeVlessUser (tag email : String)
  | mutate (mutation : Mutation)
  | configFile (file : Config)

/-- What happens, on the machine as it is when an instance is built and when it is built again. -/
structure Input (IpNet : Type) [IpNetApi IpNet] where
  op : Op
  now : Machine IpNet
  later : Machine IpNet

def perform (s : State IpNet) (input : Input IpNet) : State IpNet × Except String Unit :=
  match input.op with
  | .addVlessUser tag email uuid flow => ctl.addVlessUser tag email uuid flow s
  | .removeVlessUser tag email => removeVlessUser tag email s
  | .mutate mutation => ctl.mutateConfig input.now input.later mutation s
  | .configFile file => (ctl.notified input.now input.later file s, .ok ())

def step (s : State IpNet) (input : Input IpNet) : State IpNet := (ctl.perform s input).1

/-! ### What an operation leaves -/

variable (ctl : Control) (now later : Machine IpNet)

theorem rebuild_cases (config : Config) (running : RunningInstance IpNet) :
    (∃ inst, ctl.build now config = .ok inst ∧
        (ctl.rebuild now later config running).1 = some ⟨config, inst⟩) ∨
      (¬ ∃ inst, ctl.build now config = .ok inst) ∧
        ((∃ inst, ctl.build later running.config = .ok inst ∧
            (ctl.rebuild now later config running).1 = some ⟨running.config, inst⟩) ∨
          (¬ ∃ inst, ctl.build later running.config = .ok inst) ∧
            (ctl.rebuild now later config running).1 = none) := by
  unfold Control.rebuild
  cases ctl.build now config with
  | ok inst => exact .inl ⟨inst, rfl, rfl⟩
  | error e =>
    refine .inr ⟨by simp, ?_⟩
    cases ctl.build later running.config with
    | ok inst => exact .inl ⟨inst, rfl, rfl⟩
    | error e' => exact .inr ⟨by simp, rfl⟩

theorem mutateConfig_cases (mutation : Mutation) (s : State IpNet) :
    (ctl.mutateConfig now later mutation s).1 = s ∨
      ∃ running config, s.slot = some running ∧ ctl.edit mutation running.config = .ok config ∧
        (ctl.mutateConfig now later mutation s).1 =
          { s with slot := (ctl.rebuild now later config running).1 } := by
  unfold Control.mutateConfig
  cases ctl.closure mutation with
  | error e => exact .inl rfl
  | ok f =>
    cases hslot : s.slot with
    | none => exact .inl rfl
    | some running =>
      simp only
      cases hedit : ctl.edit mutation running.config with
      | error e => exact .inl rfl
      | ok config => exact .inr ⟨running, config, rfl, hedit, rfl⟩

theorem mutateConfig_ok {ctl : Control} {now later : Machine IpNet} {mutation : Mutation}
    {s : State IpNet} (h : (ctl.mutateConfig now later mutation s).2 = .ok ()) :
    ∃ running config inst, s.slot = some running ∧ ctl.edit mutation running.config = .ok config ∧
      ctl.build now config = .ok inst ∧
      (ctl.mutateConfig now later mutation s).1 = { s with slot := some ⟨config, inst⟩ } := by
  unfold Control.mutateConfig at h ⊢
  cases hclosure : ctl.closure mutation with
  | error e => simp [hclosure] at h
  | ok f =>
    cases hslot : s.slot with
    | none => simp [hclosure, hslot] at h
    | some running =>
      simp only [hclosure, hslot] at h ⊢
      cases hedit : ctl.edit mutation running.config with
      | error e => simp [hedit] at h
      | ok config =>
        simp only [hedit] at h ⊢
        unfold Control.rebuild at h ⊢
        cases hbuild : ctl.build now config with
        | ok inst => exact ⟨running, config, inst, rfl, hedit, hbuild, rfl⟩
        | error e => cases hlater : ctl.build later running.config <;> simp [hbuild, hlater] at h

theorem notified_cases (file : Config) (s : State IpNet) :
    (ctl.notified now later file s).slot = s.slot ∨
      ∃ running, s.slot = some running ∧
        (requiresInstanceRestart running.config (ctl.runtimeConfig file) = true ∧
            (ctl.notified now later file s).slot =
              (ctl.rebuild now later (ctl.runtimeConfig file) running).1 ∨
          requiresInstanceRestart running.config (ctl.runtimeConfig file) = false ∧
            (ctl.notified now later file s).slot = some { running with
              inst := running.inst.reloaded ctl.env ctl.toUppercase now.files
                (ctl.runtimeConfig file) }) := by
  unfold Control.notified
  split_ifs with hreloading
  · cases hslot : s.slot with
    | none => exact .inl rfl
    | some running =>
      refine .inr ⟨running, rfl, ?_⟩
      cases hrestart : requiresInstanceRestart running.config (ctl.runtimeConfig file) with
      | true => exact .inl ⟨rfl, by simp [hrestart]⟩
      | false => exact .inr ⟨rfl, by simp [hrestart]⟩
  · exact .inl rfl

end Control

def started {IpNet : Type} [IpNetApi IpNet] (config : Config) (inst : Instance IpNet) :
    State IpNet :=
  ⟨some ⟨config, inst⟩, true⟩

def labMachine : Machine Router.Cidr := ⟨labHost, noGeoFiles⟩

def labControl : Control where
  env := labEnv
  toUppercase := id
  profileOverride := none
  parseInbound _ := .error "missing field"
  parseOutbound _ := .ok { tag := "more", protocol := .freedom }
  describe _ := ""
  describeInbound _ := ""
  describeOutbound _ := ""

end Blackwire.Cli
