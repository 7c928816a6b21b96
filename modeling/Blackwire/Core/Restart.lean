import Blackwire.Core.Built

/-!
# Reloads and restarts

`requires_instance_restart` of `reload.rs` decides whether a new configuration is applied to the
running instance or a fresh one is built from it.  A reload should come out as a fresh instance
would.
-/

namespace Blackwire.Core

open Schema Routing Router Failure List Except

/-! ### The comparison -/

/-- The first inbound with the tag. -/
def findInbound (tag : String) (inbounds : List InboundConfig) : Option InboundConfig :=
  inbounds.find? fun cfg => cfg.tag = tag

/-- The inbounds that are new, or whose address has changed. -/
def inboundListenerChanges (old new : Config) : List String :=
  (new.inbounds.filter fun cfg => (findInbound cfg.tag old.inbounds).all fun before =>
      before.listen ≠ cfg.listen ∨ before.port ≠ cfg.port).map (fun cfg => cfg.tag) ++
    (new.inbounds.filter fun cfg => !old.inbounds.any fun before => before.tag = cfg.tag).map
      fun cfg => cfg.tag

/-- An inbound without what a reload refreshes. -/
def normalizedInbound (cfg : InboundConfig) : InboundConfig :=
  { cfg with
    sniffing := none
    settings := if cfg.protocol = .vless then cfg.settings.remove "clients" else cfg.settings }

/-- `requires_instance_restart`. -/
def requiresInstanceRestart (old new : Config) : Bool :=
  inboundListenerChanges old new ≠ [] ∨ old.metricsAddr ≠ new.metricsAddr ∨ old.api ≠ new.api ∨
    old.tun ≠ new.tun ∨ old.outbounds ≠ new.outbounds ∨
    old.inbounds.length ≠ new.inbounds.length ∨
    new.inbounds.any fun cfg => (findInbound cfg.tag old.inbounds).all fun before =>
      normalizedInbound before ≠ normalizedInbound cfg

variable {old new : Config} {cfg : InboundConfig} {config : Config} {handler : InboundHandler}

theorem requiresInstanceRestart_eq_false (h : requiresInstanceRestart old new = false) :
    old.outbounds = new.outbounds ∧ old.inbounds.length = new.inbounds.length ∧
      ∀ cfg ∈ new.inbounds, ∃ before, findInbound cfg.tag old.inbounds = some before ∧
        normalizedInbound before = normalizedInbound cfg := by
  simp only [requiresInstanceRestart, decide_eq_false_iff_not, not_or, not_not] at h
  obtain ⟨-, -, -, -, houtbounds, hlength, hany⟩ := h
  refine ⟨houtbounds, hlength, fun cfg hcfg => ?_⟩
  rw [any_eq_true] at hany
  cases hbefore : findInbound cfg.tag old.inbounds with
  | none => exact absurd ⟨cfg, hcfg, by rw [hbefore]; rfl⟩ hany
  | some before =>
    by_contra hne
    exact hany ⟨cfg, hcfg, by rw [hbefore]; simpa using hne⟩

/-! ### Listeners -/

def InboundHandler.vlessTag? : InboundHandler → Option String
  | .vless tag _ _ => some tag
  | _ => none

def Listener.vlessTag? : Listener → Option String
  | .mkcp _ handler _ => handler.vlessTag?
  | .quic _ _ _ handler _ => handler.vlessTag?
  | .tcp _ _ _ handler _ => handler.vlessTag?
  | .hysteria2 _ | .ss2022Udp _ _ _ => none

theorem vlessTag?_buildInbound {env : Env} {registries : Registries}
    {built : InboundHandler × Registries} (hvless : cfg.protocol ≠ .vless)
    (h : buildInbound env config registries cfg = .ok built) : built.1.vlessTag? = none := by
  unfold buildInbound at h
  cases hprotocol : cfg.protocol with
  | vless => exact absurd hprotocol hvless
  | socks | http =>
    simp only [hprotocol] at h
    obtain rfl := ok.inj h
    rfl
  | trojan =>
    simp only [hprotocol] at h
    obtain ⟨handler, hhandler, rfl⟩ := map_eq_ok.1 h
    obtain ⟨clients, -, hhandler⟩ := bind_eq_ok.1 (withContext_eq_ok.1 hhandler)
    obtain ⟨passwords, -, hhandler⟩ := bind_eq_ok.1 hhandler
    obtain ⟨-, -, hhandler⟩ := bind_eq_ok.1 hhandler
    obtain rfl := ok.inj hhandler
    rfl
  | vmess =>
    simp only [hprotocol] at h
    obtain ⟨handler, hhandler, rfl⟩ := map_eq_ok.1 h
    obtain ⟨clients, -, hhandler⟩ := bind_eq_ok.1 (withContext_eq_ok.1 hhandler)
    obtain ⟨-, -, hhandler⟩ := bind_eq_ok.1 hhandler
    obtain ⟨users, -, hhandler⟩ := bind_eq_ok.1 hhandler
    obtain rfl := ok.inj hhandler
    rfl
  | shadowsocks =>
    simp only [hprotocol] at h
    obtain ⟨handler, hhandler, rfl⟩ := map_eq_ok.1 h
    obtain ⟨password, -, hhandler⟩ := bind_eq_ok.1 (withContext_eq_ok.1 hhandler)
    obtain rfl := ok.inj hhandler
    rfl
  | hysteria2 | shadowTls | freedom =>
    simp only [hprotocol] at h
    cases h

theorem vlessTag?_handlerFor {env : Env} (h : handlerFor env config cfg = some handler) :
    handler.vlessTag? = if cfg.protocol = .vless then some cfg.tag else none := by
  unfold handlerFor at h
  split_ifs at h ⊢ with hvless
  · obtain rfl := Option.some.inj h
    rfl
  · obtain ⟨built, hbuilt, rfl⟩ := Option.map_eq_some_iff.1 h
    exact vlessTag?_buildInbound hvless (toOption_eq_some.1 hbuilt)

section Listeners

variable [Text] {env : Env}

theorem vlessTag?_transportListener {limits : LimitsConfig} {addr : SocketAddr}
    {listener : Listener} (h : transportListener env limits cfg addr handler = some listener) :
    listener.vlessTag? = handler.vlessTag? := by
  unfold transportListener at h
  split_ifs at h
  all_goals
    obtain ⟨_, -, rfl⟩ := Option.map_eq_some_iff.1 h
    rfl

theorem mem_listenersOf {listener : Listener} {tag : String}
    (h : listener ∈ listenersOf env config cfg) (htag : listener.vlessTag? = some tag) :
    cfg.protocol = .vless ∧ cfg.tag = tag := by
  obtain ⟨-, _, rfl⟩ | ⟨-, _, _, rfl⟩ | ⟨-, addr, handler, hhandler, hlistener⟩ :=
    mem_listenersOf_cases h
  · cases htag
  · cases htag
  · rw [vlessTag?_transportListener hlistener, vlessTag?_handlerFor hhandler] at htag
    split_ifs at htag with hvless
    exact ⟨hvless, Option.some.inj htag⟩

theorem exists_vlessTag (hvless : cfg.protocol = .vless) (h : listenersOf env config cfg ≠ []) :
    ∃ listener ∈ listenersOf env config cfg, listener.vlessTag? = some cfg.tag := by
  obtain ⟨listener, hmem⟩ := exists_mem_of_ne_nil _ h
  refine ⟨listener, hmem, ?_⟩
  obtain ⟨hother, -⟩ | ⟨hother, -⟩ | ⟨-, addr, handler, hhandler, hlistener⟩ :=
    mem_listenersOf_cases hmem
  · cases hvless.symm.trans hother
  · cases hvless.symm.trans hother
  · rw [vlessTag?_transportListener hlistener, vlessTag?_handlerFor hhandler, if_pos hvless]

theorem exists_vless_of_perm (hperm : (old.inbounds.flatMap (listenersOf env old)).Perm
      (new.inbounds.flatMap (listenersOf env new))) (hcfg : cfg ∈ old.inbounds)
    (hvless : cfg.protocol = .vless) (h : listenersOf env old cfg ≠ []) :
    ∃ after ∈ new.inbounds, after.protocol = .vless ∧ after.tag = cfg.tag := by
  obtain ⟨listener, hmem, htag⟩ := exists_vlessTag hvless h
  obtain ⟨after, hafter, hlistener⟩ :=
    mem_flatMap.1 (hperm.subset (mem_flatMap.2 ⟨cfg, hcfg, hmem⟩))
  exact ⟨after, hafter, mem_listenersOf hlistener htag⟩

end Listeners

/-! ### Registries -/

theorem registries_reloaded {env : Env} (hrestart : requiresInstanceRestart old new = false)
    (htags : ∀ cfg ∈ old.inbounds, cfg.protocol = .vless →
      ∃ after ∈ new.inbounds, after.protocol = .vless ∧ after.tag = cfg.tag) :
    writeAll env (refreshedInbounds new (registriesOf env old)) (registriesOf env old) =
      registriesOf env new := by
  obtain ⟨-, -, hfind⟩ := requiresInstanceRestart_eq_false hrestart
  have hrefreshed : refreshedInbounds new (registriesOf env old) = vlessInbounds new := by
    refine filter_congr fun cfg hcfg => decide_eq_decide.2 (and_iff_left_of_imp fun hvless => ?_)
    obtain ⟨before, hbefore, heq⟩ := hfind cfg hcfg
    have hmem := mem_of_find?_eq_some hbefore
    have htag : before.tag = cfg.tag := by simpa using List.find?_some hbefore
    have hprotocol : (normalizedInbound before).protocol = (normalizedInbound cfg).protocol := by
      rw [heq]
    rw [← htag]
    exact registriesOf_isSome (mem_vlessInbounds.2 ⟨hmem, hprotocol.trans hvless⟩)
  funext tag
  rw [hrefreshed, writeAll_apply, registriesOf_apply env new]
  cases hlast : lastFor tag (vlessInbounds new) with
  | some cfg => rfl
  | none =>
    rw [Option.elim_none, Option.map_none, registriesOf_apply, Option.map_eq_none_iff]
    -- an old inbound under the tag would have a successor
    by_contra hsome
    obtain ⟨cfg, hcfg⟩ := Option.ne_none_iff_exists'.1 hsome
    obtain ⟨hmem, htag⟩ := mem_of_lastFor hcfg
    obtain ⟨hmem, hvless⟩ := mem_vlessInbounds.1 hmem
    obtain ⟨after, hafter, hvless', htag'⟩ := htags cfg hmem hvless
    obtain ⟨last, hsome⟩ := exists_lastFor (mem_vlessInbounds.2 ⟨hafter, hvless'⟩)
    rw [htag', htag, hlast] at hsome
    cases hsome

/-! ### Rules -/

theorem load_fresh {α : Type} (files : String → String → Option α)
    (fingerprint : String → Option (UInt64 × ℕ)) (path : Option String) :
    (({} : CacheEntry α).load files fingerprint path).matchers =
      path.elim (fun _ => none) files := by
  cases path <;> simp [CacheEntry.load]

theorem routerOf_fresh {IpNet : Type} [IpNetApi IpNet] (files : GeoFiles IpNet) (config : Config)
    (rules : List (CompiledRule IpNet)) :
    routerOf config rules (loadGeoDataCached files config {}) =
      routerOf config rules (loadGeoData files config) := by
  simp only [routerOf, loadGeoDataCached, loadGeoData, load_fresh]

section Rules

variable {toUppercase : String → String} {IpNet : Type} [IpNetApi IpNet] [Text] [Automata]
  {tags' tags : List String}

theorem buildRule_unique {rule : RoutingRule} {compiled compiled' : CompiledRule IpNet}
    (h : buildRule toUppercase tags rule = .ok compiled)
    (h' : buildRule toUppercase tags' rule = .ok compiled') : compiled = compiled' := by
  obtain ⟨-, -, h⟩ := bind_eq_ok.1 h
  obtain ⟨-, -, h'⟩ := bind_eq_ok.1 h'
  exact ok.inj (h.symm.trans h')

theorem buildRules_unique {rules : List RoutingRule}
    {compiled compiled' : List (CompiledRule IpNet)}
    (h : buildRules toUppercase rules tags = .ok compiled)
    (h' : buildRules toUppercase rules tags' = .ok compiled') : compiled = compiled' := by
  unfold buildRules at h h'
  induction rules generalizing compiled compiled' with
  | nil => exact ok.inj (h.symm.trans h')
  | cons rule rules ih =>
    rw [mapM_cons] at h h'
    obtain ⟨first, hfirst, h⟩ := bind_eq_ok.1 h
    obtain ⟨rest, hrest, h⟩ := bind_eq_ok.1 h
    obtain ⟨first', hfirst', h'⟩ := bind_eq_ok.1 h'
    obtain ⟨rest', hrest', h'⟩ := bind_eq_ok.1 h'
    rw [← ok.inj h, ← ok.inj h', buildRule_unique hfirst hfirst', ih hrest hrest']

theorem configRules_unique {rules rules' : List (CompiledRule IpNet)}
    (h : configRules toUppercase config tags = .ok rules)
    (h' : configRules toUppercase config tags' = .ok rules') : rules = rules' := by
  unfold configRules at h h'
  cases hrouting : config.routing with
  | none =>
    rw [hrouting] at h h'
    exact ok.inj (h.symm.trans h')
  | some routing =>
    rw [hrouting] at h h'
    exact buildRules_unique h h'

end Rules

/-! ### Outbounds -/

section Outbounds

variable [Text] {env : Env} {dns dns' : Option DnsModuleConfig} {old new : Config}
  {handlers handlers' : OutboundMap}
  (hhandlers : buildOutbounds env dns old new.outbounds [] = .ok handlers)
  (hhandlers' : buildOutbounds env dns' new new.outbounds [] = .ok handlers')

theorem buildOutbound_eq_iff {cfg : OutboundConfig} {handler handler' : OutboundHandler}
    (h : buildOutbound env dns old cfg = .ok handler)
    (h' : buildOutbound env dns' new cfg = .ok handler') :
    handler = handler' ↔ (cfg.protocol = .freedom → dns = dns' ∧
      freedomPoolConfig old cfg.settings = freedomPoolConfig new cfg.settings) := by
  obtain ⟨-, -, h⟩ := bind_eq_ok.1 h
  obtain ⟨-, -, h'⟩ := bind_eq_ok.1 h'
  cases hprotocol : cfg.protocol with
  | freedom =>
    simp only [hprotocol] at h h'
    rw [← ok.inj h, ← ok.inj h']
    simp
  | _ =>
    simp only [hprotocol] at h h'
    have heq := h.symm.trans h'
    simp only [reduceCtorEq, false_imp_iff, iff_true]
    exact ok.inj heq

/-- The pools of the freedom outbounds are the same. -/
def SamePools (old new : Config) : Prop :=
  ∀ cfg ∈ new.outbounds, cfg.protocol = .freedom → lastOutbound cfg.tag new.outbounds = some cfg →
    freedomPoolConfig old cfg.settings = freedomPoolConfig new cfg.settings

include hhandlers hhandlers'

theorem handlers_eq_of_pools (hdns : dns = dns') (hpools : SamePools old new) (tag : String) :
    handlers.lookup tag = handlers'.lookup tag := by
  obtain ⟨hall, hlookup⟩ := buildOutbounds_ok hhandlers
  obtain ⟨hall', hlookup'⟩ := buildOutbounds_ok hhandlers'
  rw [hlookup, hlookup']
  cases hlast : lastOutbound tag new.outbounds with
  | none => rfl
  | some cfg =>
    obtain ⟨hmem, rfl⟩ : cfg ∈ new.outbounds ∧ cfg.tag = tag := by simpa using mem_of_getLast? hlast
    obtain ⟨handler, hhandler⟩ := hall cfg hmem
    obtain ⟨handler', hhandler'⟩ := hall' cfg hmem
    have heq : handler = handler' := (buildOutbound_eq_iff hhandler hhandler').2 fun hfreedom =>
      ⟨hdns, hpools cfg hmem hfreedom hlast⟩
    rw [Option.elim_some, Option.elim_some, hhandler, hhandler', heq]

theorem pools_of_handlers_eq (h : ∀ tag, handlers.lookup tag = handlers'.lookup tag) :
    SamePools old new := by
  intro cfg hmem hfreedom hlast
  obtain ⟨hall, hlookup⟩ := buildOutbounds_ok hhandlers
  obtain ⟨hall', hlookup'⟩ := buildOutbounds_ok hhandlers'
  obtain ⟨handler, hhandler⟩ := hall cfg hmem
  obtain ⟨handler', hhandler'⟩ := hall' cfg hmem
  have heq := h cfg.tag
  rw [hlookup, hlookup', hlast, Option.elim_some, Option.elim_some, hhandler, hhandler'] at heq
  obtain rfl := OutboundEntry.handler.inj (Option.some.inj heq)
  exact ((buildOutbound_eq_iff hhandler hhandler').1 rfl hfreedom).2

end Outbounds

section Balancers

variable [Text] {env : Env} {dns dns' : Option DnsModuleConfig} {config config' : Config}
  {outbounds outbounds' : List OutboundConfig} {balancers balancers' : List BalancerConfig}
  {handlers handlers' final final' : OutboundMap}

theorem le_and_subset_of_le (hhandlers : buildOutbounds env dns config outbounds [] = .ok handlers)
    (hhandlers' : buildOutbounds env dns' config' outbounds' [] = .ok handlers')
    (hbalancers : (startBalancers balancers handlers).result = .ok final)
    (hbalancers' : (startBalancers balancers' handlers').result = .ok final')
    (h : final.Le final') : handlers.Le handlers' ∧ balancers ⊆ balancers' := by
  obtain ⟨hle, hholds, -⟩ := startBalancers_ok hbalancers
  obtain ⟨-, -, honly⟩ := startBalancers_ok hbalancers'
  refine ⟨fun tag entry hlookup => ?_, fun cfg hcfg => ?_⟩
  · obtain ⟨handler, rfl⟩ := handler_of_lookup hhandlers hlookup
    rcases honly tag _ (h tag _ (hle tag _ hlookup)) with hfound | ⟨_, -, -, _, heq⟩
    · exact hfound
    · cases heq
  · obtain ⟨members, hlookup, -⟩ := hholds cfg hcfg
    rcases honly cfg.tag _ (h cfg.tag _ hlookup) with hfound | ⟨cfg', hcfg', -, members', heq⟩
    · obtain ⟨handler, heq⟩ := handler_of_lookup hhandlers' hfound
      cases heq
    · obtain ⟨rfl, -⟩ := OutboundEntry.balancer.inj heq
      exact hcfg'

end Balancers

/-! ### Connections after a reload -/

section Alike

variable {IpNet : Type} [IpNetApi IpNet]

/-- Two instances with the same behaviour. -/
structure Alike (a b : Instance IpNet) : Prop where
  listeners : a.listeners.Perm b.listeners
  registries : ∀ tag, SameRegistry (a.reload.registries tag) (b.reload.registries tag)
  sniffing : a.reload.sniffing = b.reload.sniffing
  router : a.reload.router = b.reload.router
  outbounds : ∀ tag, a.outbounds.lookup tag = b.outbounds.lookup tag
  dns : a.dns = b.dns
  profile : a.profile = b.profile
  splicePolicy : a.splicePolicy = b.splicePolicy

variable [Text]

/-- The configurations agree in what a reload does not refresh. -/
structure Unaffected (env : Env) (old new : Config) : Prop where
  dns : old.dns.map dnsModuleConfig = new.dns.map dnsModuleConfig
  profile : old.profile = new.profile
  splicePolicy : splicePolicyForProfile old = splicePolicyForProfile new
  pools : SamePools old new
  balancers : ∀ cfg, cfg ∈ balancersOf old ↔ cfg ∈ balancersOf new
  listeners : (old.inbounds.flatMap (listenersOf env old)).Perm
    (new.inbounds.flatMap (listenersOf env new))

variable [Automata] {env : Env} {toUppercase : String → String} {files files' : GeoFiles IpNet}
  {old new : Config} {inst fresh : Instance IpNet}

/-- The instance behind a reload. -/
def Instance.reloaded (env : Env) (toUppercase : String → String) (files : GeoFiles IpNet)
    (config : Config) (inst : Instance IpNet) : Instance IpNet :=
  { inst with reload := (inst.reload.apply env toUppercase files config).1 }

theorem outbounds_eq_iff (hinst : Built env toUppercase files old inst)
    (hfresh : Built env toUppercase files' new fresh) (houtbounds : old.outbounds = new.outbounds)
    (hdns : old.dns.map dnsModuleConfig = new.dns.map dnsModuleConfig) :
    (∀ tag, inst.outbounds.lookup tag = fresh.outbounds.lookup tag) ↔
      SamePools old new ∧ ∀ cfg, cfg ∈ balancersOf old ↔ cfg ∈ balancersOf new := by
  obtain ⟨handlers, hhandlers, hbalancers⟩ := hinst.outbounds
  obtain ⟨handlers', hhandlers', hbalancers'⟩ := hfresh.outbounds
  rw [houtbounds] at hhandlers
  obtain ⟨hle, hholds, -⟩ := startBalancers_ok hbalancers
  obtain ⟨hle', hholds', -⟩ := startBalancers_ok hbalancers'
  constructor
  · intro heq
    have hforward : inst.outbounds.Le fresh.outbounds := fun tag entry h => heq tag ▸ h
    have hbackward : fresh.outbounds.Le inst.outbounds := fun tag entry h => (heq tag).symm ▸ h
    obtain ⟨hhandlersLe, hsubset⟩ :=
      le_and_subset_of_le hhandlers hhandlers' hbalancers hbalancers' hforward
    obtain ⟨hhandlersLe', hsubset'⟩ :=
      le_and_subset_of_le hhandlers' hhandlers hbalancers' hbalancers hbackward
    refine ⟨?_, fun cfg => ⟨fun hcfg => hsubset hcfg, fun hcfg => hsubset' hcfg⟩⟩
    exact pools_of_handlers_eq hhandlers hhandlers' (hhandlersLe.antisymm hhandlersLe')
  · rintro ⟨hpools, hsame⟩ tag
    have hhandlersEq := handlers_eq_of_pools hhandlers hhandlers' hdns hpools
    have hforward : inst.outbounds.Le fresh.outbounds := by
      refine startBalancers_le hbalancers ?_ fun cfg hcfg => hholds' cfg ((hsame cfg).1 hcfg)
      intro tag entry hlookup
      exact hle' tag entry (hhandlersEq tag ▸ hlookup)
    have hbackward : fresh.outbounds.Le inst.outbounds := by
      refine startBalancers_le hbalancers' ?_ fun cfg hcfg => hholds cfg ((hsame cfg).2 hcfg)
      intro tag entry hlookup
      exact hle tag entry (hhandlersEq tag ▸ hlookup)
    exact hforward.antisymm hbackward tag

theorem reloaded_reload (hinst : Built env toUppercase files old inst)
    (hfresh : Built env toUppercase files' new fresh)
    (happly : (inst.reload.apply env toUppercase files' new).2 = .ok ()) :
    (inst.reload.apply env toUppercase files' new).1 =
      { fresh.reload with
        registries := writeAll env (refreshedInbounds new (registriesOf env old))
          (registriesOf env old)
        geoCache := loadGeoDataCached files' new {} } := by
  obtain ⟨rules, hrules, hreload⟩ := hfresh.rules
  obtain ⟨rulesOld, -, hreloadOld⟩ := hinst.rules
  have hcache : inst.reload.geoCache = {} := by rw [hreloadOld]; rfl
  cases hcollected : (configRules toUppercase new (collectOutboundTags new) :
      Except Failure (List (CompiledRule IpNet))) with
  | error e =>
    rw [ReloadState.apply, hcollected] at happly
    cases happly
  | ok rules' =>
    obtain rfl := configRules_unique hrules hcollected
    obtain ⟨hstate, hok⟩ := apply_of_rules env files' toUppercase hcollected inst.reload
    rw [hstate, written, attempted_of_forall (hok.1 happly), hreload, hinst.registries]
    simp only [ReloadState.store, hcache, routerOf_fresh, freshReloadState]

/-- **Reloads and restarts.**  For every two configurations from which instances can be built, on
any two machines with the same files, and between which `requires_instance_restart` does not ask for
a restart: after a reload that succeeds the running instance treats connections as a fresh one does
exactly if what is neither compared nor refreshed is as it was. -/
theorem alike_iff (env : Env) (host host' : Host) (toUppercase : String → String)
    (files files' : GeoFiles IpNet) (old new : Config) (inst fresh : Instance IpNet)
    (hinst : (fromConfig env host toUppercase files old).result = .ok inst)
    (hrestart : requiresInstanceRestart old new = false)
    (happly : (inst.reload.apply env toUppercase files' new).2 = .ok ())
    (hfresh : (fromConfig env host' toUppercase files' new).result = .ok fresh) :
    Alike (inst.reloaded env toUppercase files' new) fresh ↔ Unaffected env old new := by
  have hbuilt := fromConfig_ok hinst
  have hbuilt' := fromConfig_ok hfresh
  obtain ⟨houtbounds, -, -⟩ := requiresInstanceRestart_eq_false hrestart
  have hreload := reloaded_reload hbuilt hbuilt' happly
  constructor
  · intro halike
    have hdns : old.dns.map dnsModuleConfig = new.dns.map dnsModuleConfig := by
      rw [← hbuilt.dns, ← hbuilt'.dns]
      exact halike.dns
    obtain ⟨hpools, hbalancers⟩ :=
      (outbounds_eq_iff hbuilt hbuilt' houtbounds hdns).1 halike.outbounds
    refine ⟨hdns, ?_, ?_, hpools, hbalancers, ?_⟩
    · rw [← hbuilt.profile, ← hbuilt'.profile]
      exact halike.profile
    · rw [← hbuilt.splicePolicy, ← hbuilt'.splicePolicy]
      exact halike.splicePolicy
    · rw [← hbuilt.listeners, ← hbuilt'.listeners]
      exact halike.listeners
  · intro hsame
    have hvless (cfg : InboundConfig) (hcfg : cfg ∈ old.inbounds) (h : cfg.protocol = .vless) :=
      exists_vless_of_perm hsame.listeners hcfg h (hbuilt.wellFormed cfg hcfg h).2
    have hregistries : (inst.reload.apply env toUppercase files' new).1.registries =
        fresh.reload.registries := by
      rw [hreload, hbuilt'.registries]
      exact registries_reloaded hrestart hvless
    refine ⟨?_, fun tag => ?_, ?_, ?_, ?_, ?_, ?_, ?_⟩
    · show inst.listeners.Perm fresh.listeners
      rw [hbuilt.listeners, hbuilt'.listeners]
      exact hsame.listeners
    · show SameRegistry ((inst.reload.apply env toUppercase files' new).1.registries tag) _
      rw [hregistries]
      exact .refl _
    · show (inst.reload.apply env toUppercase files' new).1.sniffing = _
      rw [hreload]
    · show (inst.reload.apply env toUppercase files' new).1.router = _
      rw [hreload]
    · exact (outbounds_eq_iff hbuilt hbuilt' houtbounds hsame.dns).2
        ⟨hsame.pools, hsame.balancers⟩
    · show inst.dns = fresh.dns
      rw [hbuilt.dns, hbuilt'.dns, hsame.dns]
    · show inst.profile = fresh.profile
      rw [hbuilt.profile, hbuilt'.profile, hsame.profile]
    · show inst.splicePolicy = fresh.splicePolicy
      rw [hbuilt.splicePolicy, hbuilt'.splicePolicy, hsame.splicePolicy]

end Alike

def plainConfig : Config := withInbounds [socksOn "a" anyV4 1080]

def ruledConfig : Config :=
  { plainConfig with
    routing := some { rules := [{ inboundTag := ["a"], outboundTag := "direct" }] } }

/-- A rule that is added while the instance runs takes effect as in a fresh instance. -/
theorem alike_new_rule :
    letI := plainAutomata
    ∃ inst fresh, (labStart plainConfig).result = .ok inst ∧
      (labStart ruledConfig).result = .ok fresh ∧
      requiresInstanceRestart plainConfig ruledConfig = false ∧
      (inst.reload.apply labEnv id noGeoFiles ruledConfig).2 = .ok () ∧
      Alike (inst.reloaded labEnv id noGeoFiles ruledConfig) fresh := by
  let _ := plainAutomata
  refine ⟨_, _, rfl, rfl, by decide, rfl, ?_⟩
  refine (alike_iff labEnv labHost labHost id noGeoFiles noGeoFiles plainConfig ruledConfig _ _ rfl
    (by decide) rfl rfl).2 ⟨rfl, rfl, rfl, fun _ _ _ _ => rfl, fun _ => Iff.rfl, .refl _⟩

def resolverConfig : Config := { plainConfig with dns := some ⟨["1.1.1.1"], none⟩ }

/-- A resolver is configured while the instance runs.  No restart is asked for, the reload succeeds,
and the outbound goes on without the resolver. -/
theorem reload_keeps_resolver :
    letI := plainAutomata
    ∃ inst fresh, (labStart plainConfig).result = .ok inst ∧
      (labStart resolverConfig).result = .ok fresh ∧
      plainConfig.validate ∧ resolverConfig.validate ∧
      requiresInstanceRestart plainConfig resolverConfig = false ∧
      (inst.reload.apply labEnv id noGeoFiles resolverConfig).2 = .ok () ∧
      (inst.reloaded labEnv id noGeoFiles resolverConfig).outbounds.lookup "direct" =
        some (.handler (.freedom "direct" none none)) ∧
      fresh.outbounds.lookup "direct" = some (.handler (.freedom "direct"
        (some ⟨["1.1.1.1"], false, "198.18.0.0/15"⟩) none)) ∧
      ¬ Alike (inst.reloaded labEnv id noGeoFiles resolverConfig) fresh := by
  refine ⟨_, _, rfl, rfl, by decide, by decide, by decide, rfl, rfl, rfl, fun halike => ?_⟩
  exact absurd halike.dns (by decide)

end Blackwire.Core
