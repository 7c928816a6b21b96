import Blackwire.Core.Instance

/-!
# What an instance is built from

`Instance::from_config` mixes checks, system calls and construction.  Here is what an instance that
was built holds, as functions of the configuration alone.
-/

namespace Blackwire.Core

open Schema Json Routing Router Failure List Acquire Option Except

/-! ### Listeners and registries -/

def vlessInbounds (config : Config) : List InboundConfig :=
  config.inbounds.filter fun cfg => cfg.protocol = .vless

variable {cfg : InboundConfig} {config : Config} {registries : Registries} {map other : OutboundMap}
  {tag : String} {outbounds : List OutboundConfig} {dns : Option DnsModuleConfig}
  {handlers : OutboundMap}

theorem mem_vlessInbounds :
    cfg ∈ vlessInbounds config ↔ cfg ∈ config.inbounds ∧ cfg.protocol = .vless := by
  simp [vlessInbounds]

theorem mem_refreshedInbounds :
    cfg ∈ refreshedInbounds config registries ↔
      cfg ∈ vlessInbounds config ∧ (registries cfg.tag).isSome := by
  rw [refreshedInbounds, mem_filter, decide_eq_true_iff, mem_vlessInbounds, and_assoc]
  rfl

def registriesOf (env : Env) (config : Config) : Registries :=
  writeAll env (vlessInbounds config) fun _ => none

theorem registriesOf_apply (env : Env) (config : Config) (tag : String) :
    registriesOf env config tag =
      (lastFor tag (vlessInbounds config)).map fun cfg => (populateVlessRegistry env cfg).1 := by
  rw [registriesOf, writeAll_apply]
  cases lastFor tag (vlessInbounds config) <;> rfl

theorem registriesOf_isSome {env : Env} (h : cfg ∈ vlessInbounds config) :
    (registriesOf env config cfg.tag).isSome := by
  obtain ⟨last, hlast⟩ := exists_lastFor h
  rw [registriesOf_apply, hlast]
  rfl

section Inbounds

theorem toOption_eq_some {ε α : Type} {result : Except ε α} {a : α} :
    result.toOption = some a ↔ result = .ok a := by
  cases result <;> simp [Except.toOption]

def udpListeners (cfg : InboundConfig) (addr : SocketAddr) : List Listener :=
  if OverUdp cfg then
    (((cfg.settings.get "password").bind Value.asStr).map (Listener.ss2022Udp cfg.tag addr)).toList
  else []

theorem udpListeners_eq_nil (h : cfg.protocol ≠ .shadowsocks) (addr : SocketAddr) :
    udpListeners cfg addr = [] := if_neg fun hudp => h hudp.1

variable {env : Env} {host : Host} {built : InboundHandler × Registries} {n : ℕ}

theorem buildVlessInbound_ok {timeout : Option UInt64}
    (h : buildVlessInbound env registries cfg timeout = .ok built) :
    WellFormed env cfg ∧
      built = (vlessInbound env cfg timeout,
        registries.set cfg.tag (populateVlessRegistry env cfg).1) := by
  obtain ⟨⟨⟩, hok, h⟩ := bind_eq_ok.1 h
  exact ⟨hok, (ok.inj h).symm⟩

theorem startUdp_ok {addr : SocketAddr} {udp : List Listener}
    (h : (startUdp host n cfg addr).result = .ok udp) : udp = udpListeners cfg addr := by
  unfold startUdp at h
  unfold udpListeners
  split_ifs at h ⊢ with hudp
  · obtain ⟨password, hpassword, h⟩ := result_bind_eq_ok.1 h
    obtain ⟨-, -, h⟩ := result_bind_eq_ok.1 h
    obtain rfl := ok.inj h
    rw [okOr_eq_ok.1 hpassword]
    rfl
  · exact (ok.inj h).symm

variable (env) in
def handlerFor (config : Config) (cfg : InboundConfig) : Option InboundHandler :=
  if cfg.protocol = .vless then some (vlessInbound env cfg (handshakeTimeoutFor cfg config.limits))
  else (buildInbound env config (fun _ => none) cfg).toOption.map fun built => built.1

theorem buildInbound_ok (h : buildInbound env config registries cfg = .ok built) :
    handlerFor env config cfg = some built.1 ∧
      built.2 = writeAll env ([cfg].filter fun c => c.protocol = .vless) registries ∧
      (cfg.protocol = .vless → WellFormed env cfg) := by
  unfold handlerFor
  unfold buildInbound at h ⊢
  cases hprotocol : cfg.protocol with
  | vless =>
    simp only [hprotocol] at h
    obtain ⟨hwell, rfl⟩ := buildVlessInbound_ok (withContext_eq_ok.1 h)
    refine ⟨rfl, ?_, fun _ => hwell⟩
    simp [writeAll, hprotocol]
  | socks | http =>
    simp only [hprotocol] at h ⊢
    obtain rfl := Except.ok.inj h
    simp [writeAll, hprotocol, Except.toOption]
  | trojan | vmess | shadowsocks =>
    simp only [hprotocol] at h ⊢
    obtain ⟨handler, hhandler, rfl⟩ := map_eq_ok.1 h
    rw [hhandler]
    simp [writeAll, hprotocol, Except.map, Except.toOption]
  | hysteria2 | shadowTls | freedom =>
    simp only [hprotocol] at h
    cases h

variable [Text]

variable (env) in
def transportListener (limits : LimitsConfig) (cfg : InboundConfig) (addr : SocketAddr)
    (handler : InboundHandler) : Option Listener :=
  let maxConnections := maxConnectionsFor cfg limits
  if usesNetwork cfg.streamSettings .kcp then
    (buildMkcpConfig addr cfg.streamSettings).toOption.map fun mkcp =>
      .mkcp mkcp handler maxConnections
  else if usesNetwork cfg.streamSettings .quic then
    (quicPems env cfg).toOption.map fun pems => .quic addr pems.1 pems.2 handler maxConnections
  else
    (connHandlerFor env cfg).toOption.map fun layers =>
      .tcp addr layers (layerTimeout layers (handshakeTimeoutFor cfg limits)) handler maxConnections

variable (env) in
def listenersOf (config : Config) (cfg : InboundConfig) : List Listener :=
  (listenAddr cfg).elim [] fun addr =>
    if cfg.protocol = .hysteria2 then
      ((parseServerConfig env cfg addr).toOption.map Listener.hysteria2).toList
    else if udpListeners cfg addr ≠ [] ∧ ssNetwork cfg = "udp" then udpListeners cfg addr
    else udpListeners cfg addr ++
      ((handlerFor env config cfg).bind (transportListener env config.limits cfg addr)).toList

theorem startTransport_ok {addr : SocketAddr} {handler : InboundHandler} {listener : Listener}
    (h : (startTransport env host n config cfg addr handler).result = .ok listener) :
    transportListener env config.limits cfg addr handler = some listener := by
  unfold startTransport at h
  unfold transportListener
  split_ifs at h ⊢ with hkcp hquic
  · obtain ⟨mkcp, hmkcp, h⟩ := result_bind_eq_ok.1 h
    obtain rfl := ok.inj h
    rw [lift_eq_ok.1 (withContext_eq_ok.1 hmkcp)]
    rfl
  · obtain ⟨pems, hpems, h⟩ := result_bind_eq_ok.1 h
    obtain ⟨-, -, h⟩ := result_bind_eq_ok.1 h
    obtain rfl := ok.inj h
    have hok : quicPems env cfg = .ok pems := hpems
    rw [hok]
    rfl
  · obtain ⟨layers, hlayers, h⟩ := result_bind_eq_ok.1 h
    obtain ⟨-, -, h⟩ := result_bind_eq_ok.1 h
    obtain rfl := ok.inj h
    have hok : connHandlerFor env cfg = .ok layers := hlayers
    rw [hok]
    rfl

variable {started : List Listener × Registries}

theorem startInbound_ok (h : (startInbound env host config n registries cfg).result = .ok started) :
    started.1 = listenersOf env config cfg ∧
      started.2 = writeAll env ([cfg].filter fun c => c.protocol = .vless) registries ∧
      started.1 ≠ [] ∧ (cfg.protocol = .vless → WellFormed env cfg) := by
  obtain ⟨-, -, h⟩ := result_bind_eq_ok.1 h
  obtain ⟨addr, haddr, h⟩ := result_bind_eq_ok.1 h
  have haddr : listenAddr cfg = some addr := okOr_eq_ok.1 haddr
  unfold startListeners at h
  unfold listenersOf
  rw [haddr, elim_some]
  split_ifs at h ⊢ with hhysteria hudp
  · obtain ⟨listener, hlistener, h⟩ := result_bind_eq_ok.1 h
    obtain ⟨listen, hlisten, hlistener⟩ := result_bind_eq_ok.1 hlistener
    obtain rfl := Except.ok.inj hlistener
    obtain rfl := Except.ok.inj h
    have hok : parseServerConfig env cfg addr = .ok listen := withContext_eq_ok.1 hlisten
    simp [hok, Except.toOption, writeAll, hhysteria]
  · obtain ⟨udp, hstarted, h⟩ := result_bind_eq_ok.1 h
    obtain rfl := startUdp_ok hstarted
    rw [if_pos hudp] at h
    obtain rfl := Except.ok.inj h
    have hvless : cfg.protocol ≠ .vless := by
      intro hvless
      exact hudp.1 (udpListeners_eq_nil (by simp [hvless]) addr)
    simp [writeAll, hvless, hudp.1]
  · obtain ⟨udp, hstarted, h⟩ := result_bind_eq_ok.1 h
    obtain rfl := startUdp_ok hstarted
    rw [if_neg hudp] at h
    obtain ⟨stream, hstream, h⟩ := result_bind_eq_ok.1 h
    obtain rfl := Except.ok.inj h
    obtain ⟨built, hbuilt, hstream⟩ := result_bind_eq_ok.1 hstream
    obtain ⟨listener, hlistener, hstream⟩ := result_bind_eq_ok.1 hstream
    obtain rfl := Except.ok.inj hstream
    obtain ⟨hhandler, hregistries, hwell⟩ := buildInbound_ok hbuilt
    rw [hhandler, bind_some, startTransport_ok hlistener]
    exact ⟨rfl, hregistries, by simp, hwell⟩

theorem mem_listenersOf_cases {listener : Listener} (h : listener ∈ listenersOf env config cfg) :
    (cfg.protocol = .hysteria2 ∧ ∃ listen, listener = .hysteria2 listen) ∨
    (cfg.protocol = .shadowsocks ∧ ∃ addr password, listener = .ss2022Udp cfg.tag addr password) ∨
    cfg.protocol ≠ .hysteria2 ∧ ∃ addr handler, handlerFor env config cfg = some handler ∧
      transportListener env config.limits cfg addr handler = some listener := by
  have hudp {addr : SocketAddr} (hmem : listener ∈ udpListeners cfg addr) :
      cfg.protocol = .shadowsocks ∧
        ∃ addr password, listener = .ss2022Udp cfg.tag addr password := by
    unfold udpListeners at hmem
    split_ifs at hmem with hover
    · obtain ⟨password, -, rfl⟩ := map_eq_some_iff.1 (mem_toList.1 hmem)
      exact ⟨hover.1, addr, password, rfl⟩
    · cases hmem
  unfold listenersOf at h
  cases haddr : listenAddr cfg with
  | none =>
    rw [haddr] at h
    cases h
  | some addr =>
    rw [haddr, elim_some] at h
    split_ifs at h with hhysteria
    · obtain ⟨listen, -, rfl⟩ := map_eq_some_iff.1 (mem_toList.1 h)
      exact .inl ⟨hhysteria, listen, rfl⟩
    · exact .inr (.inl (hudp h))
    · rcases mem_append.1 h with hmem | hmem
      · exact .inr (.inl (hudp hmem))
      · obtain ⟨handler, hhandler, hlistener⟩ := bind_eq_some_iff.1 (mem_toList.1 hmem)
        exact .inr (.inr ⟨hhysteria, addr, handler, hhandler, hlistener⟩)

/-- **The loop over the inbounds.** -/
theorem startInbounds_ok {inbounds : List InboundConfig}
    (h : (startInbounds env host config n inbounds registries).result = .ok started) :
    started.1 = inbounds.flatMap (listenersOf env config) ∧
      started.2 = writeAll env (inbounds.filter fun c => c.protocol = .vless) registries ∧
      ∀ cfg ∈ inbounds, cfg.protocol = .vless →
        WellFormed env cfg ∧ listenersOf env config cfg ≠ [] := by
  induction inbounds generalizing n registries started with
  | nil =>
    obtain rfl := ok.inj h
    simp [writeAll]
  | cons cfg inbounds ih =>
    obtain ⟨first, hfirst, h⟩ := result_bind_eq_ok.1 h
    obtain ⟨rest, hrest, h⟩ := result_bind_eq_ok.1 h
    obtain rfl := ok.inj h
    obtain ⟨hlisteners, hregistries, hne, hwell⟩ := startInbound_ok hfirst
    obtain ⟨hlisteners', hregistries', hvless⟩ := ih hrest
    refine ⟨?_, ?_, ?_⟩
    · rw [flatMap_cons, ← hlisteners, ← hlisteners']
    · show _ = writeAll env (([cfg] ++ inbounds).filter fun c => c.protocol = .vless) registries
      rw [hregistries', hregistries, filter_append]
      exact foldl_append.symm
    · rw [hlisteners] at hne
      simpa using ⟨fun h => ⟨hwell h, hne⟩, hvless⟩

end Inbounds

/-! ### Outbounds -/

namespace OutboundMap

theorem lookup_insert (tag t : String) (entry : OutboundEntry) (map : OutboundMap) :
    (map.insert tag entry).lookup t = if t = tag then some entry else map.lookup t := by
  rw [insert, lookup_cons, lookup_filter_ne]
  by_cases h : t = tag
  · simp [h]
  · simp [h, beq_eq_false_iff_ne.2 h]

theorem mem_keys : tag ∈ map.keys ↔ ∃ entry, map.lookup tag = some entry := by
  induction map with
  | nil => simp [keys]
  | cons e map ih =>
    rw [keys, lookup_cons]
    by_cases h : tag = e.1
    · simp [h]
    · rw [beq_eq_false_iff_ne.2 h]
      simpa [h, keys] using ih

def Le (map other : OutboundMap) : Prop :=
  ∀ tag entry, map.lookup tag = some entry → other.lookup tag = some entry

theorem Le.antisymm (h : map.Le other) (h' : other.Le map) (tag : String) :
    map.lookup tag = other.lookup tag := by
  cases hlookup : map.lookup tag with
  | some entry => exact (h tag entry hlookup).symm
  | none =>
    cases hother : other.lookup tag with
    | none => rfl
    | some entry =>
      rw [h' tag entry hother] at hlookup
      cases hlookup

theorem Le.insert (h : map.Le other) {entry : OutboundEntry}
    (hentry : other.lookup tag = some entry) : (map.insert tag entry).Le other := by
  intro t e hlookup
  rw [lookup_insert] at hlookup
  split_ifs at hlookup with ht
  · rw [ht, hentry, hlookup]
  · exact h t e hlookup

theorem le_insert (h : tag ∉ map.keys) (entry : OutboundEntry) : map.Le (map.insert tag entry) := by
  intro t e hlookup
  have hne : t ≠ tag := by
    rintro rfl
    exact h (mem_keys.2 ⟨e, hlookup⟩)
  rw [lookup_insert, if_neg hne, hlookup]

end OutboundMap

def lastOutbound (tag : String) (outbounds : List OutboundConfig) : Option OutboundConfig :=
  (outbounds.filter fun cfg => cfg.tag = tag).getLast?

/-- **The loop over the outbounds.**  Of outbounds with one tag the last stands in the map. -/
theorem buildOutbounds_ok [Text] {env : Env}
    (h : buildOutbounds env dns config outbounds map = .ok handlers) :
    (∀ cfg ∈ outbounds, ∃ handler, buildOutbound env dns config cfg = .ok handler) ∧
      ∀ tag, handlers.lookup tag = (lastOutbound tag outbounds).elim (map.lookup tag) fun cfg =>
        (buildOutbound env dns config cfg).toOption.map .handler := by
  induction outbounds generalizing map with
  | nil =>
    obtain rfl := Except.ok.inj h
    simp [lastOutbound]
  | cons cfg outbounds ih =>
    obtain ⟨handler, hhandler, h⟩ := bind_eq_ok.1 h
    obtain ⟨hall, hlookup⟩ := ih h
    refine ⟨by simpa using ⟨⟨handler, hhandler⟩, hall⟩, fun tag => ?_⟩
    rw [hlookup, OutboundMap.lookup_insert]
    unfold lastOutbound
    by_cases htag : cfg.tag = tag
    · rw [filter_cons_of_pos (by simpa using htag), List.getLast?_cons, if_pos htag.symm]
      cases (outbounds.filter fun c => c.tag = tag).getLast? with
      | none => simp [hhandler, Except.toOption]
      | some last => rfl
    · rw [filter_cons_of_neg (by simpa using htag), if_neg fun ht => htag ht.symm]

theorem handler_of_lookup [Text] {env : Env}
    (h : buildOutbounds env dns config outbounds [] = .ok handlers) {entry : OutboundEntry}
    (hlookup : handlers.lookup tag = some entry) : ∃ handler, entry = .handler handler := by
  rw [(buildOutbounds_ok h).2] at hlookup
  cases hlast : lastOutbound tag outbounds with
  | none =>
    rw [hlast] at hlookup
    cases hlookup
  | some cfg =>
    rw [hlast] at hlookup
    obtain ⟨handler, -, rfl⟩ := map_eq_some_iff.1 hlookup
    exact ⟨handler, rfl⟩

/-! ### Balancers -/

def Members (map : OutboundMap) (cfg : BalancerConfig) (members : List (String × OutboundEntry)) :
    Prop :=
  (selectedTags cfg).map (fun tag => (map.lookup tag).map fun entry => (tag, entry)) =
    members.map some

variable {members : List (String × OutboundEntry)} {cfg : BalancerConfig}
  {balancers : List BalancerConfig}

theorem mapM_okOr {msg : String → String} {tags : List String}
    (h : (tags.mapM fun tag => (okOr (map.lookup tag) (msg tag)).map fun entry => (tag, entry)) =
      .ok members) :
    tags.map (fun tag => (map.lookup tag).map fun entry => (tag, entry)) = members.map some := by
  induction tags generalizing members with
  | nil =>
    obtain rfl := ok.inj h
    rfl
  | cons tag tags ih =>
    rw [mapM_cons] at h
    obtain ⟨member, hmember, h⟩ := bind_eq_ok.1 h
    obtain ⟨rest, hrest, h⟩ := bind_eq_ok.1 h
    obtain rfl := ok.inj h
    obtain ⟨entry, hentry, rfl⟩ := map_eq_ok.1 hmember
    rw [map_cons, okOr_eq_ok.1 hentry, ih hrest]
    rfl

theorem selectBalancerOutbounds_ok
    (h : selectBalancerOutbounds cfg map = .ok members) : Members map cfg members := by
  obtain ⟨-, -, h⟩ := bind_eq_ok.1 h
  exact mapM_okOr h

theorem Members.le (h : Members map cfg members) (hle : map.Le other) :
    Members other cfg members := by
  refine Eq.trans (map_congr_left fun tag htag => ?_) h
  have hsome : (map.lookup tag).map (fun entry => (tag, entry)) ∈ members.map some := by
    rw [← h]
    exact mem_map_of_mem htag
  cases hlookup : map.lookup tag with
  | none => simp [hlookup] at hsome
  | some entry => rw [hle tag entry hlookup]

/-- The map has an entry for each balancer, with its members. -/
def Holds (map : OutboundMap) (balancers : List BalancerConfig) : Prop :=
  ∀ cfg ∈ balancers, ∃ members,
    map.lookup cfg.tag = some (.balancer cfg members) ∧ Members map cfg members

section

variable {final : OutboundMap} (h : (startBalancers balancers map).result = .ok final)
include h

/-- **The loop over the balancers.**  It replaces nothing, and in the end the map holds the entries
that it had, the balancers, and nothing else. -/
theorem startBalancers_ok :
    map.Le final ∧ Holds final balancers ∧
      ∀ tag entry, final.lookup tag = some entry → map.lookup tag = some entry ∨
        ∃ cfg ∈ balancers, cfg.tag = tag ∧ ∃ members, entry = .balancer cfg members := by
  induction balancers generalizing map with
  | nil =>
    obtain rfl := ok.inj h
    exact ⟨fun _ _ hlookup => hlookup, fun _ hcfg => absurd hcfg not_mem_nil,
      fun _ _ hlookup => .inl hlookup⟩
  | cons cfg balancers ih =>
    obtain ⟨⟨⟩, hnew, h⟩ := result_bind_eq_ok.1 h
    obtain ⟨members, hmembers, h⟩ := result_bind_eq_ok.1 h
    obtain ⟨-, -, h⟩ := result_bind_eq_ok.1 h
    obtain ⟨hle, hholds, honly⟩ := ih h
    have hnotMem : cfg.tag ∉ map.keys := by
      intro hmem
      have hbail : bailIf (cfg.tag ∈ map.keys) _ = .ok _ := hnew
      rw [bailIf, if_pos hmem] at hbail
      cases hbail
    have hmapLe := OutboundMap.le_insert hnotMem (.balancer cfg members)
    have hinserted : (map.insert cfg.tag (.balancer cfg members)).lookup cfg.tag =
        some (.balancer cfg members) := by rw [OutboundMap.lookup_insert, if_pos rfl]
    refine ⟨fun tag entry hlookup => hle tag entry (hmapLe tag entry hlookup), ?_, ?_⟩
    · intro c hc
      rcases mem_cons.1 hc with rfl | hc
      · refine ⟨members, hle _ _ hinserted, ?_⟩
        exact ((selectBalancerOutbounds_ok hmembers).le hmapLe).le hle
      · exact hholds c hc
    · intro tag entry hlookup
      rcases honly tag entry hlookup with hmap | ⟨c, hc, hrest⟩
      · rw [OutboundMap.lookup_insert] at hmap
        split_ifs at hmap with htag
        · exact .inr ⟨cfg, mem_cons_self, htag.symm, members, (Option.some.inj hmap).symm⟩
        · exact .inl hmap
      · exact .inr ⟨c, mem_cons_of_mem _ hc, hrest⟩

theorem startBalancers_le (hmap : map.Le other)
    (hother : Holds other balancers) : final.Le other := by
  induction balancers generalizing map with
  | nil =>
    obtain rfl := ok.inj h
    exact hmap
  | cons cfg balancers ih =>
    obtain ⟨-, -, h⟩ := result_bind_eq_ok.1 h
    obtain ⟨members, hmembers, h⟩ := result_bind_eq_ok.1 h
    obtain ⟨-, -, h⟩ := result_bind_eq_ok.1 h
    obtain ⟨members', hlookup, hmembers'⟩ := hother cfg mem_cons_self
    obtain rfl := map_injective_iff.2 (some_injective _)
      (((selectBalancerOutbounds_ok hmembers).le hmap).symm.trans hmembers')
    exact ih h (hmap.insert hlookup) fun c hc => hother c (mem_cons_of_mem _ hc)

end

/-! ### The whole -/

theorem buildDnsModule_ok {host : Host} (h : buildDnsModule host config = .ok dns) :
    dns = config.dns.map dnsModuleConfig := by
  unfold buildDnsModule at h
  cases hdns : config.dns with
  | none =>
    rw [hdns] at h
    exact (ok.inj h).symm
  | some cfg =>
    rw [hdns] at h
    obtain ⟨-, -, rfl⟩ := map_eq_ok.1 h
    rfl

section Built

variable [Text] {env : Env} {host : Host} {toUppercase : String → String} {IpNet : Type}
  [IpNetApi IpNet] [Automata] {files : GeoFiles IpNet}

variable (env toUppercase files) in
/-- What `from_config` makes of a configuration. -/
structure Built (config : Config) (inst : Instance IpNet) : Prop where
  listeners : inst.listeners = config.inbounds.flatMap (listenersOf env config)
  registries : inst.reload.registries = registriesOf env config
  wellFormed : ∀ cfg ∈ config.inbounds, cfg.protocol = .vless →
    WellFormed env cfg ∧ listenersOf env config cfg ≠ []
  dns : inst.dns = config.dns.map dnsModuleConfig
  outbounds : ∃ handlers,
    buildOutbounds env (config.dns.map dnsModuleConfig) config config.outbounds [] = .ok handlers ∧
      (startBalancers (balancersOf config) handlers).result = .ok inst.outbounds
  rules : ∃ rules, configRules toUppercase config inst.outbounds.keys = .ok rules ∧
    inst.reload = freshReloadState files config rules inst.reload.registries
  profile : inst.profile = config.profile
  splicePolicy : inst.splicePolicy = splicePolicyForProfile config

/-- **Instances.** -/
theorem fromConfig_ok {inst : Instance IpNet}
    (h : (fromConfig env host toUppercase files config).result = .ok inst) :
    Built env toUppercase files config inst := by
  obtain ⟨-, -, h⟩ := result_bind_eq_ok.1 h
  obtain ⟨prepared, hprepared, h⟩ := result_bind_eq_ok.1 h
  obtain ⟨started, hstarted, h⟩ := result_bind_eq_ok.1 h
  obtain rfl := ok.inj h
  obtain ⟨dns, hdns, hprepared⟩ := result_bind_eq_ok.1 hprepared
  obtain ⟨handlers, hhandlers, hprepared⟩ := result_bind_eq_ok.1 hprepared
  obtain ⟨outbounds, houtbounds, hprepared⟩ := result_bind_eq_ok.1 hprepared
  obtain ⟨rules, hrules, hprepared⟩ := result_bind_eq_ok.1 hprepared
  obtain rfl := ok.inj hprepared
  obtain rfl := buildDnsModule_ok hdns
  obtain ⟨listening, hlistening, hstarted⟩ := result_bind_eq_ok.1 hstarted
  obtain ⟨-, -, hstarted⟩ := result_bind_eq_ok.1 hstarted
  obtain ⟨-, -, hstarted⟩ := result_bind_eq_ok.1 hstarted
  obtain ⟨-, -, hstarted⟩ := result_bind_eq_ok.1 hstarted
  obtain rfl := ok.inj hstarted
  obtain ⟨hlisteners, hregistries, hwell⟩ := startInbounds_ok hlistening
  exact ⟨hlisteners, hregistries, hwell, rfl, ⟨handlers, hhandlers, houtbounds⟩,
    ⟨rules, hrules, rfl⟩, rfl, rfl⟩

end Built

end Blackwire.Core
