import Blackwire.App.DomainMatcher
import Blackwire.Core.Users

/-!
# Reloading a configuration

`ReloadState::apply` of `reload.rs`, with `build_rules`, `build_sniffing_map` and the cache of the
geographical data.  `apply` swaps the router and the sniffing map, stores the lists of tags, and
then fills the registries of the VLESS inbounds one after the other; it stops at the first list of
clients that is wrong.
-/

namespace Blackwire.Core

open Schema Json Routing Router Geo Failure Vless List VlessUserRegistry

/-! ### Rules -/

def stripPrefix (start text : String) : Option String :=
  if start.toList.isPrefixOf text.toList then some (String.ofList (text.toList.drop start.length))
  else none

structure DomainPatterns where
  full : List String
  suffix : List String
  keywords : List String
  regexes : List String
  geosite : List String

section Rules

variable (toUppercase : String → String)

def DomainPatterns.add (patterns : DomainPatterns) (pattern : String) : DomainPatterns :=
  match stripPrefix "domain:" pattern with
  | some rest => { patterns with full := patterns.full ++ [rest] }
  | none => match stripPrefix "suffix:" pattern with
    | some rest => { patterns with suffix := patterns.suffix ++ [rest] }
    | none => match stripPrefix "keyword:" pattern with
      | some rest => { patterns with keywords := patterns.keywords ++ [rest] }
      | none => match stripPrefix "regexp:" pattern with
        | some rest => { patterns with regexes := patterns.regexes ++ [rest] }
        | none => match stripPrefix "geosite:" pattern with
          | some rest => { patterns with geosite := patterns.geosite ++ [toUppercase rest] }
          | none => { patterns with full := patterns.full ++ [pattern] }

def ipPatterns (patterns : List String) : List String × List String :=
  (patterns.filterMap fun pattern => (stripPrefix "geoip:" pattern).map toUppercase,
    patterns.filter fun pattern => (stripPrefix "geoip:" pattern).isNone)

def parseU16 (text : String) : Except String UInt16 :=
  let digits := match text.toList with
    | '+' :: digits => digits
    | digits => digits
  if text = "" then .error "cannot parse integer from empty string"
  else if digits = [] ∨ digits.any (fun c => !c.isDigit) then
    .error "invalid digit found in string"
  else
    let n := digits.foldl (fun n c => 10 * n + (c.toNat - '0'.toNat)) 0
    if n < 65536 then .ok (UInt16.ofNat n)
    else .error "number too large to fit in target type"

def parsePort (text : String) : Except Failure UInt16 :=
  withContext (lift (parseU16 text)) ("invalid port '" ++ text ++ "'")

def parsePortRange [Text] (part : String) : Except Failure (UInt16 × UInt16) :=
  let part := Text.trim part
  match part.toList.span (· ≠ '-') with
  | (lo, _ :: hi) => do
    let lo ← parsePort (String.ofList lo)
    let hi ← parsePort (String.ofList hi)
    bailIf (lo > hi) ("invalid port range '" ++ part ++ "': lower bound exceeds upper bound")
    return (lo, hi)
  | (_, []) => (parsePort part).map fun port => (port, port)

def parsePortRanges [Text] (text : String) : Except Failure (List (UInt16 × UInt16)) :=
  if text = "" then .ok []
  else (text.toList.splitOn ',').mapM fun part => parsePortRange (String.ofList part)

variable {IpNet : Type} [IpNetApi IpNet] [Text] [Automata]

def buildDomainMatcher (patterns : DomainPatterns) : Except Failure (Option DomainMatcher) :=
  if patterns.full = [] ∧ patterns.suffix = [] ∧ patterns.keywords = [] ∧ patterns.regexes = [] then
    .ok none
  else
    (DomainMatcher.new patterns.full patterns.suffix patterns.keywords patterns.regexes).elim
      (.error []) fun matcher => .ok (some matcher)

def buildIpMatcher (ranges : List String) : Except Failure (Option (IpMatcher IpNet)) :=
  if ranges = [] then .ok none else (lift (IpMatcher.new ranges)).map some

/-- `build_rule`: the matchers of a rule; its outbound must exist. -/
def buildRule (outboundTags : List String) (rule : RoutingRule) :
    Except Failure (CompiledRule IpNet) := do
  bailIf (rule.outboundTag ∉ outboundTags)
    ("routing rule references missing outboundTag '" ++ rule.outboundTag ++ "'")
  let patterns := rule.domain.foldl (DomainPatterns.add toUppercase) ⟨[], [], [], [], []⟩
  let ips := ipPatterns toUppercase rule.ip
  let domainMatcher ← buildDomainMatcher patterns
  let ipMatcher ← buildIpMatcher ips.2
  let portRanges ← parsePortRanges (rule.port.getD "")
  return {
    outboundTag := rule.outboundTag
    geositeCodes := patterns.geosite
    geoipCodes := ips.1
    inboundTags := rule.inboundTag
    protocols := rule.protocol
    domainMatcher, ipMatcher, portRanges }

def buildRules (rules : List RoutingRule) (outboundTags : List String) :
    Except Failure (List (CompiledRule IpNet)) :=
  rules.mapM (buildRule toUppercase outboundTags)

end Rules

/-! ### What a reload reads -/

def buildSniffingMap (inbounds : List InboundConfig) (tag : String) : Option SniffingConfig :=
  ((inbounds.filterMap fun cfg => cfg.sniffing.filter fun s => cfg.tag = tag ∧ s.enabled)).getLast?

def collectOutboundTags (config : Config) : List String :=
  config.outbounds.map (fun o => o.tag) ++
    (config.routing.elim [] fun r => r.balancers.map fun b => b.tag)

def defaultTag (config : Config) : String :=
  (config.outbounds.head?.map fun o => o.tag).getD "direct"

structure GeoFiles (IpNet : Type) [IpNetApi IpNet] where
  geoip : String → String → Option (GeoIpMatcher IpNet)
  geosite : String → String → Option GeoSiteMatcher
  fingerprint : String → Option (UInt64 × ℕ)

structure CacheEntry (α : Type) where
  path : Option String := none
  fingerprint : Option (UInt64 × ℕ) := none
  matchers : String → Option α := fun _ => none

def CacheEntry.load {α : Type} (files : String → String → Option α)
    (fingerprint : String → Option (UInt64 × ℕ)) (path : Option String) (entry : CacheEntry α) :
    CacheEntry α :=
  let found := path.bind fingerprint
  if path = entry.path ∧ ((found.isSome ∧ found = entry.fingerprint) ∨ path = none) then entry
  else ⟨path, found, path.elim (fun _ => none) files⟩

structure GeoCache (IpNet : Type) [IpNetApi IpNet] where
  geoip : CacheEntry (GeoIpMatcher IpNet) := {}
  geosite : CacheEntry GeoSiteMatcher := {}

structure ReloadState (IpNet : Type) [IpNetApi IpNet] where
  router : RouterInner IpNet
  registries : Registries
  sniffing : String → Option SniffingConfig
  inboundTags : List String
  outboundTags : List String
  geoCache : GeoCache IpNet

/-! ### Applying a configuration -/

section Apply

variable (env : Env)

def Refreshed (registries : Registries) (cfg : InboundConfig) : Prop :=
  cfg.protocol = .vless ∧ (registries cfg.tag).isSome

instance (registries : Registries) (cfg : InboundConfig) : Decidable (Refreshed registries cfg) :=
  inferInstanceAs (Decidable (_ ∧ _))

/-- The registries are refilled one by one, up to the first list that is wrong. -/
def refreshRegistries : List InboundConfig → Registries → Registries × Except Failure Unit
  | [], registries => (registries, .ok ())
  | cfg :: inbounds, registries =>
    if Refreshed registries cfg then
      let populated := populateVlessRegistry env cfg
      let registries := registries.set cfg.tag populated.1
      match populated.2 with
      | .error e => (registries, .error e)
      | .ok () => refreshRegistries inbounds registries
    else refreshRegistries inbounds registries

variable (toUppercase : String → String) {IpNet : Type} [IpNetApi IpNet] [Text] [Automata]
  (files : GeoFiles IpNet)

/-- The rules of a configuration, compiled. -/
def configRules (config : Config) (outboundTags : List String) :
    Except Failure (List (CompiledRule IpNet)) :=
  config.routing.elim (.ok []) fun routing => buildRules toUppercase routing.rules outboundTags

def loadGeoDataCached (config : Config) (cache : GeoCache IpNet) : GeoCache IpNet where
  geoip := cache.geoip.load files.geoip files.fingerprint (config.routing.bind fun r => r.geoipFile)
  geosite := cache.geosite.load files.geosite files.fingerprint
    (config.routing.bind fun r => r.geositeFile)

def routerOf (config : Config) (rules : List (CompiledRule IpNet)) (cache : GeoCache IpNet) :
    RouterInner IpNet :=
  .new rules (defaultTag config) cache.geoip.matchers cache.geosite.matchers
    (config.routing.bind fun r => r.domainStrategy)

namespace ReloadState

/-- Swaps the router, the sniffing map and the lists of tags. -/
def store (config : Config) (rules : List (CompiledRule IpNet)) (s : ReloadState IpNet) :
    ReloadState IpNet :=
  let cache := loadGeoDataCached files config s.geoCache
  { s with
    router := routerOf config rules cache
    sniffing := buildSniffingMap config.inbounds
    inboundTags := config.inbounds.map fun i => i.tag
    outboundTags := config.outbounds.map fun o => o.tag
    geoCache := cache }

/-- `ReloadState::apply`. -/
def apply (config : Config) (s : ReloadState IpNet) : ReloadState IpNet × Except Failure Unit :=
  match configRules toUppercase config (collectOutboundTags config) with
  | .error e => (s, .error e)
  | .ok rules =>
    let stored := s.store files config rules
    let refreshed := refreshRegistries env config.inbounds stored.registries
    ({ stored with registries := refreshed.1 }, refreshed.2)

end ReloadState

end Apply

/-! ### How far a reload comes -/

variable {inbounds : List InboundConfig}

section Refresh

variable {env : Env} {cfg : InboundConfig}

/-- The list of clients of the inbound can be read. -/
def WellFormed (env : Env) (cfg : InboundConfig) : Prop :=
  (populateVlessRegistry env cfg).2 = .ok ()

instance (env : Env) (cfg : InboundConfig) : Decidable (WellFormed env cfg) :=
  match h : (populateVlessRegistry env cfg).2 with
  | .ok () => isTrue h
  | .error e => isFalse fun hok => by rw [WellFormed, h] at hok; cases hok

def attempted (env : Env) : List InboundConfig → List InboundConfig
  | [] => []
  | cfg :: inbounds => if WellFormed env cfg then cfg :: attempted env inbounds else [cfg]

def writeAll (env : Env) (inbounds : List InboundConfig) (registries : Registries) : Registries :=
  inbounds.foldl (fun registries cfg => registries.set cfg.tag (populateVlessRegistry env cfg).1)
    registries

/-- The last inbound with the tag, whose list is the one that stays. -/
def lastFor (tag : String) (inbounds : List InboundConfig) : Option InboundConfig :=
  (inbounds.filter fun cfg => cfg.tag = tag).getLast?

theorem mem_of_lastFor {tag : String} (h : lastFor tag inbounds = some cfg) :
    cfg ∈ inbounds ∧ cfg.tag = tag := by
  simpa using mem_of_getLast? h

theorem exists_lastFor (h : cfg ∈ inbounds) : ∃ last, lastFor cfg.tag inbounds = some last := by
  have hmem : cfg ∈ inbounds.filter fun c => c.tag = cfg.tag := by simpa using h
  exact Option.isSome_iff_exists.1 (List.getLast?_isSome.2 (ne_nil_of_mem hmem))

theorem writeAll_apply (inbounds : List InboundConfig) (registries : Registries) (tag : String) :
    writeAll env inbounds registries tag =
      (lastFor tag inbounds).elim (registries tag)
        fun cfg => some (populateVlessRegistry env cfg).1 := by
  induction inbounds using List.reverseRecOn with
  | nil => rfl
  | append_singleton inbounds cfg ih =>
    rw [writeAll, foldl_append, foldl_cons, foldl_nil]
    by_cases htag : cfg.tag = tag
    · simp [lastFor, Registries.set, htag]
    · have hne : ¬ tag = cfg.tag := fun h => htag h.symm
      simp only [Registries.set, if_neg hne]
      simpa [lastFor, htag, writeAll] using ih

theorem attempted_of_forall (h : ∀ cfg ∈ inbounds, WellFormed env cfg) :
    attempted env inbounds = inbounds := by
  induction inbounds with
  | nil => rfl
  | cons cfg inbounds ih =>
    rw [attempted, if_pos (h cfg mem_cons_self), ih fun c hc => h c (mem_cons_of_mem _ hc)]

theorem refreshed_set {registries : Registries} (h : Refreshed registries cfg)
    (registry : VlessUserRegistry) (other : InboundConfig) :
    Refreshed (registries.set cfg.tag registry) other ↔ Refreshed registries other := by
  unfold Refreshed Registries.set
  split_ifs with htag
  · simp [htag, h.2]
  · rfl

/-- **The loop over the inbounds.**  It writes the registries of the inbounds that have one, up to
the first whose list is wrong, and succeeds if there is none. -/
theorem refreshRegistries_cases (inbounds : List InboundConfig) (registries : Registries) :
    (refreshRegistries env inbounds registries).1 =
        writeAll env (attempted env (inbounds.filter fun cfg => Refreshed registries cfg))
          registries ∧
      ((refreshRegistries env inbounds registries).2 = .ok () ↔
        ∀ cfg ∈ inbounds, Refreshed registries cfg → WellFormed env cfg) := by
  induction inbounds generalizing registries with
  | nil => exact ⟨rfl, by simp [refreshRegistries]⟩
  | cons cfg inbounds ih =>
    by_cases hrefreshed : Refreshed registries cfg
    · have hfilter : (cfg :: inbounds).filter (fun c => Refreshed registries c) =
          cfg :: inbounds.filter fun c => Refreshed registries c := by simp [hrefreshed]
      rw [refreshRegistries, if_pos hrefreshed, hfilter, attempted]
      cases hresult : (populateVlessRegistry env cfg).2 with
      | error e =>
        have hwrong : ¬ WellFormed env cfg := by simp [WellFormed, hresult]
        simp only [hresult, if_neg hwrong]
        refine ⟨rfl, ⟨fun h => ?_, fun hall => ?_⟩⟩
        · cases h
        · exact absurd (hall cfg mem_cons_self hrefreshed) hwrong
      | ok u =>
        have hright : WellFormed env cfg := hresult
        obtain ⟨hstate, hok⟩ := ih (registries.set cfg.tag (populateVlessRegistry env cfg).1)
        simp only [refreshed_set hrefreshed] at hstate hok
        simp only [hresult, if_pos hright]
        exact ⟨hstate, hok.trans (by simp [hright])⟩
    · rw [refreshRegistries]
      simpa [hrefreshed] using ih registries

end Refresh

/-! ### What is kept, and what is accepted -/

/-- Two registries that accept the same users. -/
def SameRegistry (a b : Option VlessUserRegistry) : Prop :=
  a.isSome = b.isSome ∧
    ∀ uuid, a.bind (validate uuid) = b.bind (validate uuid)

theorem SameRegistry.refl (a : Option VlessUserRegistry) : SameRegistry a a := ⟨rfl, fun _ => rfl⟩

section Reload

variable (env : Env) {IpNet : Type} [IpNetApi IpNet] (files : GeoFiles IpNet) (config : Config)
  (registries : Registries) (rules : List (CompiledRule IpNet))

/-- The router, the sniffing map, the lists of tags and the registries are as they were. -/
structure Kept (s s' : ReloadState IpNet) : Prop where
  router : s'.router = s.router
  sniffing : s'.sniffing = s.sniffing
  inboundTags : s'.inboundTags = s.inboundTags
  outboundTags : s'.outboundTags = s.outboundTags
  registries : ∀ tag, SameRegistry (s.registries tag) (s'.registries tag)

/-- The registries accept exactly the users that the inbounds list. -/
def ListsAccepted : Prop :=
  ∀ cfg ∈ config.inbounds, cfg.protocol = .vless → ∀ registry, registries cfg.tag = some registry →
    AcceptsExactly registry (listedUsers env cfg)

def refreshedInbounds : List InboundConfig :=
  config.inbounds.filter fun cfg => Refreshed registries cfg

/-- Of two inbounds with one tag the last one lists the users of the other as well. -/
def SharedTagsAgree : Prop :=
  ∀ cfg ∈ refreshedInbounds config registries, ∀ last,
    lastFor cfg.tag (refreshedInbounds config registries) = some last → last ≠ cfg →
      AcceptsExactly (populateVlessRegistry env last).1 (listedUsers env cfg)

/-- What a reload with these rules would write, up to the first list that is wrong, is there
already. -/
structure Already (config : Config) (rules : List (CompiledRule IpNet)) (s : ReloadState IpNet) :
    Prop where
  router : routerOf config rules (loadGeoDataCached files config s.geoCache) = s.router
  sniffing : buildSniffingMap config.inbounds = s.sniffing
  inboundTags : (config.inbounds.map fun i => i.tag) = s.inboundTags
  outboundTags : (config.outbounds.map fun o => o.tag) = s.outboundTags
  registries : ∀ tag cfg,
    lastFor tag (attempted env (refreshedInbounds config s.registries)) = some cfg →
      SameRegistry (s.registries tag) (some (populateVlessRegistry env cfg).1)

def written (s : ReloadState IpNet) : ReloadState IpNet :=
  { s.store files config rules with
    registries :=
      writeAll env (attempted env (refreshedInbounds config s.registries)) s.registries }

theorem kept_iff_already (s : ReloadState IpNet) :
    Kept s (written env files config rules s) ↔ Already env files config rules s := by
  have hregistries (tag : String) : (written env files config rules s).registries tag =
      (lastFor tag (attempted env (refreshedInbounds config s.registries))).elim (s.registries tag)
        fun cfg => some (populateVlessRegistry env cfg).1 := writeAll_apply _ _ tag
  constructor
  · intro hkept
    refine ⟨hkept.router, hkept.sniffing, hkept.inboundTags, hkept.outboundTags, ?_⟩
    intro tag cfg hlast
    have hregistry := hkept.registries tag
    rw [hregistries, hlast] at hregistry
    exact hregistry
  · intro halready
    refine ⟨halready.router, halready.sniffing, halready.inboundTags, halready.outboundTags, ?_⟩
    intro tag
    rw [hregistries]
    cases hlast : lastFor tag (attempted env (refreshedInbounds config s.registries)) with
    | none => exact .refl _
    | some cfg => exact halready.registries tag cfg hlast

variable {config : Config}

theorem listsAccepted_iff {registries : Registries}
    (h : ∀ cfg ∈ refreshedInbounds config registries, WellFormed env cfg) :
    ListsAccepted env config
        (writeAll env (attempted env (refreshedInbounds config registries)) registries) ↔
      SharedTagsAgree env config registries := by
  have hrefreshed {cfg : InboundConfig} : cfg ∈ refreshedInbounds config registries ↔
      cfg ∈ config.inbounds ∧ Refreshed registries cfg := by simp [refreshedInbounds]
  rw [attempted_of_forall h]
  constructor
  · intro haccepted cfg hcfg last hlast _
    obtain ⟨hmem, hvless, -⟩ := hrefreshed.1 hcfg
    refine haccepted cfg hmem hvless _ ?_
    rw [writeAll_apply, hlast]
    rfl
  · intro hagree cfg hmem hvless registry hregistry
    rw [writeAll_apply] at hregistry
    cases hlast : lastFor cfg.tag (refreshedInbounds config registries) with
    | none =>
      -- the tag has a registry, so that the inbound is among those that are written
      rw [hlast] at hregistry
      have hcfg : cfg ∈ refreshedInbounds config registries :=
        hrefreshed.2 ⟨hmem, hvless, Option.isSome_iff_exists.2 ⟨registry, hregistry⟩⟩
      obtain ⟨last, hsome⟩ := exists_lastFor hcfg
      rw [hsome] at hlast
      cases hlast
    | some last =>
      rw [hlast] at hregistry
      obtain rfl := Option.some.inj hregistry
      obtain ⟨hlastMem, htag⟩ := mem_of_lastFor hlast
      have hsome : (registries cfg.tag).isSome := htag ▸ (hrefreshed.1 hlastMem).2.2
      have hcfg : cfg ∈ refreshedInbounds config registries := hrefreshed.2 ⟨hmem, hvless, hsome⟩
      by_cases hsame : last = cfg
      · subst hsame
        exact acceptsExactly_populate (h last hcfg)
      · exact hagree cfg hcfg last hlast hsame

variable (toUppercase : String → String) [Text] [Automata]

theorem apply_of_rules {rules : List (CompiledRule IpNet)}
    (h : configRules toUppercase config (collectOutboundTags config) = .ok rules)
    (s : ReloadState IpNet) :
    (s.apply env toUppercase files config).1 = written env files config rules s ∧
      ((s.apply env toUppercase files config).2 = .ok () ↔
        ∀ cfg ∈ refreshedInbounds config s.registries, WellFormed env cfg) := by
  obtain ⟨hstate, hok⟩ := refreshRegistries_cases config.inbounds s.registries
  unfold ReloadState.apply
  rw [h]
  refine ⟨?_, hok.trans ?_⟩
  · show ({ s.store files config rules with
      registries := (refreshRegistries env config.inbounds s.registries).1 }) = _
    rw [hstate]
    rfl
  · simp [refreshedInbounds]

theorem registries_apply_ok {s : ReloadState IpNet}
    (h : (s.apply env toUppercase files config).2 = .ok ()) :
    (s.apply env toUppercase files config).1.registries =
        writeAll env (refreshedInbounds config s.registries) s.registries ∧
      ∀ cfg ∈ refreshedInbounds config s.registries, WellFormed env cfg := by
  cases hrules : (configRules toUppercase config (collectOutboundTags config) :
      Except Failure (List (CompiledRule IpNet))) with
  | error e =>
    rw [ReloadState.apply, hrules] at h
    cases h
  | ok rules =>
    obtain ⟨hstate, hok⟩ := apply_of_rules env files toUppercase hrules s
    have hwell := hok.1 h
    rw [hstate]
    refine ⟨?_, hwell⟩
    show writeAll env (attempted env (refreshedInbounds config s.registries)) s.registries = _
    rw [attempted_of_forall hwell]

variable (IpNet) in
/-- The rules of the configuration cannot be compiled. -/
def RulesRefused (config : Config) : Prop :=
  ∃ e, (configRules toUppercase config (collectOutboundTags config) :
    Except Failure (List (CompiledRule IpNet))) = .error e

/-- **Reloads.**  A reload that fails leaves the router, the sniffing map, the lists of tags and the
registries as they were, and a reload that succeeds leaves registries that accept the users that the
configuration lists, exactly if the rules are refused, or all lists of clients are well formed and
those of one tag agree, or what is written before the first wrong list was there already. -/
theorem reloaded_iff (config : Config) (s : ReloadState IpNet) :
    ((∀ e, (s.apply env toUppercase files config).2 = .error e →
        Kept s (s.apply env toUppercase files config).1) ∧
      ((s.apply env toUppercase files config).2 = .ok () →
        ListsAccepted env config (s.apply env toUppercase files config).1.registries)) ↔
    RulesRefused IpNet toUppercase config ∨
      ((∀ cfg ∈ refreshedInbounds config s.registries, WellFormed env cfg) ∧
        SharedTagsAgree env config s.registries) ∨
      ∃ rules, configRules toUppercase config (collectOutboundTags config) = .ok rules ∧
        ¬ (∀ cfg ∈ refreshedInbounds config s.registries, WellFormed env cfg) ∧
        Already env files config rules s := by
  cases hrules : (configRules toUppercase config (collectOutboundTags config) :
      Except Failure (List (CompiledRule IpNet))) with
  | error e =>
    have happly : s.apply env toUppercase files config = (s, .error e) := by
      rw [ReloadState.apply, hrules]
    rw [happly]
    refine ⟨fun _ => .inl ⟨e, hrules⟩, fun _ => ⟨fun _ _ => ?_, fun hok => ?_⟩⟩
    · exact ⟨rfl, rfl, rfl, rfl, fun tag => .refl _⟩
    · cases hok
  | ok rules =>
    obtain ⟨hstate, hok⟩ := apply_of_rules env files toUppercase hrules s
    have hnot : ¬ RulesRefused IpNet toUppercase config := by
      rintro ⟨e, he⟩
      rw [hrules] at he
      cases he
    rw [hstate]
    by_cases hall : ∀ cfg ∈ refreshedInbounds config s.registries, WellFormed env cfg
    · rw [hok.2 hall]
      have haccepted := listsAccepted_iff env hall
      constructor
      · rintro ⟨-, hlists⟩
        exact .inr (.inl ⟨hall, haccepted.1 (hlists rfl)⟩)
      · rintro (hrefused | ⟨-, hagree⟩ | ⟨_, -, hwrong, -⟩)
        · exact absurd hrefused hnot
        · refine ⟨fun e he => ?_, fun _ => haccepted.2 hagree⟩
          cases he
        · exact absurd hall hwrong
    · obtain ⟨e, he⟩ : ∃ e, (s.apply env toUppercase files config).2 = .error e := by
        cases hresult : (s.apply env toUppercase files config).2 with
        | error e => exact ⟨e, rfl⟩
        | ok u => exact absurd (hok.1 hresult) hall
      rw [he]
      have hkept := kept_iff_already env files config rules s
      constructor
      · rintro ⟨hkeeps, -⟩
        exact .inr (.inr ⟨rules, rfl, hall, hkept.1 (hkeeps e rfl)⟩)
      · rintro (hrefused | ⟨hwell, -⟩ | ⟨rules', hsome, -, halready⟩)
        · exact absurd hrefused hnot
        · exact absurd hwell hall
        · obtain rfl := Except.ok.inj hsome
          refine ⟨fun _ _ => hkept.2 halready, fun hresult => ?_⟩
          cases hresult

end Reload

def vlessWith (clients : List Value) : InboundConfig where
  tag := "in"
  protocol := .vless
  listen := anyV4
  port := 443
  settings := .object [("clients", .array clients)]

def labClient : Value := .object [("id", .string "u"), ("email", .string "a@example")]

def labUser : VlessUser := ⟨"a@example", .replicate 16 7, ""⟩

def labState : ReloadState Router.Cidr where
  router := .new [] "direct" (fun _ => none) (fun _ => none) none
  registries := fun tag =>
    if tag = "in" then some ((⟨[]⟩ : VlessUserRegistry).addUser labUser) else none
  sniffing := fun _ => none
  inboundTags := ["in"]
  outboundTags := ["direct", "proxy"]
  geoCache := {}

def noGeoFiles : GeoFiles Router.Cidr := ⟨fun _ _ => none, fun _ _ => none, fun _ => none⟩

def emptyClients : Config where
  inbounds := [vlessWith []]
  outbounds := [{ tag := "direct", protocol := .freedom }, { tag := "proxy", protocol := .freedom }]
  routing := some { rules := [{ inboundTag := ["in"], outboundTag := "proxy" }] }

def afterEmptyClients : ReloadState Router.Cidr × Except Failure Unit :=
  letI := plainAutomata
  labState.apply labEnv id noGeoFiles emptyClients

/-- The reload is refused; the user is gone, and a new rule sends connections to the other
outbound. -/
theorem reload_forgets_users :
    afterEmptyClients.2 = .error ["VLESS inbound 'in' has no configured clients"] ∧
      (labState.registries "in").bind (validate labUser.uuid) = some labUser ∧
      (afterEmptyClients.1.registries "in").bind (validate labUser.uuid) = none ∧
      (labState.router.rules.map fun rule => rule.outboundTag) = [] ∧
      (afterEmptyClients.1.router.rules.map fun rule => rule.outboundTag) = ["proxy"] ∧
      ¬ Kept labState afterEmptyClients.1 := by
  have hrouter : (afterEmptyClients.1.router.rules.map fun rule => rule.outboundTag) =
      ["proxy"] := rfl
  refine ⟨rfl, by decide +kernel, rfl, rfl, hrouter, fun hkept => ?_⟩
  rw [hkept.router] at hrouter
  cases hrouter

end Blackwire.Core
