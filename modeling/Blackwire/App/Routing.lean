import Blackwire.App.GeoIp
import Blackwire.Lib.FirstMatch
import Blackwire.Lib.Shared

/-!
# Routing

`LiveRouter` of `router.rs` and `pick_route_xray` of `dispatcher.rs`: an ordered list of rules,
replaced as a whole when the configuration is reloaded, and a decision that tries the destination
and the addresses that its domain resolves to.  Each question that the decision asks the router is a
load of the current configuration of its own, so a decision is a computation over a shared cell.
-/

namespace Blackwire.Routing

open Router Geo Shared FirstMatch Prog

/-! ### Name resolution -/

structure Lookup where
  dns : Option (Option (List IpAddr))
  system : Option (List SocketAddr)
  joined : Bool

def withPort (port : UInt16) : IpAddr → Address
  | .v4 ip => .ipv4 ip port
  | .v6 ip => .ipv6 ip port

variable (lookup : Lookup)

def Lookup.collect (port : UInt16) : Option (List Address) :=
  let fromDns := match lookup.dns with
    | some (some addrs) => addrs.map (withPort port)
    | _ => []
  let ips :=
    if fromDns.isEmpty then
      match lookup.system with
      | some addrs => addrs.map fun addr => withPort port addr.ip
      | none => []
    else fromDns
  if ips.isEmpty then none else some ips

def resolveDomainIps : Address → Option (List Address)
  | .domain _ port => lookup.collect port
  | _ => none

def prefetchDns : Address → Option (Option (List Address))
  | .domain _ port =>
    match lookup.dns with
    | none => none
    | some _ => some (if lookup.joined then lookup.collect port else none)
  | _ => none

def isDomain : Address → Bool
  | .domain _ _ => true
  | _ => false

variable {dest : Address} (lookup : Lookup)

theorem resolveDomainIps_of_not_isDomain
    (h : ¬isDomain dest = true) : resolveDomainIps lookup dest = none := by
  cases dest with
  | ipv4 ip port => rfl
  | ipv6 ip port => rfl
  | domain name port => exact absurd rfl h

theorem prefetchDns_of_not_isDomain
    (h : ¬isDomain dest = true) : prefetchDns lookup dest = none := by
  cases dest with
  | ipv4 ip port => rfl
  | ipv6 ip port => rfl
  | domain name port => exact absurd rfl h

/-! ### Rules -/

class Text where
  trim : String → String
  toLowercase : String → String

section

variable [Text]

def labelSuffixes : Bool → List Char → List (List Char)
  | _, [] => []
  | true, c :: cs => (c :: cs) :: labelSuffixes (c == '.') cs
  | false, c :: cs => labelSuffixes (c == '.') cs

def domainHit (full suffix : List String) (keyword regex : String → Bool) (domain : String) :
    Bool :=
  let lower := if domain.toList.any Char.isUpper then Text.toLowercase domain else domain
  full.contains lower ||
    (labelSuffixes true lower.toList).any (fun s => suffix.contains (String.ofList s)) ||
    keyword lower || regex lower

structure DomainMatcher where
  full : List String
  suffix : List String
  keyword : String → Bool
  regex : String → Bool

def DomainMatcher.matchesDomain (matcher : DomainMatcher) (domain : String) : Bool :=
  domainHit matcher.full matcher.suffix matcher.keyword matcher.regex domain

structure GeoSiteMatcher where
  full : List String
  suffix : List String
  keyword : String → Bool
  regex : String → Bool

def GeoSiteMatcher.matchDomain (matcher : GeoSiteMatcher) (domain : String) : Bool :=
  domainHit matcher.full matcher.suffix matcher.keyword matcher.regex domain

structure RoutingContext where
  dest : Address
  inboundTag : String
  user : Option String
  sniffedProtocol : Option String
  sniffedDomain : Option String

structure CompiledRule (IpNet : Type) [IpNetApi IpNet] where
  outboundTag : String
  domainMatcher : Option DomainMatcher
  geositeCodes : List String
  ipMatcher : Option (IpMatcher IpNet)
  geoipCodes : List String
  portRanges : List (UInt16 × UInt16)
  inboundTags : List String
  protocols : List String

def ipOf : Address → Option IpAddr
  | .ipv4 ip _ => some (.v4 ip)
  | .ipv6 ip _ => some (.v6 ip)
  | .domain _ _ => none

variable {IpNet : Type} [IpNetApi IpNet]

def CompiledRule.matchesWithGeo (rule : CompiledRule IpNet) (ctx : RoutingContext)
    (geoip : String → Option (GeoIpMatcher IpNet)) (geosite : String → Option GeoSiteMatcher) :
    Bool :=
  (rule.inboundTags.isEmpty || rule.inboundTags.any fun t => t == ctx.inboundTag) &&
  (rule.protocols.isEmpty ||
    match ctx.sniffedProtocol with
    | none => false
    | some proto => rule.protocols.any fun p => p == proto) &&
  (rule.portRanges.isEmpty ||
    rule.portRanges.any fun (lo, hi) => decide (ctx.dest.port ≥ lo ∧ ctx.dest.port ≤ hi)) &&
  (if rule.domainMatcher.isSome || !rule.geositeCodes.isEmpty then
    -- a rule for domains looks at the sniffed domain when the destination is an address
    let domainName := match ctx.dest with
      | .domain name _ => some name
      | _ => ctx.sniffedDomain
    match domainName with
    | none => false
    | some name =>
      (rule.domainMatcher.any fun dm => dm.matchesDomain name) ||
        rule.geositeCodes.any fun code => (geosite code).any fun m => m.matchDomain name
  else true) &&
  (if rule.ipMatcher.isSome || !rule.geoipCodes.isEmpty then
    match ipOf ctx.dest with
    | some ip =>
      (rule.ipMatcher.any fun im => im.matchesIp ip) ||
        rule.geoipCodes.any fun code => (geoip code).any fun m => m.matchIp ip
    | none => false
  else true)

/-! ### The router -/

structure Route where
  outboundTag : String
  deriving DecidableEq

inductive RoutingDomainStrategy
  | asIs
  | ipIfNonMatch
  | ipOnDemand
  deriving DecidableEq

variable (strategy : RoutingDomainStrategy)

def normalizeRoutingDomainStrategy (strategy : Option String) : RoutingDomainStrategy :=
  match strategy.map fun s => (Text.trim s).toLower with
  | some "ipifnonmatch" => .ipIfNonMatch
  | some "ipondemand" => .ipOnDemand
  | _ => .asIs

structure RouterInner (IpNet : Type) [IpNetApi IpNet] where
  rules : List (CompiledRule IpNet)
  defaultTag : String
  geoip : String → Option (GeoIpMatcher IpNet)
  geosite : String → Option GeoSiteMatcher
  domainStrategy : Option String
  hasIpRules : Bool
  hasIpRules_eq : hasIpRules = rules.any fun r => r.ipMatcher.isSome || !r.geoipCodes.isEmpty

namespace RouterInner

def new (rules : List (CompiledRule IpNet)) (defaultTag : String)
    (geoip : String → Option (GeoIpMatcher IpNet)) (geosite : String → Option GeoSiteMatcher)
    (domainStrategy : Option String) : RouterInner IpNet where
  rules := rules
  defaultTag := defaultTag
  geoip := geoip
  geosite := geosite
  domainStrategy := domainStrategy
  hasIpRules := rules.any fun r => r.ipMatcher.isSome || !r.geoipCodes.isEmpty
  hasIpRules_eq := rfl

def pickRouteMatch (inner : RouterInner IpNet) (ctx : RoutingContext) : Route × Bool :=
  match inner.rules.find? fun rule => rule.matchesWithGeo ctx inner.geoip inner.geosite with
  | some rule => (⟨rule.outboundTag⟩, true)
  | none => (⟨inner.defaultTag⟩, false)

end RouterInner

namespace LiveRouter

def domainStrategy : Prog (RouterInner IpNet) (Option String) := .read fun inner =>
  inner.domainStrategy

def hasIpRules : Prog (RouterInner IpNet) Bool := .read fun inner => inner.hasIpRules

def pickRouteMatch (ctx : RoutingContext) : Prog (RouterInner IpNet) (Route × Bool) :=
  .read fun inner => inner.pickRouteMatch ctx

end LiveRouter

/-! ### The decision -/

structure Request where
  inboundTag : String
  user : Option String
  sniffedProtocol : Option String
  sniffedDomain : Option String

def routingCtx (req : Request) (dest : Address) : RoutingContext where
  dest := dest
  inboundTag := req.inboundTag
  user := req.user
  sniffedProtocol := req.sniffedProtocol
  sniffedDomain := req.sniffedDomain

def tryIps (req : Request) : List Address → Prog (RouterInner IpNet) (Option Route)
  | [] => pure none
  | ip :: ips => do
    match ← LiveRouter.pickRouteMatch (routingCtx req ip) with
    | (route, true) => pure (some route)
    | (_, false) => tryIps req ips

def tryResolved (req : Request) : Option (List Address) → Prog (RouterInner IpNet) (Option Route)
  | some ips => tryIps req ips
  | none => pure none

section

variable (lookup : Lookup) (req : Request) (dest : Address)

/-- The first part of `pick_route_xray`: under `IPOnDemand` the addresses of a domain are tried
before the domain. -/
def routeOnDemand : Prog (RouterInner IpNet) (Option Route) :=
  if strategy = .ipOnDemand ∧ isDomain dest then do
    if ← LiveRouter.hasIpRules then tryResolved req (resolveDomainIps lookup dest) else pure none
  else pure none

def startPrefetch : Prog (RouterInner IpNet) (Option (Option (List Address))) :=
  if strategy = .ipIfNonMatch ∧ isDomain dest then do
    if ← LiveRouter.hasIpRules then pure (prefetchDns lookup dest) else pure none
  else pure none

/-- The third part: the destination itself and then, under `IPIfNonMatch`, its addresses. -/
def routeDest (prefetch : Option (Option (List Address))) : Prog (RouterInner IpNet) Route := do
  let (route, matched) ← LiveRouter.pickRouteMatch (routingCtx req dest)
  if matched ∨ strategy = .asIs then pure route
  else if strategy = .ipIfNonMatch ∧ isDomain dest then do
    let found ← tryResolved req (prefetch.getD (resolveDomainIps lookup dest))
    pure (found.getD route)
  else pure route

def pickRouteWith : Prog (RouterInner IpNet) Route := do
  match ← routeOnDemand strategy lookup req dest with
  | some route => pure route
  | none => do
    let prefetch ← startPrefetch strategy lookup dest
    routeDest strategy lookup req dest prefetch

/-- `pick_route_xray`, with each load of the router as a step of its own. -/
def pickRouteXray : Prog (RouterInner IpNet) Route := do
  let strategy := normalizeRoutingDomainStrategy (← LiveRouter.domainStrategy)
  pickRouteWith strategy lookup req dest

end

/-! ### One configuration -/

section

variable (inner : RouterInner IpNet)

def matchesAddr (req : Request) (rule : CompiledRule IpNet) (addr : Address) : Bool :=
  rule.matchesWithGeo (routingCtx req addr) inner.geoip inner.geosite

def routeAt (k : ℕ) : Route :=
  ⟨(inner.rules[k]?.map fun rule => rule.outboundTag).getD inner.defaultTag⟩

/-- The addresses that the domain resolves to. -/
def resolvedIps (lookup : Lookup) (dest : Address) : List Address :=
  let ahead := normalizeRoutingDomainStrategy inner.domainStrategy = .ipIfNonMatch ∧
    inner.hasIpRules = true
  ((if ahead then prefetchDns lookup dest else none).getD (resolveDomainIps lookup dest)).getD []

/-- The addresses that a decision tries, in this order. -/
def triedAddrs (lookup : Lookup) (dest : Address) : List Address :=
  match normalizeRoutingDomainStrategy inner.domainStrategy with
  | .asIs => [dest]
  | .ipIfNonMatch => dest :: resolvedIps inner lookup dest
  | .ipOnDemand => (if inner.hasIpRules then resolvedIps inner lookup dest else []) ++ [dest]

end

section

variable (inner : RouterInner IpNet)
include inner

section

variable (req : Request)
include req

theorem pickRouteMatch_eq (addr : Address) :
    inner.pickRouteMatch (routingCtx req addr) =
      (routeAt inner (rank (matchesAddr inner req) inner.rules addr),
        decide (rank (matchesAddr inner req) inner.rules addr < inner.rules.length)) := by
  unfold RouterInner.pickRouteMatch routeAt rank
  rw [List.find?_eq_getElem?_findIdx]
  by_cases hlt : inner.rules.findIdx (fun rule => matchesAddr inner req rule addr) <
      inner.rules.length
  · rw [decide_eq_true hlt]
    simp only [matchesAddr] at hlt ⊢
    rw [List.getElem?_eq_getElem hlt]
    rfl
  · rw [decide_eq_false hlt]
    simp only [matchesAddr] at hlt ⊢
    rw [List.getElem?_eq_none (not_lt.1 hlt)]
    rfl

theorem tryIps_alone (ips : List Address) : (tryIps req ips).alone inner =
      if firstRank (matchesAddr inner req) inner.rules ips < inner.rules.length then
        some (routeAt inner (firstRank (matchesAddr inner req) inner.rules ips))
      else none := by
  induction ips with
  | nil => simp [tryIps, firstRank]
  | cons ip ips ih =>
    rw [tryIps, alone_bind, LiveRouter.pickRouteMatch, alone_read, pickRouteMatch_eq,
      firstRank]
    by_cases hlt : rank (matchesAddr inner req) inner.rules ip < inner.rules.length
    · simp [hlt]
    · simp [hlt, ih]

theorem tryResolved_alone (ips : Option (List Address)) : (tryResolved req ips).alone inner =
      if firstRank (matchesAddr inner req) inner.rules (ips.getD []) < inner.rules.length then
        some (routeAt inner (firstRank (matchesAddr inner req) inner.rules (ips.getD [])))
      else none := by
  cases ips with
  | none => simp [tryResolved, firstRank]
  | some ips => exact tryIps_alone inner req ips

theorem routeOnDemand_alone (dest : Address) :
    (routeOnDemand .ipOnDemand lookup req dest).alone inner =
      (tryResolved req (if inner.hasIpRules then resolveDomainIps lookup dest else none)).alone
        inner := by
  unfold routeOnDemand LiveRouter.hasIpRules
  by_cases hdom : isDomain dest = true
  · rw [if_pos ⟨rfl, hdom⟩, alone_bind, alone_read]
    cases inner.hasIpRules <;> rfl
  · rw [if_neg fun h => hdom h.2, resolveDomainIps_of_not_isDomain lookup hdom, ite_self]
    rfl

end

omit [Text] in
theorem startPrefetch_alone (dest : Address) :
    (startPrefetch .ipIfNonMatch lookup dest).alone inner =
      if inner.hasIpRules = true then prefetchDns lookup dest else none := by
  unfold startPrefetch LiveRouter.hasIpRules
  by_cases hdom : isDomain dest = true
  · rw [if_pos ⟨rfl, hdom⟩, alone_bind, alone_read]
    cases inner.hasIpRules <;> rfl
  · rw [if_neg fun h => hdom h.2, prefetchDns_of_not_isDomain lookup hdom, ite_self]
    rfl

theorem routeDest_alone (strategy : RoutingDomainStrategy)
    (lookup : Lookup) (req : Request) (dest : Address) (prefetch : Option (Option (List Address))) :
    (routeDest strategy lookup req dest prefetch).alone inner =
      routeAt inner (firstRank (matchesAddr inner req) inner.rules (dest ::
        if strategy = .ipIfNonMatch ∧ isDomain dest then
          (prefetch.getD (resolveDomainIps lookup dest)).getD []
        else [])) := by
  unfold routeDest
  rw [alone_bind, LiveRouter.pickRouteMatch, alone_read, pickRouteMatch_eq, firstRank]
  by_cases hlt : rank (matchesAddr inner req) inner.rules dest < inner.rules.length
  · simp [hlt]
  · have hdest : rank (matchesAddr inner req) inner.rules dest = inner.rules.length :=
      le_antisymm (rank_le_length dest) (not_lt.1 hlt)
    by_cases hresolve : strategy = .ipIfNonMatch ∧ isDomain dest
    · obtain ⟨rfl, hdom⟩ := hresolve
      simp only [hdest, hdom, lt_self_iff_false, decide_false, Bool.false_eq_true, reduceCtorEq,
        or_self, and_self, if_true, if_false, alone_bind, tryResolved_alone, alone_pure]
      split_ifs with hfound
      · rfl
      · rw [Option.getD_none, le_antisymm (firstRank_le_length _) (not_lt.1 hfound)]
    · by_cases hasIs : strategy = .asIs <;> simp [hresolve, hasIs, hdest, firstRank]

/-- **One decision over one configuration.**  It ends with the first rule of the first address
that matches any, among the addresses that it tries. -/
theorem pickRouteXray_alone (req : Request) (dest : Address) :
    (pickRouteXray lookup req dest).alone inner =
      routeAt inner (firstRank (matchesAddr inner req) inner.rules
        (triedAddrs inner lookup dest)) := by
  unfold pickRouteXray pickRouteWith triedAddrs resolvedIps
  simp only [alone_bind, LiveRouter.domainStrategy, alone_read]
  cases hs : normalizeRoutingDomainStrategy inner.domainStrategy with
  | asIs => simp [routeOnDemand, startPrefetch, routeDest_alone]
  | ipIfNonMatch =>
    rw [show (routeOnDemand .ipIfNonMatch lookup req dest).alone inner = none from rfl]
    simp only [alone_bind, startPrefetch_alone, routeDest_alone, true_and]
    by_cases hdom : isDomain dest = true
    · rw [if_pos hdom]
    · rw [if_neg hdom, resolveDomainIps_of_not_isDomain lookup hdom,
        prefetchDns_of_not_isDomain lookup hdom, ite_self]
      rfl
  | ipOnDemand =>
    have hips : (if inner.hasIpRules = true then (resolveDomainIps lookup dest).getD [] else []) =
        (if inner.hasIpRules = true then resolveDomainIps lookup dest else none).getD [] := by
      split_ifs <;> rfl
    simp only [reduceCtorEq, false_and, if_false, Option.getD_none]
    rw [routeOnDemand_alone, tryResolved_alone, firstRank_append, hips]
    generalize (if inner.hasIpRules = true then resolveDomainIps lookup dest else none) = ips
    split_ifs with hfound
    · rfl
    · simp [routeDest_alone]

end

/-! ### The order of the rules -/

/-- The position of the rule that a decision should end with: under `IPOnDemand` the first rule
that matches the domain or one of its addresses, under `IPIfNonMatch` the first rule that matches
the domain or, if there is none, the first one that matches one of its addresses. -/
def expectedRank (inner : RouterInner IpNet) (lookup : Lookup) (req : Request)
    (dest : Address) : ℕ :=
  let m := matchesAddr inner req
  match normalizeRoutingDomainStrategy inner.domainStrategy with
  | .asIs => rank m inner.rules dest
  | .ipIfNonMatch =>
    if rank m inner.rules dest < inner.rules.length then rank m inner.rules dest
    else lowestRank m inner.rules (resolvedIps inner lookup dest)
  | .ipOnDemand => lowestRank m inner.rules (dest :: resolvedIps inner lookup dest)

/-- No address that is tried later matches a rule above the one that is chosen. -/
def RuleOrderDecides (inner : RouterInner IpNet) (lookup : Lookup) (req : Request)
    (dest : Address) : Prop :=
  let m := matchesAddr inner req
  match normalizeRoutingDomainStrategy inner.domainStrategy with
  | .asIs => True
  | .ipIfNonMatch =>
    rank m inner.rules dest < inner.rules.length ∨
      ∀ ip ∈ resolvedIps inner lookup dest,
        firstRank m inner.rules (resolvedIps inner lookup dest) ≤
          rank m inner.rules ip
  | .ipOnDemand =>
    ∀ addr ∈ dest :: resolvedIps inner lookup dest,
      firstRank m inner.rules (triedAddrs inner lookup dest) ≤
        rank m inner.rules addr

variable (inner : RouterInner IpNet)

theorem firstRank_eq_expectedRank_iff (lookup : Lookup) (req : Request) (dest : Address) :
    firstRank (matchesAddr inner req) inner.rules (triedAddrs inner lookup dest) =
        expectedRank inner lookup req dest ↔ RuleOrderDecides inner lookup req dest := by
  unfold expectedRank RuleOrderDecides
  cases hs : normalizeRoutingDomainStrategy inner.domainStrategy with
  | asIs => simp [triedAddrs, hs, firstRank_singleton]
  | ipIfNonMatch =>
    simp only [triedAddrs, hs, firstRank]
    by_cases hlt : rank (matchesAddr inner req) inner.rules dest < inner.rules.length
    · simp [hlt]
    · simp only [hlt, if_false, false_or]
      exact firstRank_eq_lowestRank_iff fun _ h => h
  | ipOnDemand =>
    refine firstRank_eq_lowestRank_iff fun addr haddr => ?_
    simp only [triedAddrs, hs, List.mem_append, List.mem_singleton] at haddr
    rcases haddr with haddr | rfl
    · split_ifs at haddr
      · exact List.mem_cons_of_mem dest haddr
      · cases haddr
    · exact List.mem_cons_self

theorem expectedRank_le_length (lookup : Lookup) (req : Request)
    (dest : Address) : expectedRank inner lookup req dest ≤ inner.rules.length := by
  unfold expectedRank
  cases normalizeRoutingDomainStrategy inner.domainStrategy with
  | asIs => exact rank_le_length dest
  | ipIfNonMatch =>
    dsimp only
    split_ifs
    · exact rank_le_length dest
    · exact lowestRank_le_length _
  | ipOnDemand => exact lowestRank_le_length _

omit [Text] in
theorem routeAt_inj {inner : RouterInner IpNet}
    (h : (inner.rules.map (fun rule => rule.outboundTag) ++ [inner.defaultTag]).Nodup) {i j : ℕ}
    (hi : i ≤ inner.rules.length) (hj : j ≤ inner.rules.length)
    (heq : routeAt inner i = routeAt inner j) : i = j := by
  have hget : ∀ k ≤ inner.rules.length,
      (inner.rules.map (fun rule => rule.outboundTag) ++ [inner.defaultTag])[k]? =
        some (routeAt inner k).outboundTag := by
    intro k hk
    rcases hk.lt_or_eq with hlt | rfl
    · rw [List.getElem?_append_left (by simpa using hlt)]
      simp [routeAt, hlt]
    · rw [List.getElem?_append_right (by simp)]
      simp [routeAt]
  refine (List.getElem?_inj ?_ h).1 ?_
  · simpa using Nat.lt_succ_of_le hi
  · rw [hget i hi, hget j hj, heq]

/-- **The order of the rules.**  For every list of rules, domain and result of its resolution, a
decision ends with the outbound of the first rule in question if no address in question matches a
rule above the one of the address that is tried first; and only then, if all outbounds are
different. -/
theorem pickRouteXray_ruleOrder (inner : RouterInner IpNet) (lookup : Lookup) (req : Request)
    (name : String) (port : UInt16) :
    (RuleOrderDecides inner lookup req (.domain name port) →
      (pickRouteXray lookup req (.domain name port)).alone inner =
        routeAt inner (expectedRank inner lookup req (.domain name port))) ∧
    ((inner.rules.map (fun rule => rule.outboundTag) ++ [inner.defaultTag]).Nodup →
      (pickRouteXray lookup req (.domain name port)).alone inner =
        routeAt inner (expectedRank inner lookup req (.domain name port)) →
      RuleOrderDecides inner lookup req (.domain name port)) := by
  rw [pickRouteXray_alone, ← firstRank_eq_expectedRank_iff]
  refine ⟨fun h => by rw [h], fun hnodup heq => ?_⟩
  exact routeAt_inj hnodup (firstRank_le_length _) (expectedRank_le_length inner lookup req _) heq

/-! ### Configurations that change -/

section

variable {c s : RouterInner IpNet} {stores : List (List (RouterInner IpNet))}

end

end

/-! ### Decisions that go wrong -/

instance : Text where
  trim s := String.ofList
    (((s.toList.dropWhile Char.isWhitespace).reverse.dropWhile Char.isWhitespace).reverse)
  toLowercase := String.toLower

def ipRule (tag : String) (net : Router.Cidr) : CompiledRule Router.Cidr where
  outboundTag := tag
  domainMatcher := none
  geositeCodes := []
  ipMatcher := some (ofNets [net])
  geoipCodes := []
  portRanges := []
  inboundTags := []
  protocols := []

def domainRule (tag name : String) : CompiledRule Router.Cidr where
  outboundTag := tag
  domainMatcher := some ⟨[name], [], fun _ => false, fun _ => false⟩
  geositeCodes := []
  ipMatcher := none
  geoipCodes := []
  portRanges := []
  inboundTags := []
  protocols := []

def config (rules : List (CompiledRule Router.Cidr)) (strategy : String) :
    RouterInner Router.Cidr :=
  .new rules "default" (fun _ => none) (fun _ => none) (some strategy)

def plainRequest : Request := ⟨"in", none, none, none⟩

def twoIps : Lookup :=
  ⟨some (some [.v4 ⟨[20, 0, 0, 1], rfl⟩, .v4 ⟨[10, 0, 0, 2], rfl⟩]), none, true⟩

def twoRules : List (CompiledRule Router.Cidr) :=
  [ipRule "ten" (.v4 0x0a000000 8), ipRule "twenty" (.v4 0x14000000 8)]

theorem pickRouteXray_ruleOrder_twoRules :
    (pickRouteXray twoIps plainRequest (.domain "example.com" 443)).alone
        (config twoRules.reverse "IPOnDemand") =
      routeAt (config twoRules.reverse "IPOnDemand")
        (expectedRank (config twoRules.reverse "IPOnDemand") twoIps plainRequest
          (.domain "example.com" 443)) := by
  refine (pickRouteXray_ruleOrder _ _ _ _ _).1 ((firstRank_eq_expectedRank_iff _ _ _ _).1 ?_)
  decide +kernel

/-- The address that was resolved first decides against the order of the rules, under both
strategies; and under `IPOnDemand` an address decides against a rule above that matches the
domain. -/
theorem ruleOrder_overridden :
    ((pickRouteXray twoIps plainRequest (.domain "example.com" 443)).alone
        (config twoRules "IPOnDemand") = ⟨"twenty"⟩ ∧
      routeAt (config twoRules "IPOnDemand") (expectedRank (config twoRules "IPOnDemand") twoIps
        plainRequest (.domain "example.com" 443)) = ⟨"ten"⟩) ∧
    ((pickRouteXray twoIps plainRequest (.domain "example.com" 443)).alone
        (config twoRules "IPIfNonMatch") = ⟨"twenty"⟩ ∧
      routeAt (config twoRules "IPIfNonMatch") (expectedRank (config twoRules "IPIfNonMatch")
        twoIps plainRequest (.domain "example.com" 443)) = ⟨"ten"⟩) ∧
    ((pickRouteXray twoIps plainRequest (.domain "example.com" 443)).alone
        (config (domainRule "named" "example.com" :: twoRules) "IPOnDemand") = ⟨"twenty"⟩ ∧
      routeAt (config (domainRule "named" "example.com" :: twoRules) "IPOnDemand")
        (expectedRank (config (domainRule "named" "example.com" :: twoRules) "IPOnDemand") twoIps
          plainRequest (.domain "example.com" 443)) = ⟨"named"⟩) := by
  decide +kernel

end Blackwire.Routing
