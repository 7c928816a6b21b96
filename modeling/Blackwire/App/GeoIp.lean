import Blackwire.App.Router

/-!
# The GeoIP matcher

`GeoIpMatcher` of `geo/geoip.rs`, built from an entry of `geoip.dat` as `geo/proto.rs` decodes it:
pairs of address bytes and the length of a mask, and a flag that says that the entry stands for the
addresses outside of them.
-/

namespace Blackwire.Geo

open Router Bytes IpNetApi

structure Cidr where
  ip : Bytes
  prefixLen : UInt32

/-- `GeoIp` of `proto.rs`, without the country code, which the matcher does not look at. -/
structure GeoIp where
  cidr : List Cidr
  inverseMatch : Bool

variable {IpNet : Type} [IpNetApi IpNet] (cidr : Cidr)

/-- `parse_cidr`.  The length of the mask is cut to its low byte before it is checked. -/
def parseCidr : Option IpNet :=
  let prefixLen := cidr.prefixLen.toUInt8
  if h : cidr.ip.length = 4 then (new (.v4 ⟨cidr.ip, h⟩) prefixLen).toOption
  else if h : cidr.ip.length = 16 then (new (.v6 ⟨cidr.ip, h⟩) prefixLen).toOption
  else none

def maxOverlapScan : ℕ := 4

structure GeoIpMatcher (IpNet : Type) [IpNetApi IpNet] where
  ranges : List IpNet
  sorted : ranges.Pairwise (· ≤ ·)

namespace GeoIpMatcher

def fromProto (entry : GeoIp) : GeoIpMatcher IpNet :=
  ⟨(entry.cidr.filterMap parseCidr).insertionSort (· ≤ ·), List.pairwise_insertionSort _ _⟩

variable (matcher : GeoIpMatcher IpNet)

def matchIp (ip : IpAddr) : Bool :=
  if matcher.ranges.isEmpty then false
  else
    match new ip (fullPrefixLen ip) with
    | .error _ => matcher.ranges.any fun net => contains net ip
    | .ok (probe : IpNet) =>
      let idx := Search.partitionPoint (fun net => net ≤ probe) matcher.ranges
      let start := idx - maxOverlapScan
      ((matcher.ranges.take idx).drop start).reverse.any fun net => contains net ip

end GeoIpMatcher

/-! ### What an entry says -/

def Cidr.address : Option IpAddr :=
  if h : cidr.ip.length = 4 then some (.v4 ⟨cidr.ip, h⟩)
  else if h : cidr.ip.length = 16 then some (.v6 ⟨cidr.ip, h⟩)
  else none

def sameNet (len : ℕ) : IpAddr → IpAddr → Bool
  | .v4 a, .v4 b => ofBe a.val >>> (32 - len) == ofBe b.val >>> (32 - len)
  | .v6 a, .v6 b => ofBe a.val >>> (128 - len) == ofBe b.val >>> (128 - len)
  | _, _ => false

def Cidr.covers (ip : IpAddr) : Bool :=
  match cidr.address with
  | none => false
  | some addr =>
    decide (cidr.prefixLen.toNat ≤ (fullPrefixLen addr).toNat) &&
      sameNet cidr.prefixLen.toNat addr ip

def expectedMatch (entry : GeoIp) (ip : IpAddr) : Bool :=
  (entry.cidr.any fun cidr => cidr.covers ip) ^^ entry.inverseMatch

/-- What the matcher assumes of the crate `ipnet`: a mask is as long as the address at most, and a
network contains the addresses that agree with its own in the bits of the mask. -/
class LawfulIpNet (IpNet : Type) [IpNetApi IpNet] : Prop where
  new_ok {addr : IpAddr} {len : UInt8} :
    len.toNat ≤ (fullPrefixLen addr).toNat → ∃ net : IpNet, new addr len = .ok net
  new_error {addr : IpAddr} {len : UInt8} : (fullPrefixLen addr).toNat < len.toNat →
    ∃ e, (new addr len : Except String IpNet) = .error e
  contains_new {addr : IpAddr} {len : UInt8} {net : IpNet} : new addr len = .ok net →
    ∀ ip, contains net ip = sameNet len.toNat addr ip

/-! ### What the matcher says -/

theorem parseCidr_eq : (parseCidr cidr : Option IpNet) =
    cidr.address.bind fun addr => (new addr cidr.prefixLen.toUInt8).toOption := by
  unfold parseCidr Cidr.address
  split_ifs <;> rfl

open GeoIpMatcher

/-- **The GeoIP matcher.**  It finds the addresses that are near a network that contains them,
whatever the flag of the entry says. -/
theorem matchIp_fromProto_iff (entry : GeoIp) (ip : IpAddr) :
    (fromProto entry : GeoIpMatcher IpNet).matchIp ip = true ↔
      Listed (entry.cidr.filterMap parseCidr : List IpNet) ip ∧
        Near (entry.cidr.filterMap parseCidr : List IpNet) ip := by
  exact matchesIp_ofNets_iff _ ip

variable [LawfulIpNet IpNet]

theorem exists_parseCidr_iff {cidr : Cidr} (hlen : cidr.prefixLen.toNat < 256) (ip : IpAddr) :
    (∃ net : IpNet, parseCidr cidr = some net ∧ contains net ip = true) ↔
      cidr.covers ip = true := by
  have hcut : cidr.prefixLen.toUInt8.toNat = cidr.prefixLen.toNat := by exact Nat.mod_eq_of_lt hlen
  rw [Cidr.covers]
  simp only [parseCidr_eq]
  cases haddr : cidr.address with
  | none => simp
  | some addr =>
    by_cases hle : cidr.prefixLen.toNat ≤ (fullPrefixLen addr).toNat
    · obtain ⟨net, hnet⟩ : ∃ net : IpNet, new addr cidr.prefixLen.toUInt8 = .ok net :=
        LawfulIpNet.new_ok (hcut.trans_le hle)
      have hcontains := LawfulIpNet.contains_new hnet ip
      rw [hcut] at hcontains
      simp [hnet, hle, hcontains, Except.toOption]
    · obtain ⟨e, he⟩ : ∃ e, (new addr cidr.prefixLen.toUInt8 : Except String IpNet) =
          .error e := LawfulIpNet.new_error (by omega)
      simp [he, hle, Except.toOption]

theorem listed_iff {cidrs : List Cidr} (hlen : ∀ cidr ∈ cidrs, cidr.prefixLen.toNat < 256)
    (ip : IpAddr) :
    Listed (cidrs.filterMap parseCidr : List IpNet) ip ↔
      (cidrs.any fun cidr => cidr.covers ip) = true := by
  rw [List.any_eq_true]
  constructor
  · rintro ⟨net, hmem, hcontains⟩
    obtain ⟨cidr, hcidr, hparse⟩ := List.mem_filterMap.1 hmem
    exact ⟨cidr, hcidr, (exists_parseCidr_iff (hlen cidr hcidr) ip).1 ⟨net, hparse, hcontains⟩⟩
  · rintro ⟨cidr, hcidr, hcovers⟩
    obtain ⟨net, hparse, hcontains⟩ : ∃ net : IpNet, parseCidr cidr = some net ∧
        contains net ip = true := (exists_parseCidr_iff (hlen cidr hcidr) ip).2 hcovers
    exact ⟨net, List.mem_filterMap.2 ⟨cidr, hcidr, hparse⟩, hcontains⟩

theorem listed_of_near {nets : List IpNet} {ip : IpAddr} (h : Near nets ip) : Listed nets ip := by
  obtain ⟨probe, hprobe⟩ : ∃ probe : IpNet, new ip (fullPrefixLen ip) = .ok probe :=
    LawfulIpNet.new_ok le_rfl
  obtain ⟨net, hmem, hcontains, -⟩ := h probe hprobe
  exact ⟨net, hmem, hcontains⟩

/-- **The GeoIP matcher and its entry.**  On an entry that is not inverted the matcher says what the
entry says if and only if a pair covers the address exactly when one of the networks, whose masks
are cut to a byte, is near it; and on an inverted entry the other way round.  If the masks fit a
byte and the entry is not inverted, this means that no pair covers the address, or a network is near
it. -/
theorem geoIp_expected_iff (entry : GeoIp) (ip : IpAddr) :
    ((fromProto entry : GeoIpMatcher IpNet).matchIp ip = expectedMatch entry ip ↔
      (((entry.cidr.any fun cidr => cidr.covers ip) = true ↔
        Near (entry.cidr.filterMap parseCidr : List IpNet) ip) ↔ entry.inverseMatch = false)) ∧
    (entry.inverseMatch = false → (∀ cidr ∈ entry.cidr, cidr.prefixLen.toNat < 256) →
      ((fromProto entry : GeoIpMatcher IpNet).matchIp ip = expectedMatch entry ip ↔
        (entry.cidr.any fun cidr => cidr.covers ip) = false ∨
          Near (entry.cidr.filterMap parseCidr : List IpNet) ip)) := by
  have hfound : (fromProto entry : GeoIpMatcher IpNet).matchIp ip = true ↔
      Near (entry.cidr.filterMap parseCidr : List IpNet) ip := by
    rw [matchIp_fromProto_iff]
    exact ⟨fun h => h.2, fun h => ⟨listed_of_near h, h⟩⟩
  constructor
  · rw [expectedMatch, ← hfound]
    cases (fromProto entry : GeoIpMatcher IpNet).matchIp ip <;>
      cases entry.cidr.any (fun cidr => cidr.covers ip) <;> cases entry.inverseMatch <;> simp
  · intro hinverse hlen
    rw [expectedMatch, hinverse, Bool.eq_iff_iff, matchIp_fromProto_iff,
      listed_iff hlen]
    cases entry.cidr.any fun cidr => cidr.covers ip <;> simp

/-! ### Entries on which the two differ -/

instance : LawfulIpNet Router.Cidr where
  new_ok {addr len} hle := by cases addr <;> exact ⟨_, if_pos hle⟩
  new_error {addr len} hlt := by cases addr <;> exact ⟨_, if_neg (not_le.2 hlt)⟩
  contains_new {addr len net} hnew ip := by
    cases addr with
    | v4 addr =>
      change (if len.toNat ≤ 32 then _ else _) = Except.ok net at hnew
      split_ifs at hnew
      obtain rfl := Except.ok.inj hnew
      cases ip with
      | v4 ip => exact Bool.beq_comm (a := ofBe ip.val >>> (32 - len.toNat))
      | v6 ip => rfl
    | v6 addr =>
      change (if len.toNat ≤ 128 then _ else _) = Except.ok net at hnew
      split_ifs at hnew
      obtain rfl := Except.ok.inj hnew
      cases ip with
      | v4 ip => rfl
      | v6 ip => exact Bool.beq_comm (a := ofBe ip.val >>> (128 - len.toNat))

def nestedEntry : GeoIp where
  cidr := [⟨[10, 0, 0, 0], 8⟩, ⟨[10, 1, 0, 0], 16⟩, ⟨[10, 2, 0, 0], 16⟩, ⟨[10, 3, 0, 0], 16⟩,
    ⟨[10, 4, 0, 0], 16⟩]
  inverseMatch := false

theorem geoIp_expected_nested :
    (fromProto nestedEntry : GeoIpMatcher Router.Cidr).matchIp
        (.v4 ⟨[10, 2, 0, 1], rfl⟩) = expectedMatch nestedEntry (.v4 ⟨[10, 2, 0, 1], rfl⟩) := by
  refine ((geoIp_expected_iff _ _).2 rfl (by decide)).2 (.inr fun probe hprobe => ?_)
  obtain rfl := Except.ok.inj hprobe
  exact ⟨.v4 0x0a020000 16, by decide +kernel, by decide +kernel, by decide +kernel,
    by decide +kernel⟩

/-- An inverted entry is matched as if it were not, a mask of `264` bits is taken for one of `8`,
and an address of a network with four parts below the address is not found. -/
theorem geoIp_not_expected :
    ((fromProto ⟨[⟨[10, 0, 0, 0], 8⟩], true⟩ : GeoIpMatcher Router.Cidr).matchIp
        (.v4 ⟨[10, 1, 2, 3], rfl⟩) = true ∧
      expectedMatch ⟨[⟨[10, 0, 0, 0], 8⟩], true⟩ (.v4 ⟨[10, 1, 2, 3], rfl⟩) = false) ∧
    ((fromProto ⟨[⟨[10, 0, 0, 0], 264⟩], false⟩ : GeoIpMatcher Router.Cidr).matchIp
        (.v4 ⟨[10, 1, 2, 3], rfl⟩) = true ∧
      expectedMatch ⟨[⟨[10, 0, 0, 0], 264⟩], false⟩ (.v4 ⟨[10, 1, 2, 3], rfl⟩) = false) ∧
    ((fromProto nestedEntry : GeoIpMatcher Router.Cidr).matchIp
        (.v4 ⟨[10, 200, 0, 1], rfl⟩) = false ∧
      expectedMatch nestedEntry (.v4 ⟨[10, 200, 0, 1], rfl⟩) = true) := by
  decide +kernel

end Blackwire.Geo
