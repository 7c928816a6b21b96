import Blackwire.Common.Context
import Blackwire.Lib.Search

/-!
# The IP matcher of the router

`IpMatcher` of `router.rs`: a list of networks, sorted once, in which an address is looked up by a
binary search and a look at the four entries before the point found.
-/

namespace Blackwire.Router

open Search List Bytes

/-- `IpNet` as the matcher uses it: networks with their total order, parsed from text, made from an
address and the length of its mask, and asked for an address. -/
class IpNetApi (IpNet : Type) extends LinearOrder IpNet where
  parse : String → Except String IpNet
  new : IpAddr → UInt8 → Except String IpNet
  contains : IpNet → IpAddr → Bool

variable {IpNet : Type} [IpNetApi IpNet] (nets : List IpNet)

structure IpMatcher (IpNet : Type) [IpNetApi IpNet] where
  ranges : List IpNet
  sorted : ranges.Pairwise (· ≤ ·)

open IpNetApi

def parseRanges (ranges : List String) : Except String (List IpNet) :=
  ranges.mapM fun r => (parse r).mapError fun e => "invalid CIDR '" ++ r ++ "': " ++ e

def fullPrefixLen : IpAddr → UInt8
  | .v4 _ => 32
  | .v6 _ => 128

namespace IpMatcher

def new (ranges : List String) : Except String (IpMatcher IpNet) := do
  let parsed ← parseRanges ranges
  pure ⟨parsed.insertionSort (· ≤ ·), pairwise_insertionSort _ _⟩

def matchesIp (matcher : IpMatcher IpNet) (ip : IpAddr) : Bool :=
  if matcher.ranges.isEmpty then false
  else
    match IpNetApi.new ip (fullPrefixLen ip) with
    | .error _ => matcher.ranges.any fun net => IpNetApi.contains net ip
    | .ok (probe : IpNet) =>
      let idx := partitionPoint (fun net => net ≤ probe) matcher.ranges
      ((matcher.ranges.take idx).drop (idx - 4)).reverse.any fun net => IpNetApi.contains net ip

end IpMatcher

/-- A network of the list has the address. -/
def Listed (ip : IpAddr) : Prop := ∃ net ∈ nets, contains net ip = true

/-- A network that has the address is among the last four before the probe. -/
def Near (ip : IpAddr) : Prop :=
  ∀ probe : IpNet, new ip (fullPrefixLen ip) = .ok probe →
    ∃ net ∈ nets, contains net ip = true ∧ net ≤ probe ∧
      nets.countP (fun other => net < other ∧ other ≤ probe) < 4

/-- **What is found.**  The matcher finds a network that contains the address among the last four
that are not above it. -/
theorem matchesIp_iff {matcher : IpMatcher IpNet} {ip : IpAddr} {probe : IpNet}
    (hprobe : new ip (fullPrefixLen ip) = .ok probe) :
    matcher.matchesIp ip = true ↔
      ∃ net ∈ matcher.ranges, contains net ip = true ∧ net ≤ probe ∧
        matcher.ranges.countP (fun other => net < other ∧ other ≤ probe) < 4 := by
  -- the search ends behind the networks that are not above the address
  obtain ⟨front, back, hsplit, hfront, hback⟩ := exists_split_le matcher.sorted probe
  have hsorted : front.Pairwise (· ≤ ·) := by
    have h := matcher.sorted
    rw [hsplit] at h
    exact (pairwise_append.1 h).1
  have hidx : partitionPoint (fun net => net ≤ probe) matcher.ranges = front.length := by
    rw [hsplit]
    exact partitionPoint_append (fun a ha => decide_eq_true (hfront a ha))
      fun a ha => decide_eq_false (hback a ha)
  have hcount : ∀ net, matcher.ranges.countP (fun other => net < other ∧ other ≤ probe) =
      front.countP fun other => net < other := by
    intro net
    have hnone : back.countP (fun other => decide (net < other ∧ other ≤ probe)) = 0 :=
      countP_eq_zero.2 fun b hb => by simp [hback b hb]
    rw [hsplit, countP_append, hnone]
    exact countP_congr fun b hb => by simp [hfront b hb]
  have hmatches : matcher.matchesIp ip =
      (front.drop (front.length - 4)).any fun net => contains net ip := by
    unfold IpMatcher.matchesIp
    rw [hprobe]
    dsimp only
    rw [hidx, hsplit, any_reverse, take_left]
    split_ifs with hempty
    · obtain ⟨rfl, -⟩ := append_eq_nil_iff.1 (List.isEmpty_iff.1 hempty)
      rfl
    · rfl
  rw [hmatches, any_drop_iff hsorted]
  constructor
  · rintro ⟨net, hmem, hcontains, hfew⟩
    refine ⟨net, ?_, hcontains, hfront net hmem, (hcount net).trans_lt hfew⟩
    rw [hsplit]
    exact mem_append_left _ hmem
  · rintro ⟨net, hmem, hcontains, hle, hfew⟩
    rw [hsplit] at hmem
    obtain hmem | hmem := mem_append.1 hmem
    · exact ⟨net, hmem, hcontains, (hcount net).symm.trans_lt hfew⟩
    · exact absurd hle (hback net hmem)

def ofNets : IpMatcher IpNet :=
  ⟨nets.insertionSort (· ≤ ·), pairwise_insertionSort _ _⟩

theorem matchesIp_ofNets_iff (ip : IpAddr) :
    (ofNets nets).matchesIp ip = true ↔ Listed nets ip ∧ Near nets ip := by
  -- sorting changes neither what is listed nor how many lie between
  have hperm := perm_insertionSort (· ≤ ·) nets
  cases hprobe : (new ip (fullPrefixLen ip) : Except String IpNet) with
  | error e =>
    have hnear : Near nets ip := fun probe hok => by rw [hprobe] at hok; cases hok
    rw [and_iff_left hnear]
    unfold IpMatcher.matchesIp ofNets
    rw [hprobe]
    dsimp only
    split_ifs with hempty
    · have hnil : nets = [] := perm_nil.1 (List.isEmpty_iff.1 hempty ▸ hperm).symm
      simp [Listed, hnil]
    · rw [any_eq_true]
      constructor
      · rintro ⟨net, hmem, hcontains⟩
        exact ⟨net, hperm.mem_iff.1 hmem, hcontains⟩
      · rintro ⟨net, hmem, hcontains⟩
        exact ⟨net, hperm.mem_iff.2 hmem, hcontains⟩
  | ok probe =>
    rw [matchesIp_iff hprobe]
    constructor
    · rintro ⟨net, hmem, hcontains, hle, hfew⟩
      change List.countP _ (nets.insertionSort _) < 4 at hfew
      rw [hperm.countP_eq] at hfew
      refine ⟨⟨net, hperm.mem_iff.1 hmem, hcontains⟩, fun probe' hprobe' => ?_⟩
      obtain rfl := Except.ok.inj (hprobe.symm.trans hprobe')
      exact ⟨net, hperm.mem_iff.1 hmem, hcontains, hle, hfew⟩
    · rintro ⟨-, hnear⟩
      obtain ⟨net, hmem, hcontains, hle, hfew⟩ := hnear probe hprobe
      refine ⟨net, hperm.mem_iff.2 hmem, hcontains, hle, ?_⟩
      change List.countP _ (nets.insertionSort _) < 4
      rwa [hperm.countP_eq]

theorem new_eq_ofNets {ranges : List String} {nets : List IpNet}
    (h : parseRanges ranges = .ok nets) : IpMatcher.new ranges = .ok (ofNets nets) := by
  rw [IpMatcher.new, h]
  rfl

/-- **Completeness of the matcher.**  For the networks of any texts and any address, the matcher
tells whether a listed network contains the address if and only if none does, or one that does is
not above the address and fewer than four others lie between. -/
theorem ipMatcher_complete_iff {ranges : List String} {nets : List IpNet}
    {matcher : IpMatcher IpNet} (hparse : parseRanges ranges = .ok nets)
    (hnew : IpMatcher.new ranges = .ok matcher) (ip : IpAddr) :
    (matcher.matchesIp ip = true ↔ Listed nets ip) ↔ (¬Listed nets ip ∨ Near nets ip) := by
  obtain rfl := Except.ok.inj (hnew.symm.trans (new_eq_ofNets hparse))
  rw [matchesIp_ofNets_iff]
  tauto

/-! ### Networks -/

abbrev Cidr := Bool ×ₗ ℕ ×ₗ ℕ

namespace Cidr

def v4 (addr len : ℕ) : Cidr := toLex (false, toLex (addr, len))

def v6 (addr len : ℕ) : Cidr := toLex (true, toLex (addr, len))

def parseNumber (digits : List Char) : Option ℕ :=
  if digits ≠ [] ∧ digits.all Char.isDigit then
    some (digits.foldl (fun n c => n * 10 + (c.toNat - 48)) 0)
  else none

def parse (text : String) : Except String Cidr :=
  match (text.toList.splitOn '/').map fun part => (part.splitOn '.').map parseNumber with
  | [[some a, some b, some c, some d], [some len]] =>
    if a < 256 ∧ b < 256 ∧ c < 256 ∧ d < 256 ∧ len ≤ 32 then
      .ok (v4 (((a * 256 + b) * 256 + c) * 256 + d) len)
    else .error "invalid IP address syntax"
  | _ => .error "invalid IP address syntax"

def new (ip : IpAddr) (len : UInt8) : Except String Cidr :=
  match ip with
  | .v4 addr =>
    if len.toNat ≤ 32 then .ok (v4 (ofBe addr.val) len.toNat)
    else .error "invalid IP prefix length"
  | .v6 addr =>
    if len.toNat ≤ 128 then .ok (v6 (ofBe addr.val) len.toNat)
    else .error "invalid IP prefix length"

def contains (net : Cidr) (ip : IpAddr) : Bool :=
  match (ofLex net).1, ip with
  | false, .v4 addr =>
    ofBe addr.val >>> (32 - (ofLex (ofLex net).2).2) ==
      (ofLex (ofLex net).2).1 >>> (32 - (ofLex (ofLex net).2).2)
  | true, .v6 addr =>
    ofBe addr.val >>> (128 - (ofLex (ofLex net).2).2) ==
      (ofLex (ofLex net).2).1 >>> (128 - (ofLex (ofLex net).2).2)
  | _, _ => false

end Cidr

instance : IpNetApi Cidr where
  parse := Cidr.parse
  new := Cidr.new
  contains := Cidr.contains

def nestedRanges : List String :=
  ["10.0.0.0/8", "10.1.0.0/16", "10.2.0.0/16", "10.3.0.0/16", "10.4.0.0/16"]

def nestedNets : List Cidr :=
  [.v4 0x0a000000 8, .v4 0x0a010000 16, .v4 0x0a020000 16, .v4 0x0a030000 16, .v4 0x0a040000 16]

theorem parseRanges_nestedRanges : parseRanges nestedRanges = .ok nestedNets := by
  decide +kernel

theorem nested_found :
    (ofNets nestedNets).matchesIp (.v4 ⟨[10, 2, 0, 1], rfl⟩) = true ↔
      Listed nestedNets (.v4 ⟨[10, 2, 0, 1], rfl⟩) := by
  refine (ipMatcher_complete_iff parseRanges_nestedRanges
    (new_eq_ofNets parseRanges_nestedRanges) _).2 (.inr fun probe hprobe => ?_)
  obtain rfl := Except.ok.inj hprobe
  exact ⟨.v4 0x0a020000 16, by decide +kernel, by decide +kernel, by decide +kernel,
    by decide +kernel⟩

/-- An address of a network with four parts below the address is not found, and neither is one of a
network that was written with an address above it. -/
theorem listed_not_found :
    (parseRanges nestedRanges = .ok nestedNets ∧
      IpMatcher.new nestedRanges = .ok (ofNets nestedNets) ∧
      Listed nestedNets (.v4 ⟨[10, 200, 0, 1], rfl⟩) ∧
      (ofNets nestedNets).matchesIp (.v4 ⟨[10, 200, 0, 1], rfl⟩) = false) ∧
    (parseRanges ["10.255.0.0/8"] = .ok [Cidr.v4 0x0aff0000 8] ∧
      IpMatcher.new ["10.255.0.0/8"] = .ok (ofNets [Cidr.v4 0x0aff0000 8]) ∧
      Listed [Cidr.v4 0x0aff0000 8] (.v4 ⟨[10, 200, 0, 1], rfl⟩) ∧
      (ofNets [Cidr.v4 0x0aff0000 8]).matchesIp (.v4 ⟨[10, 200, 0, 1], rfl⟩) = false) := by
  have hparse : parseRanges ["10.255.0.0/8"] = .ok [Cidr.v4 0x0aff0000 8] := by decide +kernel
  constructor
  · refine ⟨parseRanges_nestedRanges, new_eq_ofNets parseRanges_nestedRanges,
      ⟨.v4 0x0a000000 8, ?_, ?_⟩, ?_⟩ <;> decide +kernel
  · refine ⟨hparse, new_eq_ofNets hparse, ⟨.v4 0x0aff0000 8, ?_, ?_⟩, ?_⟩ <;> decide +kernel

end Blackwire.Router
