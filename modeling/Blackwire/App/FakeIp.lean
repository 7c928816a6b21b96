import Blackwire.App.Router
import Blackwire.Lib.Cache

/-!
# The FakeIP pool

`FakeIpPool` of `dns/fakeip.rs`: every domain that is asked for is given an address of a network, by
which it is found again when traffic to that address arrives.  A full pool takes the address of the
domain that was used least lately.
-/

namespace Blackwire.FakeIp

open List AList

/-- `Ipv4Net` of the crate `ipnet`, by what the pool uses of it: its text, its first and its last
address, and that it consists of what is between the two. -/
class Ipv4NetApi (Net : Type) where
  parse : String → Except String Net
  network : Net → UInt32
  broadcast : Net → UInt32
  contains : Net → UInt32 → Bool
  network_le_broadcast (net : Net) : network net ≤ broadcast net
  contains_iff (net : Net) (ip : UInt32) :
    contains net ip = true ↔ network net ≤ ip ∧ ip ≤ broadcast net

open Ipv4NetApi (network broadcast contains)

structure FakeIpPool (Net : Type) where
  network : Net
  next : UInt32
  poolSize : ℕ
  forwardMap : AList fun _ : String => UInt32
  reverseMap : AList fun _ : UInt32 => String
  lru : Lru String

variable {Net : Type} [Ipv4NetApi Net] {pool pool' : FakeIpPool Net} {domain : String} {ip : UInt32}
  {map : AList fun _ : String => UInt32}

def firstIp (net : Net) : UInt32 := network net + 1

namespace FakeIpPool

def new (cidr : String) : Except String (FakeIpPool Net) :=
  match Ipv4NetApi.parse cidr with
  | .error e => .error ("invalid FakeIP CIDR '" ++ cidr ++ "': " ++ e)
  | .ok net =>
    let poolSize := (broadcast net - Ipv4NetApi.network net).toNat - 1
    .ok
      { network := net
        next := firstIp net
        poolSize := max poolSize 1
        forwardMap := ∅
        reverseMap := ∅
        lru := Lru.new (max poolSize 1) (Nat.lt_of_lt_of_le Nat.one_pos (Nat.le_max_right _ _)) }

variable (pool : FakeIpPool Net)

/-- The first part of `claim_ip`: a full pool drops the domain used least lately, and its address is
the one that is claimed. -/
def evict : Option UInt32 × FakeIpPool Net :=
  if pool.poolSize ≤ pool.forwardMap.keys.length then
    match pool.lru.popLru with
    | none => (none, pool)
    | some (evicted, lru) =>
      match pool.forwardMap.lookup evicted with
      | none => (none, { pool with lru := lru })
      | some ip =>
        (some ip,
          { pool with
            lru := lru
            forwardMap := pool.forwardMap.erase evicted
            reverseMap := pool.reverseMap.erase ip })
  else (none, pool)

def advance (net : Net) (n : UInt32) : UInt32 :=
  if broadcast net ≤ n then firstIp net else n + 1

def candidate (net : Net) (raw : UInt32) : UInt32 :=
  if raw < firstIp net ∨ broadcast net ≤ raw then firstIp net else raw

/-- The second part of `claim_ip`: the counter's address is taken from the domain that has it. -/
def claimNext : UInt32 × FakeIpPool Net :=
  let ip := candidate pool.network pool.next
  let pool := { pool with next := advance pool.network pool.next }
  match pool.reverseMap.lookup ip with
  | none => (ip, pool)
  | some oldDomain =>
    (ip,
      { pool with
        reverseMap := pool.reverseMap.erase ip
        forwardMap := pool.forwardMap.erase oldDomain
        lru := pool.lru.pop oldDomain })

def claimIp : UInt32 × FakeIpPool Net :=
  match pool.evict with
  | (some ip, pool) => (ip, pool)
  | (none, pool) => pool.claimNext

def allocateLocked (domain : String) : UInt32 × FakeIpPool Net :=
  match pool.forwardMap.lookup domain with
  | some ip => (ip, { pool with lru := pool.lru.get domain })
  | none =>
    let (ip, pool) := pool.claimIp
    (ip,
      { pool with
        forwardMap := pool.forwardMap.insert domain ip
        reverseMap := pool.reverseMap.insert ip domain
        lru := pool.lru.put domain })

def allocate (domain : String) : UInt32 × FakeIpPool Net :=
  match pool.forwardMap.lookup domain with
  | some ip => (ip, { pool with lru := pool.lru.get domain })
  | none => pool.allocateLocked domain

def reverse (ip : UInt32) : Option String := pool.reverseMap.lookup ip

def isFake (ip : UInt32) : Bool := contains pool.network ip

end FakeIpPool

inductive Op where
  | allocate (domain : String)
  | reverse (ip : UInt32)

def step (pool : FakeIpPool Net) : Op → FakeIpPool Net
  | .allocate domain => (pool.allocate domain).2
  | .reverse _ => pool

/-! ### One call -/

/-- The address is in the pool's network exactly if the network has room. -/
def Fits (net : Net) (ip : UInt32) : Prop :=
  contains net ip = true ↔ network net < broadcast net

/-- The three structures hold the same pairs, not more of them than the pool has room for. -/
structure Consistent (pool : FakeIpPool Net) : Prop where
  inverse : Cache.Inverse pool.forwardMap pool.reverseMap
  recent : pool.lru.keys.Perm pool.forwardMap.keys
  size : pool.forwardMap.keys.length ≤ pool.poolSize
  cap : pool.lru.cap = pool.poolSize
  fits : ∀ domain ip, pool.forwardMap.lookup domain = some ip → Fits pool.network ip

open FakeIpPool

theorem candidate_fits (net : Net) (raw : UInt32) : Fits net (candidate net raw) := by
  unfold Fits candidate firstIp
  rw [Ipv4NetApi.contains_iff]
  generalize broadcast net = hi at *
  split_ifs with hraw
  all_goals
    simp only [UInt32.le_iff_toNat_le, UInt32.lt_iff_toNat_lt, UInt32.toNat_add] at *
    have hhi := hi.toNat_lt
    simp only [UInt32.reduceToNat] at *
    omega

theorem lookup_of_lookup_erase {other : String} (h : (map.erase domain).lookup other = some ip) :
    map.lookup other = some ip := by
  by_cases heq : other = domain
  · subst heq
    simp at h
  · rwa [lookup_erase_ne heq] at h

theorem Consistent.drop (h : Consistent pool) (hip : pool.forwardMap.lookup domain = some ip)
    {lru : Lru String} (hlru : lru.keys.Perm (pool.lru.keys.erase domain))
    (hcap : lru.cap = pool.lru.cap) (next : UInt32) :
    Consistent { pool with
      next := next
      lru := lru
      forwardMap := pool.forwardMap.erase domain
      reverseMap := pool.reverseMap.erase ip } where
  inverse := h.inverse.erase hip
  recent := by
    simp only [keys_erase]
    exact hlru.trans (h.recent.erase domain)
  size := by
    simp only [keys_erase]
    exact length_erase_le.trans h.size
  cap := hcap.trans h.cap
  fits other ip' hother := h.fits other ip' (lookup_of_lookup_erase hother)

/-- What `claim_ip` does: the address it returns is free and fits, there is room for a pair, and
no pair is new. -/
structure Claimed (pool : FakeIpPool Net) (ip : UInt32) (pool' : FakeIpPool Net) : Prop where
  consistent : Consistent pool'
  network_eq : pool'.network = pool.network
  free : ip ∉ pool'.reverseMap
  fits : Fits pool'.network ip
  room : pool'.forwardMap.keys.length < pool'.poolSize
  kept : ∀ domain ip', pool'.forwardMap.lookup domain = some ip' →
    pool.forwardMap.lookup domain = some ip'

theorem length_keys_erase (h : map.lookup domain = some ip) :
    (map.erase domain).keys.length < map.keys.length := by
  have hmem : domain ∈ map.keys := mem_keys.1 (lookup_isSome.1 (h ▸ rfl))
  have hpos := length_pos_of_mem hmem
  rw [keys_erase, length_erase_of_mem hmem]
  omega

theorem evict_cases (h : Consistent pool) :
    (pool.forwardMap.keys.length < pool.poolSize ∧ pool.evict = (none, pool)) ∨
      ∃ ip pool', pool.evict = (some ip, pool') ∧ Claimed pool ip pool' := by
  by_cases hfull : pool.poolSize ≤ pool.forwardMap.keys.length
  swap
  · exact .inl ⟨by omega, by simp only [evict, if_neg hfull]⟩
  refine .inr ?_
  cases hpop : pool.lru.popLru with
  | none =>
    have hempty := Lru.popLru_eq_none hpop
    have hlength := h.recent.length_eq
    have hpos := pool.lru.pos
    rw [hempty, length_nil] at hlength
    rw [h.cap] at hpos
    omega
  | some popped =>
    obtain ⟨evicted, lru⟩ := popped
    obtain ⟨hkeys, hcap⟩ := Lru.popLru_eq_some hpop
    have hmem : evicted ∈ pool.forwardMap.keys := h.recent.subset (by simp [hkeys])
    obtain ⟨ip, hip⟩ := Option.isSome_iff_exists.1
      (lookup_isSome.2 (mem_keys.2 hmem))
    refine ⟨ip, _, by simp only [evict, if_pos hfull, hpop, hip]; rfl, ?_⟩
    -- the domain dropped is the last of the list, which has it once
    have hlru : lru.keys.Perm (pool.lru.keys.erase evicted) := by
      have hnodup := pool.lru.nodup
      rw [hkeys] at hnodup ⊢
      have hnot : evicted ∉ lru.keys := fun hin =>
        (nodup_append.1 hnodup).2.2 evicted hin evicted (by simp) rfl
      rw [erase_append_right _ hnot]
      simp
    exact
      { consistent := h.drop hip hlru hcap pool.next
        network_eq := rfl
        free := by simp
        fits := h.fits evicted ip hip
        room := lt_of_lt_of_le (length_keys_erase hip) h.size
        kept := fun _ _ => lookup_of_lookup_erase }

theorem claimNext_claimed (h : Consistent pool)
    (hroom : pool.forwardMap.keys.length < pool.poolSize) :
    Claimed pool pool.claimNext.1 pool.claimNext.2 := by
  unfold claimNext
  have hfits := candidate_fits pool.network pool.next
  generalize candidate pool.network pool.next = ip at *
  cases hold : pool.reverseMap.lookup ip with
  | none =>
    simp only [hold]
    exact
      { consistent := ⟨h.inverse, h.recent, h.size, h.cap, h.fits⟩
        network_eq := rfl
        free := lookup_eq_none.1 hold
        fits := hfits
        room := hroom
        kept := fun _ _ => id }
  | some oldDomain =>
    have hip := (h.inverse oldDomain ip).2 hold
    have hlru : (pool.lru.pop oldDomain).keys.Perm (pool.lru.keys.erase oldDomain) := .refl _
    simp only [hold]
    exact
      { consistent := h.drop hip hlru rfl _
        network_eq := rfl
        free := by simp
        fits := hfits
        room := (length_keys_erase hip).trans hroom
        kept := fun _ _ => lookup_of_lookup_erase }

theorem claimIp_claimed (h : Consistent pool) : Claimed pool pool.claimIp.1 pool.claimIp.2 := by
  unfold claimIp
  rcases evict_cases h with ⟨hroom, heq⟩ | ⟨ip, pool', heq, hclaimed⟩
  · rw [heq]
    exact claimNext_claimed h hroom
  · rw [heq]
    exact hclaimed

theorem allocate_of_some (h : pool.forwardMap.lookup domain = some ip) :
    pool.allocate domain = (ip, { pool with lru := pool.lru.get domain }) := by
  simp only [allocate, h]

theorem allocate_of_none (h : pool.forwardMap.lookup domain = none) :
    pool.allocate domain =
      (pool.claimIp.1,
        { pool.claimIp.2 with
          forwardMap := pool.claimIp.2.forwardMap.insert domain pool.claimIp.1
          reverseMap := pool.claimIp.2.reverseMap.insert pool.claimIp.1 domain
          lru := pool.claimIp.2.lru.put domain }) := by
  simp only [allocate, allocateLocked, h]

theorem Claimed.insert (h : Claimed pool ip pool') (hnone : pool.forwardMap.lookup domain = none) :
    Consistent { pool' with
      forwardMap := pool'.forwardMap.insert domain ip
      reverseMap := pool'.reverseMap.insert ip domain
      lru := pool'.lru.put domain } := by
  have hnew : domain ∉ pool'.forwardMap := by
    rw [← lookup_eq_none, Option.eq_none_iff_forall_ne_some]
    intro ip' hip'
    cases hnone.symm.trans (h.kept domain ip' hip')
  have hkeys : domain ∉ pool'.forwardMap.keys := fun hin => hnew (mem_keys.2 hin)
  have hlru : domain ∉ pool'.lru.keys := fun hin => hkeys (h.consistent.recent.subset hin)
  have hput : (pool'.lru.put domain).keys = domain :: pool'.lru.keys := by
    refine Lru.put_keys hlru ?_
    rw [h.consistent.recent.length_eq, h.consistent.cap]
    exact h.room
  constructor
  · exact h.consistent.inverse.insert hnew h.free
  · simp only [hput, keys_insert, erase_of_not_mem hkeys]
    exact h.consistent.recent.cons domain
  · simp only [keys_insert, erase_of_not_mem hkeys, length_cons]
    exact h.room
  · simp only [Lru.put_cap]
    exact h.consistent.cap
  · intro other ip' hother
    by_cases heq : other = domain
    · subst heq
      rw [lookup_insert] at hother
      cases hother
      exact h.fits
    · rw [lookup_insert_ne heq] at hother
      exact h.consistent.fits other ip' hother

/-- `allocate` keeps the pool consistent, and its pairs but for those it evicts; the domain has the
address it returns. -/
structure Allocated (pool : FakeIpPool Net) (domain : String) : Prop where
  consistent : Consistent (pool.allocate domain).2
  network_eq : (pool.allocate domain).2.network = pool.network
  has : (pool.allocate domain).2.forwardMap.lookup domain = some (pool.allocate domain).1
  kept : ∀ other ip, pool.forwardMap.lookup other = some ip →
    (pool.allocate domain).2.forwardMap.lookup other = some ip ∨
      other ∉ (pool.allocate domain).2.forwardMap

theorem allocate_allocated (h : Consistent pool) (domain : String) : Allocated pool domain := by
  cases hlookup : pool.forwardMap.lookup domain with
  | some ip =>
    have heq := allocate_of_some hlookup
    constructor <;> rw [heq]
    · exact
        { inverse := h.inverse
          recent := (pool.lru.get_perm domain).trans h.recent
          size := h.size
          cap := (pool.lru.get_cap domain).trans h.cap
          fits := h.fits }
    · exact hlookup
    · exact fun other ip' hother => .inl hother
  | none =>
    have hclaimed := claimIp_claimed h
    constructor <;> rw [allocate_of_none hlookup]
    · exact hclaimed.insert hlookup
    · exact hclaimed.network_eq
    · exact lookup_insert _
    · intro other ip hother
      have hne : other ≠ domain := by
        rintro rfl
        cases hlookup.symm.trans hother
      simp only [lookup_insert_ne hne, mem_insert, hne, false_or]
      cases hstill : pool.claimIp.2.forwardMap.lookup other with
      | none => exact .inr (lookup_eq_none.1 hstill)
      | some ip' =>
        have hsame := hclaimed.kept other ip' hstill
        exact .inl (hsame.symm.trans hother)

/-! ### All calls -/

theorem new_consistent {cidr : String} (hnew : new cidr = .ok pool) : Consistent pool := by
  unfold new at hnew
  cases hparse : (Ipv4NetApi.parse cidr : Except String Net) with
  | error e =>
    rw [hparse] at hnew
    cases hnew
  | ok net =>
    rw [hparse] at hnew
    cases hnew
    exact
      { inverse := .empty
        recent := .nil
        size := Nat.zero_le _
        cap := rfl
        fits := by
          intro domain ip hip
          simp at hip }

section

variable (h : Consistent pool)
include h

theorem step_consistent (op : Op) : Consistent (step pool op) := by
  cases op with
  | allocate domain => exact (allocate_allocated h domain).consistent
  | reverse ip => exact h

theorem run_consistent (ops : List Op) : Consistent (ops.foldl step pool) := by
  induction ops generalizing pool with
  | nil => exact h
  | cons op ops ih => exact ih (step_consistent h op)

section

variable (hip : pool.forwardMap.lookup domain = some ip)
include hip

theorem step_kept (op : Op) :
    (step pool op).forwardMap.lookup domain = some ip ∨ domain ∉ (step pool op).forwardMap := by
  cases op with
  | allocate other => exact (allocate_allocated h other).kept domain ip hip
  | reverse _ => exact .inl hip

theorem run_kept (ops : List Op) :
    (∃ done, done <+: ops ∧ domain ∉ (done.foldl step pool).forwardMap) ∨
      (ops.foldl step pool).forwardMap.lookup domain = some ip := by
  induction ops generalizing pool with
  | nil => exact .inr hip
  | cons op ops ih =>
    rcases step_kept h hip op with hip | hgone
    · rcases ih (step_consistent h op) hip with ⟨done, hdone, hgone⟩ | hip
      · exact .inl ⟨op :: done, cons_prefix_cons.2 ⟨rfl, hdone⟩, hgone⟩
      · exact .inr hip
    · exact .inl ⟨[op], ⟨ops, rfl⟩, hgone⟩

end

end

/-- **The pool is consistent.**  After any calls the two maps are inverse to each other, the list of
recent use has the same domains, and there are not more of them than the pool has room for; the
domain of an address that `allocate` returns is found by that address until it is evicted.  That
address is in the network exactly if the network has more than one. -/
theorem fakeIp_consistent (cidr : String) (pool : FakeIpPool Net)
    (hnew : new cidr = .ok pool) (ops : List Op) :
    Consistent (ops.foldl step pool) ∧
      ∀ domain ip reached, (ops.foldl step pool).allocate domain = (ip, reached) →
        (reached.isFake ip = true ↔ network reached.network < broadcast reached.network) ∧
          ∀ later : List Op,
            (∃ done, done <+: later ∧ domain ∉ (done.foldl step reached).forwardMap) ∨
              (later.foldl step reached).reverse ip = some domain := by
  have h := run_consistent (new_consistent hnew) ops
  refine ⟨h, fun domain ip reached hallocate => ?_⟩
  have hallocated := allocate_allocated h domain
  obtain ⟨hconsistent, -, hhas, -⟩ := hallocated
  rw [hallocate] at hconsistent hhas
  refine ⟨hconsistent.fits domain ip hhas, fun later => ?_⟩
  rcases run_kept hconsistent hhas later with hgone | hip
  · exact .inl hgone
  · exact .inr (((run_consistent hconsistent later).inverse domain ip).1 hip)

/-! ### Networks -/

structure Range where
  first : UInt32
  last : UInt32
  le : first ≤ last

def Range.parse (text : String) : Except String Range := do
  let net ← Router.Cidr.parse text
  let host := 32 - (ofLex (ofLex net).2).2
  let first := UInt32.ofNat ((ofLex (ofLex net).2).1 / 2 ^ host * 2 ^ host)
  let last := first + UInt32.ofNat (2 ^ host - 1)
  if le : first ≤ last then .ok ⟨first, last, le⟩ else .error "invalid IP address syntax"

instance : Ipv4NetApi Range where
  parse := Range.parse
  network := Range.first
  broadcast := Range.last
  contains net ip := decide (net.first ≤ ip ∧ ip ≤ net.last)
  network_le_broadcast := Range.le
  contains_iff _ _ := decide_eq_true_iff

def fourAddresses : Range := ⟨0xc6120000, 0xc6120003, by decide⟩

def oneAddress : Range := ⟨0xc6120000, 0xc6120000, by decide⟩

def threeDomains : List Op := [.allocate "a.com", .allocate "b.com", .allocate "c.com"]

def emptyPool (net : Range) (poolSize : ℕ) (pos : 0 < poolSize) : FakeIpPool Range :=
  ⟨net, firstIp net, poolSize, ∅, ∅, Lru.new poolSize pos⟩

theorem fakeIp_consistent_three :
    let pool := emptyPool fourAddresses 2 (by decide)
    new "198.18.0.0/30" = .ok pool ∧ Consistent (threeDomains.foldl step pool) ∧
      (threeDomains.foldl step pool).reverse 0xc6120001 = some "c.com" := by
  have hnew : new "198.18.0.0/30" = .ok (emptyPool fourAddresses 2 (by decide)) := by rfl
  exact ⟨hnew, (fakeIp_consistent _ _ hnew threeDomains).1, by decide +kernel⟩

/-- **The pool of one address gives out another.** -/
theorem fakeIp_outside :
    let pool := emptyPool oneAddress 1 (by decide)
    new "198.18.0.0/32" = .ok pool ∧ (pool.allocate "a.com").1 = 0xc6120001 ∧
      (pool.allocate "a.com").2.isFake 0xc6120001 = false := by
  refine ⟨rfl, ?_, ?_⟩
  · decide +kernel
  · decide +kernel

end Blackwire.FakeIp
