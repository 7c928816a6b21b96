import Mathlib

/-!
# The accept loops of a TCP inbound

`serve_multi` and `serve_listener` of `tcp.rs`, with the limit that `Instance::from_config` gives
them.  Each shard has a semaphore of its own.
-/

namespace Blackwire.TcpServer

open List

/-- The limit of an inbound: its own, the one for each inbound, or the one of the instance. -/
def maxConnections (own perInbound total : Option ℕ) : Option ℕ := own.or (perInbound.or total)

inductive AcceptEvent
  | arrive (shard : ℕ)
  | close (shard : ℕ)

/-- A connection accepted by a shard: it is dropped if the handlers that run hold all permits. -/
def accept (limit : Option ℕ) (running : ℕ) : ℕ :=
  if limit.all (running < ·) then running + 1 else running

/-- The handlers that run, for each shard. -/
def serveMulti (shardCount : ℕ) : List ℕ := replicate (max shardCount 1) 0

def step (limit : Option ℕ) (shards : List ℕ) : AcceptEvent → List ℕ
  | .arrive i => shards.modify i (accept limit)
  | .close i => shards.modify i (· - 1)

variable {n : ℕ} {shards : List ℕ}

theorem accept_le {running : ℕ} (h : running ≤ n) : accept (some n) running ≤ n := by
  simp only [accept, Option.all_some, decide_eq_true_eq]
  split_ifs <;> omega

theorem le_step (h : ∀ running ∈ shards, running ≤ n) (e : AcceptEvent) :
    ∀ running ∈ step (some n) shards e, running ≤ n := by
  intro running hrunning
  obtain ⟨j, hj⟩ := mem_iff_getElem?.1 hrunning
  cases e with
  | arrive i | close i =>
    rw [step, getElem?_modify] at hj
    obtain ⟨old, hold, rfl⟩ := Option.map_eq_some_iff.1 hj
    have hle := h old (mem_of_getElem? hold)
    have haccept := accept_le hle
    split_ifs <;> omega

/-- All shards together keep to the limit of each one, times their number. -/
theorem sum_le (h : ∀ running ∈ shards, running ≤ n) (es : List AcceptEvent) :
    (es.foldl (step (some n)) shards).sum ≤ shards.length * n := by
  induction es generalizing shards with
  | nil => exact sum_le_card_nsmul shards n h
  | cons e es ih =>
    have hlength : (step (some n) shards e).length = shards.length := by
      cases e <;> exact length_modify ..
    rw [← hlength]
    exact ih (le_step h e)

theorem foldl_arrive {m : ℕ} (hm : m ≤ n) :
    List.foldl (step (some n)) (0 :: shards) (replicate m (.arrive 0)) = m :: shards := by
  induction m with
  | zero => rfl
  | succ m ih =>
    rw [replicate_succ', foldl_append, ih (by omega)]
    simp [step, accept, Nat.lt_of_succ_le hm]

/-- **The limit of an inbound** is kept in every run if and only if there is one shard, or nothing
is let in. -/
theorem running_le_iff {own perInbound : Option ℕ} (total : Option ℕ)
    (hlimit : own.or perInbound = some n) (shardCount : ℕ) :
    (∀ es : List AcceptEvent, (es.foldl (step (maxConnections own perInbound total))
      (serveMulti shardCount)).sum ≤ n) ↔ shardCount ≤ 1 ∨ n = 0 := by
  have hmax : maxConnections own perInbound total = some n := by
    rw [maxConnections, ← Option.or_assoc, hlimit]
    rfl
  rw [hmax]
  constructor
  · intro h
    by_contra hcon
    obtain ⟨rest, hrest⟩ : ∃ rest, serveMulti shardCount = 0 :: 0 :: rest :=
      ⟨replicate (shardCount - 2) 0, by
        rw [serveMulti, show max shardCount 1 = shardCount - 2 + 1 + 1 by omega]
        rfl⟩
    -- one shard is filled, and another one lets in one more
    have hfull := h (replicate n (.arrive 0) ++ [.arrive 1])
    rw [hrest, foldl_append, foldl_arrive le_rfl] at hfull
    simp [step, accept, Nat.pos_of_ne_zero (not_or.1 hcon).2] at hfull
  · intro h es
    refine (sum_le (fun running hrunning => ?_) es).trans ?_
    · rw [eq_of_mem_replicate hrunning]
      exact Nat.zero_le n
    · rw [serveMulti, length_replicate]
      rcases h with hone | rfl
      · rw [max_eq_right hone, Nat.one_mul]
      · exact le_rfl

theorem running_le_one :
    (List.foldl (step (maxConnections (some 1) none none)) (serveMulti 1)
      [.arrive 0, .arrive 0]).sum ≤ 1 :=
  (running_le_iff none rfl 1).2 (.inl le_rfl) _

/-- Two shards let in one connection each. -/
theorem two_shards_exceed :
    ¬ (List.foldl (step (maxConnections (some 1) none none)) (serveMulti 2)
      [.arrive 0, .arrive 1]).sum ≤ 1 := by
  decide

end Blackwire.TcpServer
