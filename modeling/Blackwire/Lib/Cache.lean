import Mathlib.Data.List.AList
import Mathlib.Tactic

/-!
# Caches
-/

namespace Cache

open AList

variable {α β : Type} [DecidableEq α] [DecidableEq β]

def Inverse (forward : AList fun _ : α => β) (reverse : AList fun _ : β => α) : Prop :=
  ∀ a b, forward.lookup a = some b ↔ reverse.lookup b = some a

namespace Inverse

variable {forward : AList fun _ : α => β} {reverse : AList fun _ : β => α} {a : α} {b : β}

theorem empty : Inverse (∅ : AList fun _ : α => β) (∅ : AList fun _ : β => α) := by
  intro a b
  simp

section

variable (h : Inverse forward reverse)
include h

theorem injective {a' : α} (ha : forward.lookup a = some b)
    (ha' : forward.lookup a' = some b) : a = a' := by
  have hb := (h a b).1 ha
  have hb' := (h a' b).1 ha'
  exact Option.some.inj (hb.symm.trans hb')

theorem erase (hab : forward.lookup a = some b) : Inverse (forward.erase a) (reverse.erase b) := by
  intro a' b'
  by_cases ha : a' = a <;> by_cases hb : b' = b
  · subst ha hb
    simp
  · subst ha
    simp only [lookup_erase, lookup_erase_ne hb, reduceCtorEq, false_iff]
    intro hb'
    exact hb (Option.some.inj (((h a' b').2 hb').symm.trans hab))
  · subst hb
    simp only [lookup_erase, lookup_erase_ne ha, reduceCtorEq, iff_false]
    intro ha'
    exact ha (h.injective ha' hab)
  · rw [lookup_erase_ne ha, lookup_erase_ne hb]
    exact h a' b'

theorem insert (ha : a ∉ forward) (hb : b ∉ reverse) :
    Inverse (forward.insert a b) (reverse.insert b a) := by
  have hnone : forward.lookup a = none := lookup_eq_none.2 ha
  have hnone' : reverse.lookup b = none := lookup_eq_none.2 hb
  intro a' b'
  by_cases ha' : a' = a <;> by_cases hb' : b' = b
  · subst ha' hb'
    simp
  · subst ha'
    rw [lookup_insert_ne hb', ← h, hnone]
    simp [Ne.symm hb']
  · subst hb'
    rw [lookup_insert_ne ha', h, hnone']
    simp [Ne.symm ha']
  · rw [lookup_insert_ne ha', lookup_insert_ne hb']
    exact h a' b'

end

end Inverse

end Cache

structure Lru (α : Type) where
  cap : ℕ
  keys : List α
  pos : 0 < cap
  nodup : keys.Nodup
  length_le : keys.length ≤ cap

namespace Lru

open List

variable {α : Type} [DecidableEq α] {k : α} {lru lru' : Lru α}

def new (cap : ℕ) (pos : 0 < cap) : Lru α := ⟨cap, [], pos, .nil, Nat.zero_le cap⟩

theorem length_move (hk : k ∈ lru.keys) : (k :: lru.keys.erase k).length = lru.keys.length :=
  (perm_cons_erase hk).length_eq.symm

theorem nodup_cons_erase (lru : Lru α) (k : α) : (k :: lru.keys.erase k).Nodup :=
  nodup_cons.2 ⟨lru.nodup.not_mem_erase, lru.nodup.erase k⟩

def get (lru : Lru α) (k : α) : Lru α :=
  if hk : k ∈ lru.keys then
    { lru with
      keys := k :: lru.keys.erase k
      nodup := lru.nodup_cons_erase k
      length_le := (length_move hk).trans_le lru.length_le }
  else lru

omit [DecidableEq α] in
theorem length_cons_dropLast (lru : Lru α) (k : α) : (k :: lru.keys.dropLast).length ≤ lru.cap := by
  have hpos := lru.pos
  have hle := lru.length_le
  simp only [length_cons, length_dropLast]
  omega

omit [DecidableEq α] in
theorem nodup_cons_dropLast (hk : k ∉ lru.keys) : (k :: lru.keys.dropLast).Nodup :=
  nodup_cons.2 ⟨fun h => hk ((dropLast_sublist _).subset h),
    lru.nodup.sublist (dropLast_sublist _)⟩

section

variable (lru : Lru α) (k : α)

def put : Lru α :=
  if hk : k ∈ lru.keys then lru.get k
  else if hfull : lru.keys.length < lru.cap then
    { lru with
      keys := k :: lru.keys
      nodup := nodup_cons.2 ⟨hk, lru.nodup⟩
      length_le := hfull }
  else
    { lru with
      keys := k :: lru.keys.dropLast
      nodup := nodup_cons_dropLast hk
      length_le := lru.length_cons_dropLast k }

def pop : Lru α :=
  { lru with
    keys := lru.keys.erase k
    nodup := lru.nodup.erase k
    length_le := length_erase_le.trans lru.length_le }

def popLru : Option (α × Lru α) :=
  lru.keys.getLast?.map fun k =>
    (k, { lru with
      keys := lru.keys.dropLast
      nodup := lru.nodup.sublist (dropLast_sublist _)
      length_le := (dropLast_sublist _).length_le.trans lru.length_le })

theorem get_perm : (lru.get k).keys.Perm lru.keys := by
  unfold get
  split_ifs with hk
  · exact (perm_cons_erase hk).symm
  · exact .refl _

@[simp] theorem get_cap : (lru.get k).cap = lru.cap := by
  unfold get
  split_ifs <;> rfl

@[simp] theorem put_cap : (lru.put k).cap = lru.cap := by
  unfold put
  split_ifs
  · exact get_cap lru k
  · rfl
  · rfl

end

theorem put_keys (hk : k ∉ lru.keys) (hroom : lru.keys.length < lru.cap) :
    (lru.put k).keys = k :: lru.keys := by
  simp [put, hk, hroom]

omit [DecidableEq α] in
theorem popLru_eq_none (h : lru.popLru = none) : lru.keys = [] := by
  simpa [popLru] using h

omit [DecidableEq α] in
theorem popLru_eq_some (h : lru.popLru = some (k, lru')) :
    lru.keys = lru'.keys ++ [k] ∧ lru'.cap = lru.cap := by
  obtain ⟨last, hlast, heq⟩ := Option.map_eq_some_iff.1 h
  obtain ⟨rfl, rfl⟩ := Prod.mk.inj heq
  exact ⟨(dropLast_append_getLast? last hlast).symm, rfl⟩

end Lru
