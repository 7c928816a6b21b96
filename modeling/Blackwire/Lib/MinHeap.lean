import Mathlib.Data.List.Sort
import Mathlib.Data.Prod.Lex

/-!
# Priority queues

A queue that gives back its least entry first, by a key of its entries.  The entries are kept in the
order in which they will be given back.
-/

structure MinHeap {α κ : Type} [LinearOrder κ] (key : α → κ) where
  items : List α
  sorted : items.Pairwise fun a b => key a ≤ key b

namespace MinHeap

open List

variable {α κ : Type} [LinearOrder κ] {key : α → κ} {h h' : MinHeap key}

def empty : MinHeap key := ⟨[], .nil⟩

def size (h : MinHeap key) : ℕ := h.items.length

instance : Std.Total fun a b => key a ≤ key b := ⟨fun a b => le_total (key a) (key b)⟩

instance : IsTrans α fun a b => key a ≤ key b := ⟨fun _ _ _ => le_trans⟩

def push (a : α) (h : MinHeap key) : MinHeap key :=
  ⟨h.items.orderedInsert (fun a b => key a ≤ key b) a, h.sorted.orderedInsert a h.items⟩

def pop (h : MinHeap key) : Option (α × MinHeap key) :=
  match h with
  | ⟨[], _⟩ => none
  | ⟨a :: items, sorted⟩ => some (a, ⟨items, (pairwise_cons.1 sorted).2⟩)

@[ext] theorem ext (heq : h.items = h'.items) : h = h' := by
  cases h
  cases heq
  rfl

@[simp] theorem mem_push {a b : α} :
    a ∈ (h.push b).items ↔ a = b ∨ a ∈ h.items := mem_orderedInsert _

theorem pop_eq_none (hpop : h.pop = none) : h.items = [] := by
  obtain ⟨_ | ⟨a, items⟩, sorted⟩ := h
  · rfl
  · cases hpop

theorem pop_eq_some {a : α} (hpop : h.pop = some (a, h')) :
    h.items = a :: h'.items ∧ ∀ b ∈ h'.items, key a ≤ key b := by
  obtain ⟨_ | ⟨c, items⟩, sorted⟩ := h
  · cases hpop
  · obtain ⟨rfl, rfl⟩ := Prod.mk.inj (Option.some.inj hpop)
    exact ⟨rfl, (pairwise_cons.1 sorted).1⟩

theorem push_pop {a : α} (hpop : h.pop = some (a, h')) : h'.push a = h := by
  obtain ⟨heq, hle⟩ := pop_eq_some hpop
  apply ext
  rw [heq]
  show h'.items.orderedInsert _ a = a :: h'.items
  cases hitems : h'.items with
  | nil => rfl
  | cons b items => rw [orderedInsert_cons, if_pos (hle b (hitems ▸ mem_cons_self))]

end MinHeap
