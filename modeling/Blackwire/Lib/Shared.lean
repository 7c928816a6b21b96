import Mathlib.Tactic

/-!
# Loads of a shared cell

A computation that loads a shared cell several times while others store into it.  `Prog σ α` is such
a computation; `run` executes it in an interleaving, given by the values that are stored before each
of its loads, and `alone` is its value when the cell holds one value all the time.
-/

namespace Shared

open List

inductive Prog (σ α : Type)
  | ret (a : α)
  | load (next : σ → Prog σ α)

namespace Prog

variable {σ α β : Type} {stores : List (List σ)}

def bind : Prog σ α → (α → Prog σ β) → Prog σ β
  | .ret a, k => k a
  | .load next, k => .load fun s => (next s).bind k

instance : Monad (Prog σ) where
  pure := .ret
  bind := bind

def read (f : σ → α) : Prog σ α := .load fun s => .ret (f s)

def alone : Prog σ α → σ → α
  | .ret a, _ => a
  | .load next, s => (next s).alone s

@[simp] theorem alone_pure (a : α) (s : σ) : (pure a : Prog σ α).alone s = a := rfl

@[simp] theorem alone_read (f : σ → α) (s : σ) : (read f).alone s = f s := rfl

@[simp] theorem alone_bind (p : Prog σ α) (k : α → Prog σ β) (s : σ) :
    (p >>= k).alone s = (k (p.alone s)).alone s := by
  induction p with
  | ret a => rfl
  | load next ih => exact ih s

/-- The value of an interleaving: the cell holds `s` at first, and the values of each list of
`stores` are stored, in this order, before the load that the list belongs to. -/
def run : Prog σ α → σ → List (List σ) → α
  | .ret a, _, _ => a
  | .load next, s, stores =>
    (next ((stores.headD []).getLastD s)).run ((stores.headD []).getLastD s) stores.tail

def current (s : σ) (stores : List (List σ)) : List σ := s :: stores.flatten

/-- What the next load sees. -/
def seen (s : σ) (stores : List (List σ)) : σ := (stores.headD []).getLastD s

end Prog

end Shared
