import Mathlib.Tactic

/-!
# Links

One direction of a relay: what the source has still to give, what was taken from it and is held on
the way, and what the destination was given.
-/

inductive Dir where
  | up
  | down
  deriving DecidableEq

namespace Dir

open Function

instance : Fintype Dir := ⟨{up, down}, fun d => by cases d <;> decide⟩

def other : Dir → Dir
  | up => down
  | down => up

theorem eq_other_of_ne {d d' : Dir} (h : d' ≠ d) : d' = d.other := by
  cases d <;> cases d' <;> first | rfl | exact absurd rfl h

theorem add_lt_add {f g : Dir → ℕ} {d : Dir} (hlt : f d < g d) (heq : ∀ d', d' ≠ d → f d' = g d') :
    f up + f down < g up + g down := by
  cases d with
  | up =>
    have := heq down nofun
    omega
  | down =>
    have := heq up nofun
    omega

theorem forall_update₂ {α β : Type} {P : Dir → α → β → Prop} {f : Dir → α} {g : Dir → β} {d : Dir}
    {a : α} {b : β} (h : ∀ d', P d' (f d') (g d')) (hd : P d a b) (d' : Dir) :
    P d' (update f d a d') (update g d b d') := by
  by_cases heq : d' = d
  · subst heq
    rwa [update_self, update_self]
  · rw [update_of_ne heq, update_of_ne heq]
    exact h d'

theorem forall_update {α : Type} {P : Dir → α → Prop} {f : Dir → α} {d : Dir} {a : α}
    (h : ∀ d', P d' (f d')) (hd : P d a) (d' : Dir) : P d' (update f d a d') :=
  (forall_update_iff f P).2 ⟨hd, fun d' _ => h d'⟩ d'

end Dir

structure Link (α : Type) where
  rest : List α
  buf : List α
  out : List α
  closed : Bool

namespace Link

open List

variable {α : Type} (n : ℕ) (l : Link α)

def start (stream : List α) : Link α := ⟨stream, [], [], false⟩

def take (n : ℕ) (l : Link α) : Link α :=
  { l with rest := l.rest.drop n, buf := l.buf ++ l.rest.take n }

def give : Link α :=
  { l with buf := l.buf.drop n, out := l.out ++ l.buf.take n }

def drop : Link α := { l with buf := [] }

def unread (front : List α) (l : Link α) : Link α := { l with rest := front ++ l.rest }

def close : Link α := { l with closed := true }

def carried : List α := l.out ++ (l.buf ++ l.rest)

@[simp] theorem carried_take : (l.take n).carried = l.carried := by
  simp [take, carried]

@[simp] theorem carried_give : (l.give n).carried = l.carried := by
  simp only [give, carried, append_assoc, ← append_assoc (l.buf.take n), take_append_drop]

variable {l : Link α}

theorem carried_drop (h : l.buf = []) : l.drop.carried = l.carried := by
  simp [drop, carried, h]

theorem out_prefix_carried (l : Link α) : l.out <+: l.carried := prefix_append _ _

def Delivered (l : Link α) : Prop := l.buf = [] ∧ l.rest = []

instance [DecidableEq α] (l : Link α) : Decidable l.Delivered :=
  inferInstanceAs (Decidable (l.buf = [] ∧ l.rest = []))

theorem Delivered.out_eq_carried (h : l.Delivered) : l.out = l.carried := by
  simp [carried, h.1, h.2]

theorem length_out_give {n : ℕ} (h : n ≤ l.buf.length) :
    (l.give n).out.length = l.out.length + n := by
  simp [give, h]

theorem length_buf_give (l : Link α) : (l.give n).buf.length = l.buf.length - n := length_drop

theorem length_buf_take {n : ℕ} (h : n ≤ l.rest.length) :
    (l.take n).buf.length = l.buf.length + n := by
  simp [take, h]

structure Moves (l l' : Link α) : Prop where
  carried : l'.carried = l.carried
  out : l.out <+: l'.out

namespace Moves

variable {l l' l'' : Link α}

theorem refl (l : Link α) : Moves l l := ⟨rfl, prefix_refl _⟩

theorem trans (h : Moves l l') (h' : Moves l' l'') : Moves l l'' :=
  ⟨h'.carried.trans h.carried, h.out.trans h'.out⟩

theorem take (n : ℕ) (l : Link α) : Moves l (l.take n) := ⟨carried_take n l, prefix_refl _⟩

theorem give (l : Link α) : Moves l (l.give n) :=
  ⟨carried_give n l, prefix_append _ _⟩

theorem close (l : Link α) : Moves l l.close := ⟨rfl, prefix_refl _⟩

theorem drop (h : l.buf = []) : Moves l l.drop := ⟨carried_drop h, prefix_refl _⟩

end Moves

end Link
