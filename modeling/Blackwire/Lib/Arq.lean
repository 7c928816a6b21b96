import Mathlib.Data.List.Infix
import Mathlib.Tactic.Common

/-!
# Automatic repeat request

A sender numbers its items in order and keeps each one for as long as the receiver may not have it;
a receiver takes items in order and keeps those that come early.  How they talk is left open: what a
sender tells about an item is `Numbers`, what a receiver tells about one is `Holds`, and neither
ever stops to be true.
-/

namespace Arq

open List

variable {α : Type}

structure Sender (α : Type) where
  numbered : List α
  kept : List (ℕ × α)

structure Receiver (α : Type) where
  taken : List α
  early : List (ℕ × α)

def Sender.Numbers (s : Sender α) (i : ℕ) (a : α) : Prop := s.numbered[i]? = some a

def Receiver.Holds (r : Receiver α) (i : ℕ) (a : α) : Prop :=
  r.taken[i]? = some a ∨ (i, a) ∈ r.early

def Receiver.Knows (r : Receiver α) (i : ℕ) : Prop := ∃ a, r.Holds i a

def Receiver.next (r : Receiver α) : ℕ := r.taken.length

theorem Receiver.knows_of_lt {r : Receiver α} {i : ℕ} (h : i < r.next) : r.Knows i :=
  ⟨_, .inl (List.getElem?_eq_getElem h)⟩

/-- What a receiver takes from a sender are its first items, whatever either of them keeps is right,
and an item that the sender does not keep is with the receiver. -/
structure Linked (s : Sender α) (r : Receiver α) : Prop where
  taken : r.taken <+: s.numbered
  kept : ∀ i a, (i, a) ∈ s.kept → s.Numbers i a
  early : ∀ i a, (i, a) ∈ r.early → s.Numbers i a
  held : ∀ i a, s.Numbers i a → (i, a) ∈ s.kept ∨ r.Holds i a

variable {s : Sender α} {r r' r'' : Receiver α} {i : ℕ} {a b : α}

theorem numbers_mono {numbered kept : _} (h : s.numbered <+: numbered) (hi : s.Numbers i a) :
    (⟨numbered, kept⟩ : Sender α).Numbers i a := by
  obtain ⟨more, rfl⟩ := h
  show (s.numbered ++ more)[i]? = some a
  rw [List.getElem?_append_left (List.getElem?_eq_some_iff.1 hi).1]
  exact hi

theorem Linked.numbers_of_holds (h : Linked s r) (hi : r.Holds i a) : s.Numbers i a := by
  obtain htaken | hearly := hi
  · obtain ⟨more, hmore⟩ := h.taken
    show s.numbered[i]? = some a
    rw [← hmore, List.getElem?_append_left (List.getElem?_eq_some_iff.1 htaken).1]
    exact htaken
  · exact h.early i a hearly

theorem Linked.holds_of_knows (h : Linked s r) (hi : r.Knows i) (ha : s.Numbers i a) :
    r.Holds i a := by
  obtain ⟨b, hb⟩ := hi
  obtain rfl := Option.some.inj ((h.numbers_of_holds hb).symm.trans ha)
  exact hb

/-! ### The sender -/

def numberFrom (n : ℕ) : List α → List (ℕ × α)
  | [] => []
  | a :: as => (n, a) :: numberFrom (n + 1) as

theorem mem_numberFrom {n : ℕ} {as : List α} :
    (i, a) ∈ numberFrom n as ↔ n ≤ i ∧ as[i - n]? = some a := by
  induction as generalizing n with
  | nil => simp [numberFrom]
  | cons b as ih =>
    rw [numberFrom, mem_cons, ih, Prod.mk.injEq]
    constructor
    · rintro (⟨rfl, rfl⟩ | ⟨hle, ha⟩)
      · exact ⟨Nat.le_refl _, by rw [Nat.sub_self]; rfl⟩
      · exact ⟨by omega, by rw [show i - n = i - (n + 1) + 1 by omega]; exact ha⟩
    · rintro ⟨hle, ha⟩
      obtain rfl | hlt := Nat.eq_or_lt_of_le hle
      · rw [Nat.sub_self] at ha
        exact .inl ⟨rfl, (Option.some.inj ha).symm⟩
      · rw [show i - n = i - (n + 1) + 1 by omega] at ha
        exact .inr ⟨hlt, ha⟩

def Sender.number (s : Sender α) (as : List α) : Sender α :=
  ⟨s.numbered ++ as, s.kept ++ numberFrom s.numbered.length as⟩

theorem Linked.number (h : Linked s r) (as : List α) : Linked (s.number as) r where
  taken := h.taken.trans (prefix_append _ _)
  kept i a hi := by
    obtain hkept | hnew := mem_append.1 hi
    · exact numbers_mono (prefix_append _ _) (h.kept i a hkept)
    · obtain ⟨hle, ha⟩ := mem_numberFrom.1 hnew
      show (s.numbered ++ as)[i]? = some a
      rw [List.getElem?_append_right hle]
      exact ha
  early i a hi := numbers_mono (prefix_append _ _) (h.early i a hi)
  held i a hi := by
    replace hi : (s.numbered ++ as)[i]? = some a := hi
    by_cases hlt : i < s.numbered.length
    · rw [List.getElem?_append_left hlt] at hi
      exact (h.held i a hi).imp_left (mem_append_left _)
    · rw [List.getElem?_append_right (not_lt.1 hlt)] at hi
      exact .inl (mem_append_right _ (mem_numberFrom.2 ⟨not_lt.1 hlt, hi⟩))

theorem Linked.release {kept : List (ℕ × α)} (h : Linked s r) (hsub : ∀ e ∈ kept, e ∈ s.kept)
    (hheld : ∀ i a, (i, a) ∈ s.kept → (i, a) ∈ kept ∨ r.Knows i) :
    Linked ⟨s.numbered, kept⟩ r where
  taken := h.taken
  kept i a hi := h.kept i a (hsub _ hi)
  early := h.early
  held i a hi := by
    obtain hkept | hholds := h.held i a hi
    · exact (hheld i a hkept).imp_right fun hknows => h.holds_of_knows hknows hi
    · exact .inr hholds

/-! ### The receiver -/

structure Receiver.Extends (r r' : Receiver α) : Prop where
  taken : r.taken <+: r'.taken
  early : ∀ i a, (i, a) ∈ r.early → r'.Holds i a

theorem Receiver.Extends.holds (h : r.Extends r') (hi : r.Holds i a) : r'.Holds i a := by
  obtain htaken | hearly := hi
  · obtain ⟨more, hmore⟩ := h.taken
    left
    rw [← hmore, List.getElem?_append_left (List.getElem?_eq_some_iff.1 htaken).1]
    exact htaken
  · exact h.early i a hearly

theorem Receiver.Extends.knows (h : r.Extends r') (hi : r.Knows i) : r'.Knows i :=
  hi.imp fun _ ha => h.holds ha

theorem Receiver.Extends.next_le (h : r.Extends r') : r.next ≤ r'.next := h.taken.length_le

theorem Receiver.Extends.refl (r : Receiver α) : r.Extends r := ⟨prefix_rfl, fun _ _ => .inr⟩

theorem Receiver.Extends.trans (h : r.Extends r') (h' : r'.Extends r'') : r.Extends r'' :=
  ⟨h.taken.trans h'.taken, fun i a hi => h'.holds (h.early i a hi)⟩

theorem Linked.extend (h : Linked s r) (hextends : r.Extends r') (htaken : r'.taken <+: s.numbered)
    (hearly : ∀ i a, (i, a) ∈ r'.early → s.Numbers i a) : Linked s r' where
  taken := htaken
  kept := h.kept
  early := hearly
  held i a hi := (h.held i a hi).imp_right hextends.holds

theorem Linked.store {early : List (ℕ × α)} (h : Linked s r) (ha : s.Numbers i a)
    (hsub : ∀ e ∈ early, e = (i, a) ∨ e ∈ r.early) (hall : ∀ e ∈ r.early, e ∈ early) :
    Linked s ⟨r.taken, early⟩ := by
  refine h.extend ⟨prefix_rfl, fun j b hj => .inr (hall _ hj)⟩ h.taken fun j b hj => ?_
  obtain heq | hmem := hsub _ hj
  · obtain ⟨rfl, rfl⟩ := Prod.mk.inj heq
    exact ha
  · exact h.early j b hmem

/-- The next item is taken from those that came early. -/
theorem Linked.take {early : List (ℕ × α)} (h : Linked s r) (ha : (r.next, a) ∈ r.early)
    (hsub : ∀ e ∈ early, e ∈ r.early) (hall : ∀ e ∈ r.early, e = (r.next, a) ∨ e ∈ early) :
    Linked s ⟨r.taken ++ [a], early⟩ ∧ r.Extends ⟨r.taken ++ [a], early⟩ := by
  have hnumbers : s.numbered[r.taken.length]? = some a := h.early _ _ ha
  have hextends : r.Extends ⟨r.taken ++ [a], early⟩ := by
    refine ⟨prefix_append _ _, fun j b hj => ?_⟩
    obtain heq | hmem := hall _ hj
    · obtain ⟨rfl, rfl⟩ := Prod.mk.inj heq
      exact .inl (by
        show (r.taken ++ [b])[r.taken.length]? = some b
        rw [List.getElem?_append_right (Nat.le_refl _), Nat.sub_self]
        rfl)
    · exact .inr hmem
  refine ⟨h.extend hextends ?_ fun j b hj => h.early j b (hsub _ hj), hextends⟩
  -- the items taken are the first ones, and the next one follows them
  obtain ⟨more, hmore⟩ := h.taken
  rw [← hmore, List.getElem?_append_right (Nat.le_refl _), Nat.sub_self] at hnumbers
  cases more with
  | nil => cases hnumbers
  | cons b more =>
    obtain rfl : b = a := Option.some.inj hnumbers
    exact ⟨more, by rw [← hmore, append_assoc]; rfl⟩

end Arq
