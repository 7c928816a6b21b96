import Mathlib.Data.List.Sort

/-!
# Binary search

The search for the point at which a predicate stops to hold, `slice::partition_point`, and the
window of the last few entries before that point in a sorted list.
-/

namespace Search

open List

variable {α : Type} {xs : List α}

/-! ### The partition point -/

/-- The loop of the search: the point is at `base` or behind it, and no further than `size` behind
it.  Each round takes half of `size` off. -/
def partitionLoop (pred : α → Bool) (xs : List α) : ℕ → ℕ → ℕ → ℕ
  | 0, base, _ => base
  | fuel + 1, base, size =>
    if size ≤ 1 then base
    else
      let half := size / 2
      let mid := base + half
      partitionLoop pred xs fuel (if (xs[mid]?).any pred then mid else base) (size - half)

def partitionPoint (pred : α → Bool) : List α → ℕ
  | [] => 0
  | xs =>
    let base := partitionLoop pred xs xs.length 0 xs.length
    if (xs[base]?).any pred then base + 1 else base

theorem partitionLoop_spec {pred : α → Bool} {n : ℕ}
    (hpred : ∀ i < xs.length, (xs[i]?).any pred = decide (i < n)) {fuel base size : ℕ}
    (hfuel : size ≤ fuel) (hpos : 0 < size) (hsize : base + size ≤ xs.length) (hbase : base ≤ n)
    (hn : n ≤ base + size) :
    partitionLoop pred xs fuel base size < xs.length ∧
      partitionLoop pred xs fuel base size ≤ n ∧ n ≤ partitionLoop pred xs fuel base size + 1 := by
  induction fuel generalizing base size with
  | zero => omega
  | succ fuel ih =>
    rw [partitionLoop]
    by_cases hone : size ≤ 1
    · rw [if_pos hone]
      omega
    · rw [if_neg hone]
      dsimp only
      rw [hpred _ (by omega)]
      by_cases hmid : base + size / 2 < n
      · rw [decide_eq_true hmid, if_pos rfl]
        exact ih (by omega) (by omega) (by omega) (by omega) (by omega)
      · rw [decide_eq_false hmid, if_neg Bool.false_ne_true]
        exact ih (by omega) (by omega) (by omega) (by omega) (by omega)

/-- The search finds the end of the entries that satisfy the predicate. -/
theorem partitionPoint_append {pred : α → Bool} {front back : List α}
    (hfront : ∀ a ∈ front, pred a = true) (hback : ∀ a ∈ back, pred a = false) :
    partitionPoint pred (front ++ back) = front.length := by
  have hpred : ∀ i < (front ++ back).length,
      ((front ++ back)[i]?).any pred = decide (i < front.length) := by
    intro i hi
    by_cases hlt : i < front.length
    · rw [List.getElem?_append_left hlt, List.getElem?_eq_getElem hlt, decide_eq_true hlt]
      exact hfront _ (getElem_mem hlt)
    · rw [length_append] at hi
      rw [List.getElem?_append_right (not_lt.1 hlt), List.getElem?_eq_getElem (by omega),
        decide_eq_false hlt]
      exact hback _ (getElem_mem _)
  have hlen : front.length ≤ (front ++ back).length := by
    rw [length_append]
    omega
  generalize front ++ back = xs at hpred hlen
  cases xs with
  | nil => exact (Nat.le_zero.1 hlen).symm
  | cons a xs =>
    have hpos : 0 < (a :: xs).length := Nat.succ_pos _
    obtain ⟨hlt, hle, hge⟩ := partitionLoop_spec hpred (Nat.le_refl _) hpos
      (Nat.le_of_eq (Nat.zero_add _)) (Nat.zero_le _) (by rw [Nat.zero_add]; exact hlen)
    rw [partitionPoint]
    · rw [hpred _ hlt]
      by_cases hend :
          partitionLoop pred (a :: xs) (a :: xs).length 0 (a :: xs).length < front.length
      · rw [decide_eq_true hend, if_pos rfl]
        omega
      · rw [decide_eq_false hend, if_neg Bool.false_ne_true]
        omega
    · exact cons_ne_nil a xs

/-! ### Windows of a sorted list -/

theorem exists_split {pred : α → Prop} (h : xs.Pairwise fun a b => pred b → pred a) :
    ∃ front back, xs = front ++ back ∧ (∀ a ∈ front, pred a) ∧ ∀ a ∈ back, ¬pred a := by
  induction xs with
  | nil => exact ⟨[], [], rfl, by simp, by simp⟩
  | cons a xs ih =>
    obtain ⟨hhead, htail⟩ := pairwise_cons.1 h
    by_cases ha : pred a
    · obtain ⟨front, back, rfl, hfront, hback⟩ := ih htail
      exact ⟨a :: front, back, rfl, forall_mem_cons.2 ⟨ha, hfront⟩, hback⟩
    · exact ⟨[], a :: xs, rfl, by simp,
        forall_mem_cons.2 ⟨ha, fun b hb hpred => ha (hhead b hb hpred)⟩⟩

variable [LinearOrder α]

section

variable (h : xs.Pairwise (· ≤ ·))
include h

theorem exists_split_le (p : α) :
    ∃ front back, xs = front ++ back ∧ (∀ a ∈ front, a ≤ p) ∧ ∀ a ∈ back, ¬a ≤ p :=
  exists_split (h.imp fun hle hb => hle.trans hb)

/-- The entries of a sorted list up to one of them end with it. -/
theorem exists_split_at {a : α} (ha : a ∈ xs) :
    ∃ init high, xs = init ++ a :: high ∧ ∀ b ∈ high, a < b := by
  obtain ⟨low, high, rfl, hlow, hhigh⟩ := exists_split_le h a
  have hmem : a ∈ low := by
    obtain hmem | hmem := mem_append.1 ha
    · exact hmem
    · exact absurd (le_refl a) (hhigh a hmem)
  obtain rfl | ⟨init, last, hconcat⟩ := eq_nil_or_concat low
  · cases hmem
  rw [concat_eq_append] at hconcat
  subst hconcat
  -- nothing before the last one is greater than it, and it is not greater than `a`
  have hle : a ≤ last := by
    have hsorted := (pairwise_append.1 h).1
    obtain hinit | hlast := mem_append.1 hmem
    · exact (pairwise_append.1 hsorted).2.2 a hinit last (mem_singleton_self last)
    · exact (mem_singleton.1 hlast).le
  obtain rfl : last = a := le_antisymm (hlow last (by simp)) hle
  exact ⟨init, high, by simp, fun b hb => not_le.1 (hhigh b hb)⟩

/-- An entry is found among the last `k` of a sorted list when fewer than `k` are greater. -/
theorem any_drop_iff (q : α → Bool) (k : ℕ) : (xs.drop (xs.length - k)).any q = true ↔
      ∃ a ∈ xs, q a = true ∧ xs.countP (fun b => a < b) < k := by
  rw [any_eq_true]
  constructor
  · rintro ⟨a, hmem, hq⟩
    refine ⟨a, mem_of_mem_drop hmem, hq, ?_⟩
    have hsplit := take_append_drop (xs.length - k) xs
    have hbefore : (xs.take (xs.length - k)).countP (fun b => a < b) = 0 := by
      rw [countP_eq_zero]
      intro b hb
      rw [← hsplit] at h
      simpa using (pairwise_append.1 h).2.2 b hb a hmem
    -- the entry itself is not greater than itself
    have hwindow : (xs.drop (xs.length - k)).countP (fun b => a < b) <
        (xs.drop (xs.length - k)).length := by
      refine lt_of_le_of_ne countP_le_length fun hall => ?_
      simpa using countP_eq_length.1 hall a hmem
    have hlen : (xs.drop (xs.length - k)).length ≤ k := by
      rw [length_drop]
      omega
    have hcount : xs.countP (fun b => a < b) =
        (xs.drop (xs.length - k)).countP (fun b => a < b) := by
      conv_lhs => rw [← hsplit, countP_append, hbefore, Nat.zero_add]
    omega
  · rintro ⟨a, hmem, hq, hcount⟩
    obtain ⟨init, high, rfl, hhigh⟩ := exists_split_at h hmem
    have hlen : high.length ≤ (init ++ a :: high).countP (fun b => a < b) := by
      have hall : high.countP (fun b => a < b) = high.length :=
        countP_eq_length.2 fun b hb => decide_eq_true (hhigh b hb)
      rw [countP_append, countP_cons]
      omega
    refine ⟨a, ?_, hq⟩
    have hle : (init ++ a :: high).length - k ≤ init.length := by
      rw [length_append, length_cons]
      omega
    rw [drop_append_of_le_length hle]
    exact mem_append_right _ mem_cons_self

end

end Search
