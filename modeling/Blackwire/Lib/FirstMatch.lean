import Mathlib.Tactic

/-!
# First match

An ordered list of rules, and several contexts to which the rules are applied.  The *rank* of a
context is the position of the first rule that matches it, or the number of rules if none does.
-/

namespace FirstMatch

open List

variable {ρ γ : Type} (m : ρ → γ → Bool) (rules : List ρ)

def rank (c : γ) : ℕ := rules.findIdx fun r => m r c

def firstRank : List γ → ℕ
  | [] => rules.length
  | c :: cs => if rank m rules c < rules.length then rank m rules c else firstRank cs

def lowestRank (cs : List γ) : ℕ := rules.findIdx fun r => cs.any (m r)

variable {m rules}

theorem rank_le_length (c : γ) : rank m rules c ≤ rules.length := findIdx_le_length

theorem lowestRank_le_length (cs : List γ) : lowestRank m rules cs ≤ rules.length :=
  findIdx_le_length

theorem rank_le_of_match {c : γ} {i : ℕ} (hi : i < rules.length) (h : m rules[i] c = true) :
    rank m rules c ≤ i := by
  by_contra hlt
  have hnot := not_of_lt_findIdx (not_le.1 hlt)
  rw [h] at hnot
  cases hnot

theorem firstRank_cases (m : ρ → γ → Bool) (rules : List ρ) (cs : List γ) :
    (firstRank m rules cs = rules.length ∧ ∀ c ∈ cs, rank m rules c = rules.length) ∨
      ∃ c ∈ cs, firstRank m rules cs = rank m rules c := by
  induction cs with
  | nil => exact .inl ⟨rfl, by simp⟩
  | cons c cs ih =>
    rw [firstRank]
    split_ifs with hlt
    · exact .inr ⟨c, mem_cons_self, rfl⟩
    · have hc : rank m rules c = rules.length := le_antisymm (rank_le_length c) (not_lt.1 hlt)
      obtain ⟨hlen, hall⟩ | ⟨c', hc', heq⟩ := ih
      · exact .inl ⟨hlen, forall_mem_cons.2 ⟨hc, hall⟩⟩
      · exact .inr ⟨c', mem_cons_of_mem c hc', heq⟩

theorem firstRank_le_length (cs : List γ) : firstRank m rules cs ≤ rules.length := by
  obtain ⟨hlen, -⟩ | ⟨c, -, heq⟩ := firstRank_cases m rules cs
  · exact hlen.le
  · exact heq.trans_le (rank_le_length c)

theorem firstRank_append (cs ds : List γ) : firstRank m rules (cs ++ ds) =
    if firstRank m rules cs < rules.length then firstRank m rules cs
    else firstRank m rules ds := by
  induction cs with
  | nil => simp [firstRank]
  | cons c cs ih =>
    rw [cons_append, firstRank, firstRank]
    by_cases hlt : rank m rules c < rules.length
    · simp [hlt]
    · simp [hlt, ih]

theorem firstRank_singleton (c : γ) : firstRank m rules [c] = rank m rules c := by
  rw [firstRank]
  split_ifs with hlt
  · rfl
  · exact le_antisymm (not_lt.1 hlt) (rank_le_length c)

theorem lowestRank_le_rank {cs : List γ} {c : γ} (hc : c ∈ cs) :
    lowestRank m rules cs ≤ rank m rules c :=
  findIdx_le_findIdx fun _ _ hr => any_eq_true.2 ⟨c, hc, hr⟩

theorem le_lowestRank_iff {cs : List γ} {k : ℕ} (hk : k ≤ rules.length) :
    k ≤ lowestRank m rules cs ↔ ∀ c ∈ cs, k ≤ rank m rules c := by
  constructor
  · exact fun h c hc => h.trans (lowestRank_le_rank hc)
  · intro h
    by_contra hlt
    have hlen : lowestRank m rules cs < rules.length := (not_le.1 hlt).trans_le hk
    obtain ⟨c, hc, hmatch⟩ := any_eq_true.1 (findIdx_getElem (w := hlen))
    have hrank := rank_le_of_match hlen hmatch
    have := h c hc
    omega

theorem firstRank_eq_lowestRank_iff {tried cs : List γ} (hsub : ∀ c ∈ tried, c ∈ cs) :
    firstRank m rules tried = lowestRank m rules cs ↔
      ∀ c ∈ cs, firstRank m rules tried ≤ rank m rules c := by
  rw [← le_lowestRank_iff (firstRank_le_length tried)]
  refine ⟨fun h => h.le, fun h => le_antisymm h ?_⟩
  obtain ⟨hlen, -⟩ | ⟨c, hc, heq⟩ := firstRank_cases m rules tried
  · exact hlen ▸ lowestRank_le_length cs
  · exact heq ▸ lowestRank_le_rank (hsub c hc)

end FirstMatch
