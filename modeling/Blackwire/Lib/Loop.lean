import Mathlib.Tactic

/-!
# Loops

A loop is a body that, from a state, either leaves the loop with a value or goes round again with a
new state.  `run` executes it with fuel; `Visits` is the set of states in which the body is entered.
-/

namespace Loop

inductive Step (σ α : Type)
  | done (a : α)
  | next (s : σ)
  deriving DecidableEq

variable {σ α : Type} (body : σ → Step σ α)

def run : ℕ → σ → Step σ α
  | 0, s => .next s
  | fuel + 1, s =>
    match body s with
    | .done a => .done a
    | .next s' => run fuel s'

inductive Visits (s₀ : σ) : σ → Prop
  | start : Visits s₀ s₀
  | next {s s' : σ} : Visits s₀ s → body s = .next s' → Visits s₀ s'

variable {body} {s₀ : σ}

theorem Visits.head {s₁ s : σ} (h : body s₀ = .next s₁) (hv : Visits body s₁ s) :
    Visits body s₀ s := by
  induction hv with
  | start => exact .next .start h
  | next _ hs ih => exact .next ih hs

theorem run_succ_of_next {s s' : σ} (h : body s = .next s') (fuel : ℕ) :
    run body (fuel + 1) s = run body fuel s' := by
  simp [run, h]

theorem exists_visits_of_run_eq_done {fuel : ℕ} {a : α} (h : run body fuel s₀ = .done a) :
    ∃ s, Visits body s₀ s ∧ body s = .done a := by
  induction fuel generalizing s₀ with
  | zero => simp [run] at h
  | succ fuel ih =>
    simp only [run] at h
    split at h
    · rename_i hb
      exact ⟨s₀, .start, by rw [hb, h]⟩
    · rename_i hb
      obtain ⟨s, hs, hd⟩ := ih h
      exact ⟨s, hs.head hb, hd⟩

theorem exists_run_eq_done_of_le (μ : σ → ℕ) {n : ℕ} (hn : μ s₀ ≤ n)
    (hμ : ∀ s s', Visits body s₀ s → body s = .next s' → μ s' < μ s) :
    ∃ a, run body (n + 1) s₀ = .done a := by
  induction n generalizing s₀ with
  | zero =>
    cases hb : body s₀ with
    | done a => exact ⟨a, by simp [run, hb]⟩
    | next s' => have := hμ s₀ s' .start hb; omega
  | succ n ih =>
    cases hb : body s₀ with
    | done a => exact ⟨a, by simp [run, hb]⟩
    | next s' =>
      have hlt := hμ s₀ s' .start hb
      rw [run_succ_of_next hb]
      exact ih (by omega) fun s t hs ht => hμ s t (hs.head hb) ht

theorem exists_run_eq_done (μ : σ → ℕ)
    (hμ : ∀ s s', Visits body s₀ s → body s = .next s' → μ s' < μ s) :
    ∃ fuel a, run body fuel s₀ = .done a :=
  ⟨μ s₀ + 1, exists_run_eq_done_of_le μ le_rfl hμ⟩

/-! ### Composition -/

theorem run_add_of_next {m : ℕ} {s s' : σ} (h : run body m s = .next s') (k : ℕ) :
    run body (m + k) s = run body k s' := by
  induction m generalizing s with
  | zero => simp only [run, Step.next.injEq] at h; rw [h, Nat.zero_add]
  | succ m ih =>
    rw [Nat.add_right_comm]
    simp only [run] at h ⊢
    split at h
    · simp at h
    · exact ih h

end Loop
