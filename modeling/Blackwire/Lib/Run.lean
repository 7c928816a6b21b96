import Mathlib.Tactic

/-!
# Runs of a machine

A machine is a function `step : σ → ι → σ`; a run is the fold of `step` over a list of inputs.
`Meets ok step s is` says that every step of the run from `s` over `is` satisfies the condition `ok`
on the state before it and its input.
-/

namespace Run

variable {σ ι : Type} {ok : σ → ι → Prop} {step : σ → ι → σ} {s : σ} {is : List ι} {P : σ → Prop}
  {ok' : σ → ι → Prop} {js : List ι}

/-- Every step of the run meets the condition. -/
def Meets (ok : σ → ι → Prop) (step : σ → ι → σ) : σ → List ι → Prop
  | _, [] => True
  | s, i :: is => ok s i ∧ Meets ok step (step s i) is

instance Meets.decidable [∀ s i, Decidable (ok s i)] :
    ∀ (s : σ) (is : List ι), Decidable (Meets ok step s is)
  | _, [] => isTrue trivial
  | s, i :: is =>
    have := Meets.decidable (step s i) is
    inferInstanceAs (Decidable (ok s i ∧ Meets ok step (step s i) is))

theorem invariant_of_meets (hstep : ∀ s i, P s → ok s i → P (step s i)) (hs : P s)
    (h : Meets ok step s is) : P (is.foldl step s) := by
  induction is generalizing s with
  | nil => exact hs
  | cons i is ih => exact ih (hstep s i hs h.1) h.2

theorem Meets.and (h : Meets ok step s is) (h' : Meets ok' step s is) :
    Meets (fun s i => ok s i ∧ ok' s i) step s is := by
  induction is generalizing s with
  | nil => trivial
  | cons i is ih => exact ⟨⟨h.1, h'.1⟩, ih h.2 h'.2⟩

theorem exists_meets_of_measure {Q : σ → Prop} (μ : σ → ℕ)
    (h : ∀ s, P s → Q s ∨ ∃ i, ok s i ∧ P (step s i) ∧ μ (step s i) < μ s) (hs : P s) :
    ∃ is, Meets ok step s is ∧ P (is.foldl step s) ∧ Q (is.foldl step s) := by
  induction hn : μ s using Nat.strong_induction_on generalizing s with
  | _ n ih =>
    rcases h s hs with hfinal | ⟨i, hok, hP, hlt⟩
    · exact ⟨[], trivial, hs, hfinal⟩
    · obtain ⟨is, hmeets, hPs, hfinal⟩ := ih _ (hn ▸ hlt) hP rfl
      exact ⟨i :: is, ⟨hok, hmeets⟩, hPs, hfinal⟩

theorem Meets.and_imp {p : Prop} (h : Meets ok step s is) (h' : p → Meets ok' step s is) :
    Meets (fun s i => ok s i ∧ (p → ok' s i)) step s is := by
  induction is generalizing s with
  | nil => trivial
  | cons i is ih => exact ⟨⟨h.1, fun hp => (h' hp).1⟩, ih h.2 fun hp => (h' hp).2⟩

theorem Meets.of_append (h : Meets ok step s (is ++ js)) : Meets ok step s is := by
  induction is generalizing s with
  | nil => trivial
  | cons i is ih => exact ⟨h.1, ih h.2⟩

theorem Meets.append (h : Meets ok step s is) (h' : Meets ok step (is.foldl step s) js) :
    Meets ok step s (is ++ js) := by
  induction is generalizing s with
  | nil => exact h'
  | cons i is ih => exact ⟨h.1, ih h.2 h'⟩

theorem Meets.after_append (h : Meets ok step s (is ++ js)) :
    Meets ok step (is.foldl step s) js := by
  induction is generalizing s with
  | nil => exact h
  | cons i is ih => exact ih h.2

theorem meets_last {i : ι} (h : Meets ok step s (is ++ [i])) : ok (is.foldl step s) i :=
  h.after_append.1

theorem meets_of_forall (hstep : ∀ s i, P (step s i) → ok s i)
    (h : ∀ js, js <+: is → P (js.foldl step s)) : Meets ok step s is := by
  induction is generalizing s with
  | nil => trivial
  | cons i is ih =>
    refine ⟨hstep s i (h [i] ⟨is, rfl⟩), ih fun js hjs => ?_⟩
    exact h (i :: js) (List.cons_prefix_cons.2 ⟨rfl, hjs⟩)

end Run
