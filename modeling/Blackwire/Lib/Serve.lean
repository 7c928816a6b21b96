import Blackwire.Lib.AsyncRead
import Blackwire.Lib.AsyncWrite

/-!
# Streams that serve bytes

A stream above another one answers a poll with *pending*, with bytes, or with an error.  `Serves`
says, for a relation `R s bs` read as "`s` has `bs` yet to deliver", that every poll hands out bytes
from the front of what is left and never fails.  A caller then gets a beginning of what was left
(`Serves.exists_collect`), and all of it when it polls often enough (`Serves.collect_eq`).
-/

namespace AsyncIO

open List

inductive Poll
  | pending
  | ready (bs : Bytes)
  | failed (e : Fault)

variable {σ : Type} (poll : ℕ → σ → Poll × σ) {bs : Bytes} {s : σ}

/-- What a caller gets that polls with buffers of the given sizes, up to the first error. -/
def collect : List ℕ → σ → Except Fault Bytes
  | [], _ => .ok []
  | cap :: caps, s =>
    match poll cap s with
    | (.pending, s) => collect caps s
    | (.ready bs, s) => (collect caps s).map (bs ++ ·)
    | (.failed e, _) => .error e

def collectState : List ℕ → σ → Except Fault (Bytes × σ)
  | [], s => .ok ([], s)
  | cap :: caps, s =>
    match poll cap s with
    | (.pending, s) => collectState caps s
    | (.ready bs, s) => (collectState caps s).map fun result => (bs ++ result.1, result.2)
    | (.failed e, _) => .error e

theorem collect_eq_map (caps : List ℕ) (s : σ) :
    collect poll caps s = (collectState poll caps s).map Prod.fst := by
  induction caps generalizing s with
  | nil => rfl
  | cons cap caps ih =>
    unfold collect collectState
    split
    · exact ih _
    · rw [ih]
      cases collectState poll caps _ <;> rfl
    · rfl

def AnswerServes (R : σ → Bytes → Prop) (stalls : σ → ℕ) (s : σ) (bs : Bytes) : Poll × σ → Prop
  | (.pending, s') => R s' bs ∧ stalls s' < stalls s
  | (.ready out, s') => ∃ bs', bs = out ++ bs' ∧ R s' bs' ∧ stalls s' ≤ stalls s
  | (.failed _, _) => False

def Serves (R : σ → Bytes → Prop) (stalls : σ → ℕ) : Prop :=
  ∀ cap s bs, R s bs → AnswerServes R stalls s bs (poll cap s)

theorem AnswerServes.of_stalls_le {R : σ → Bytes → Prop} {stalls : σ → ℕ} {s' : σ}
    {answer : Poll × σ} (h : AnswerServes R stalls s' bs answer) (hstalls : stalls s' ≤ stalls s) :
    AnswerServes R stalls s bs answer := by
  obtain ⟨_ | out | e, t⟩ := answer
  · exact ⟨h.1, h.2.trans_le hstalls⟩
  · obtain ⟨bs', hbs, hR, hle⟩ := h
    exact ⟨bs', hbs, hR, hle.trans hstalls⟩
  · exact h

variable {poll : ℕ → σ → Poll × σ} {R : σ → Bytes → Prop} {stalls : σ → ℕ}

theorem collect_map {τ : Type} {poll' : ℕ → τ → Poll × τ} (f : σ → τ)
    (h : ∀ cap s, poll' cap (f s) = Prod.map id f (poll cap s)) (caps : List ℕ) (s : σ) :
    collect poll' caps (f s) = collect poll caps s := by
  induction caps generalizing s with
  | nil => rfl
  | cons cap caps ih =>
    unfold collect
    rw [h]
    rcases poll cap s with ⟨_ | bs | e, s'⟩
    · exact ih s'
    · simp only [Prod.map, id_eq, ih]
    · rfl

section

variable (h : Serves poll R stalls)
include h

theorem Serves.exists_collectState (caps : List ℕ) (hs : R s bs) :
    ∃ out s' bs', collectState poll caps s = .ok (out, s') ∧ bs = out ++ bs' ∧ R s' bs' := by
  induction caps generalizing s bs with
  | nil => exact ⟨[], s, bs, rfl, rfl, hs⟩
  | cons cap caps ih =>
    have hstep := h cap s bs hs
    unfold collectState
    rcases hpoll : poll cap s with ⟨answer, s₁⟩
    rw [hpoll] at hstep
    cases answer with
    | pending => exact ih hstep.1
    | ready out =>
      obtain ⟨bs₁, rfl, hs₁, -⟩ := hstep
      obtain ⟨rest, s', bs', hrest, rfl, hs'⟩ := ih hs₁
      refine ⟨out ++ rest, s', bs', ?_, (append_assoc ..).symm, hs'⟩
      simp only [hrest]
      rfl
    | failed e => exact hstep.elim

theorem Serves.exists_collect (caps : List ℕ) (hs : R s bs) :
    ∃ out, collect poll caps s = .ok out ∧ out <+: bs := by
  obtain ⟨out, s', bs', hrun, rfl, -⟩ := h.exists_collectState caps hs
  refine ⟨out, ?_, prefix_append _ _⟩
  rw [collect_eq_map, hrun]
  rfl

section

variable (heof : ∀ cap s bs s', R s bs → 0 < cap → poll cap s = (.ready [], s') → bs = [])
include heof

theorem Serves.collect_eq {caps : List ℕ} (hcaps : ∀ cap ∈ caps, 0 < cap) (hs : R s bs)
    (hcount : bs.length + stalls s ≤ caps.length) : collect poll caps s = .ok bs := by
  induction caps generalizing s bs with
  | nil =>
    have hnil : bs = [] := eq_nil_of_length_eq_zero (by
      rw [length_nil] at hcount
      omega)
    rw [hnil]
    rfl
  | cons cap caps ih =>
    have hcaps' : ∀ cap ∈ caps, 0 < cap := fun c hc => hcaps c (mem_cons_of_mem _ hc)
    have hstep := h cap s bs hs
    rw [length_cons] at hcount
    unfold collect
    rcases hpoll : poll cap s with ⟨answer, s'⟩
    rw [hpoll] at hstep
    cases answer with
    | pending => exact ih hcaps' hstep.1 (by have := hstep.2; omega)
    | ready out =>
      obtain ⟨bs', rfl, hs', hstalls⟩ := hstep
      by_cases hout : out = []
      · -- the stream has ended, and later polls cannot add anything
        subst hout
        have hnil := heof cap s _ s' hs (hcaps cap mem_cons_self) hpoll
        subst hnil
        obtain ⟨rest, hrest, hpre⟩ := h.exists_collect caps hs'
        rw [prefix_nil] at hpre
        simp only [hrest, hpre]
        rfl
      · have hpos : 0 < out.length := length_pos_iff.2 hout
        rw [length_append] at hcount
        simp only [ih hcaps' hs' (by omega)]
        rfl
    | failed e => exact hstep.elim

theorem Serves.collectState_eq {caps : List ℕ} (hcaps : ∀ cap ∈ caps, 0 < cap) (hs : R s bs)
    (hcount : bs.length + stalls s ≤ caps.length) :
    ∃ s', collectState poll caps s = .ok (bs, s') ∧ R s' [] := by
  obtain ⟨out, s', bs', hrun, hbs, hs'⟩ := h.exists_collectState caps hs
  have hall := h.collect_eq heof hcaps hs hcount
  rw [collect_eq_map, hrun] at hall
  obtain rfl : out = bs := Except.ok.inj hall
  obtain rfl : bs' = [] := by simpa using hbs
  exact ⟨s', hrun, hs'⟩

end

end

end AsyncIO
