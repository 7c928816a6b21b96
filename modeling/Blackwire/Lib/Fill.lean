import Blackwire.Lib.AsyncRead

/-!
# Reads that can be resumed

A stream that takes its input in pieces of known length keeps what it has of a piece when the stream
below is pending, and goes on with it at the next poll.
-/

namespace AsyncIO

open AsyncRead List

variable {σ ε : Type}

/-! ### Filling -/

inductive FillEnd (n : ℕ)
  | done (bs : Octets n)
  | pending (got : Bytes)
  | eof (got : Bytes)

def FillEnd.bytes {n : ℕ} : FillEnd n → Bytes
  | .done bs => bs.val
  | .pending got => got
  | .eof got => got

section Fill

variable [AsyncRead σ]

def fillAux (n : ℕ) : ℕ → Bytes → σ → FillEnd n × σ
  | 0, got, s => (.pending got, s)
  | fuel + 1, got, s =>
    if h : got.length = n then (.done ⟨got, h⟩, s)
    else
      match pollRead (n - got.length) s with
      | (.pending _, s) => (.pending got, s)
      | (.ready [], s) => (.eof got, s)
      | (.ready bs, s) => fillAux n fuel (got ++ bs) s

def fill (n : ℕ) (got : Bytes) (s : σ) : FillEnd n × σ := fillAux n (n - got.length + 1) got s

theorem fillAux_moved (n fuel : ℕ) (got : Bytes) (s : σ) :
    (fillAux n fuel got s).1.bytes ++ rest (fillAux n fuel got s).2 = got ++ rest s := by
  induction fuel generalizing got s with
  | zero => rfl
  | succ fuel ih =>
    unfold fillAux
    split_ifs with hlen
    · rfl
    split
    · rename_i e s' hp
      rw [← rest_pending hp]
      rfl
    · rename_i s' hp
      rw [rest_ready hp]
      rfl
    · rename_i bs s' hne hp
      rw [ih, rest_ready hp, append_assoc]

/-- **Filling.**  The bytes that leave the stream are those that are put behind what is there. -/
theorem fill_moved (n : ℕ) (got : Bytes) (s : σ) :
    (fill n got s).1.bytes ++ rest (fill n got s).2 = got ++ rest s := fillAux_moved _ _ _ _

structure Filled (n : ℕ) (got : Bytes) (s : σ) (result : FillEnd n × σ) : Prop where
  le : result.1.bytes.length ≤ n
  stalls_le : stalls result.2 ≤ stalls s
  pending : ∀ bs, result.1 = .pending bs → stalls result.2 < stalls s
  eof : ∀ bs, result.1 = .eof bs → (got ++ rest s).length < n

theorem fillAux_spec {n fuel : ℕ} {got : Bytes} {s : σ} (hle : got.length ≤ n)
    (hfuel : n - got.length < fuel) : Filled n got s (fillAux n fuel got s) := by
  induction fuel generalizing got s with
  | zero => omega
  | succ fuel ih =>
    unfold fillAux
    split_ifs with hlen
    · refine ⟨hle, le_rfl, fun bs h => ?_, fun bs h => ?_⟩
      · cases h
      · cases h
    split
    · rename_i e s' hp
      refine ⟨hle, (stalls_pending hp).le, fun bs _ => stalls_pending hp, fun bs h => ?_⟩
      cases h
    · rename_i s' hp
      have hrest : rest s = [] := by
        obtain ⟨k, hk⟩ : ∃ k, n - got.length = k + 1 := ⟨n - got.length - 1, by omega⟩
        rw [hk] at hp
        exact rest_eof hp
      refine ⟨hle, stalls_ready hp, fun bs h => ?_, fun bs _ => ?_⟩
      · cases h
      · rw [hrest, append_nil]
        omega
    · rename_i bs s' hne hp
      have hshort := length_ready hp
      have hpos : 0 < bs.length := length_pos_iff.2 fun hnil => hne (by rw [hnil])
      have hrec : Filled n (got ++ bs) s' (fillAux n fuel (got ++ bs) s') :=
        ih (by rw [length_append]; omega) (by rw [length_append]; omega)
      refine ⟨hrec.le, hrec.stalls_le.trans (stalls_ready hp),
        fun bs h => (hrec.pending bs h).trans_le (stalls_ready hp), fun bs h => ?_⟩
      rw [rest_ready hp, ← append_assoc]
      exact hrec.eof bs h

theorem fill_spec {n : ℕ} {got : Bytes} (hle : got.length ≤ n) (s : σ) :
    Filled n got s (fill n got s) := fillAux_spec hle (Nat.lt_succ_self _)

end Fill

/-! ### Callers -/

inductive Answer (ε : Type)
  | pending
  | ready (bs : Bytes)
  | failed (e : ε)
  deriving DecidableEq

/-- What a caller gets that polls with buffers of the given sizes, up to the first error. -/
def gather (poll : ℕ → σ → Answer ε × σ) : List ℕ → σ → Bytes
  | [], _ => []
  | cap :: caps, s =>
    match poll cap s with
    | (.pending, s) => gather poll caps s
    | (.ready bs, s) => bs ++ gather poll caps s
    | (.failed _, _) => []

/-- What an answer to a poll with a buffer of `cap` bytes may be when `bs` is yet to be delivered.
-/
def AnswerYields (R : σ → Bytes → Prop) (stalls : σ → ℕ) (cap : ℕ) (s : σ) (bs : Bytes) :
    Answer ε × σ → Prop
  | (.pending, s') => R s' bs ∧ stalls s' < stalls s
  | (.ready out, s') => ∃ bs', bs = out ++ bs' ∧ R s' bs' ∧ stalls s' ≤ stalls s ∧
      (0 < cap → out ≠ [])
  | (.failed _, _) => bs = []

/-- Every poll hands out bytes from the front of what is left, and fails when nothing is left. -/
def Yields (poll : ℕ → σ → Answer ε × σ) (R : σ → Bytes → Prop) (stalls : σ → ℕ) : Prop :=
  ∀ cap s bs, R s bs → AnswerYields R stalls cap s bs (poll cap s)

theorem AnswerYields.of_stalls_le {R : σ → Bytes → Prop} {stalls : σ → ℕ} {cap : ℕ} {s s' : σ}
    {bs : Bytes} {answer : Answer ε × σ} (h : AnswerYields R stalls cap s' bs answer)
    (hstalls : stalls s' ≤ stalls s) : AnswerYields R stalls cap s bs answer := by
  obtain ⟨_ | out | e, t⟩ := answer
  · exact ⟨h.1, h.2.trans_le hstalls⟩
  · obtain ⟨bs', hbs, hR, hle, hne⟩ := h
    exact ⟨bs', hbs, hR, hle.trans hstalls, hne⟩
  · exact h

variable {poll : ℕ → σ → Answer ε × σ} {R : σ → Bytes → Prop} {stalls : σ → ℕ}

theorem Yields.gather_begins (h : Yields poll R stalls) (caps : List ℕ) {s : σ} {bs : Bytes}
    (hs : R s bs) : gather poll caps s <+: bs := by
  induction caps generalizing s bs with
  | nil => exact nil_prefix
  | cons cap caps ih =>
    have hstep := h cap s bs hs
    unfold gather
    rcases hpoll : poll cap s with ⟨_ | out | e, s'⟩ <;> rw [hpoll] at hstep
    · exact ih hstep.1
    · obtain ⟨bs', rfl, hs', -⟩ := hstep
      exact (prefix_append_right_inj out).2 (ih hs')
    · exact nil_prefix

/-- A caller that polls often enough, with buffers that are not empty, gets everything. -/
theorem Yields.gather_eq (h : Yields poll R stalls) {caps : List ℕ} (hcaps : ∀ cap ∈ caps, 0 < cap)
    {s : σ} {bs : Bytes} (hs : R s bs) (hcount : bs.length + stalls s ≤ caps.length) :
    gather poll caps s = bs := by
  induction caps generalizing s bs with
  | nil =>
    rw [length_nil] at hcount
    exact (eq_nil_of_length_eq_zero (by omega)).symm
  | cons cap caps ih =>
    have hcaps' : ∀ cap ∈ caps, 0 < cap := fun c hc => hcaps c (mem_cons_of_mem _ hc)
    have hstep := h cap s bs hs
    rw [length_cons] at hcount
    unfold gather
    rcases hpoll : poll cap s with ⟨_ | out | e, s'⟩ <;> rw [hpoll] at hstep
    · have hlt := hstep.2
      exact ih hcaps' hstep.1 (by omega)
    · obtain ⟨bs', rfl, hs', hle, hne⟩ := hstep
      have hpos := length_pos_iff.2 (hne (hcaps cap mem_cons_self))
      rw [length_append] at hcount
      exact congrArg (out ++ ·) (ih hcaps' hs' (by omega))
    · exact Eq.symm hstep

end AsyncIO
