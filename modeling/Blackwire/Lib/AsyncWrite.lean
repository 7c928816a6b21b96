import Blackwire.Lib.Bytes

/-!
# Asynchronous writers

A writer answers a poll with *pending* or with the number of bytes it has taken, which may be fewer
than it was offered.  `AsyncWrite σ` is the interface: `pollWrite`, and the abstract value `written`
of a writer, the bytes it has taken so far.
-/

namespace AsyncIO

open List

/-- An error of a stream: it comes from the stream below, or is raised with a kind and a message. -/
inductive Fault
  | inner
  | writeZero (msg : String)
  | invalidData (msg : String)
  deriving DecidableEq

inductive PollWrite
  | pending
  | ready (n : ℕ)
  | failed (e : Fault)
  deriving DecidableEq

/-- A writer that can be offered bytes. -/
class AsyncWrite (σ : Type) where
  pollWrite : Bytes → σ → PollWrite × σ
  written : σ → Bytes
  blocks : σ → ℕ
  ready_le {bs s n s'} : pollWrite bs s = (.ready n, s') → n ≤ bs.length
  written_ready {bs s n s'} : pollWrite bs s = (.ready n, s') → written s' = written s ++ bs.take n
  written_pending {bs s s'} : pollWrite bs s = (.pending, s') → written s' = written s
  written_failed {bs s e s'} : pollWrite bs s = (.failed e, s') → written s' = written s
  blocks_ready {bs s n s'} : pollWrite bs s = (.ready n, s') → blocks s' ≤ blocks s
  blocks_pending {bs s s'} : pollWrite bs s = (.pending, s') → blocks s' < blocks s

open AsyncWrite

variable {σ : Type} [AsyncWrite σ]

/-! ### Draining a buffer -/

inductive DrainEnd
  | done
  | pending
  | failed (e : Fault)
  | writeZero
  deriving DecidableEq

def drainAux : ℕ → Bytes → σ → DrainEnd × ℕ × σ
  | 0, _, s => (.done, 0, s)
  | fuel + 1, bs, s =>
    if bs = [] then (.done, 0, s)
    else
      match pollWrite bs s with
      | (.pending, s') => (.pending, 0, s')
      | (.failed e, s') => (.failed e, 0, s')
      | (.ready 0, s') => (.writeZero, 0, s')
      | (.ready (n + 1), s') =>
        match drainAux fuel (bs.drop (n + 1)) s' with
        | (e, k, s'') => (e, n + 1 + k, s'')

def drain (bs : Bytes) (s : σ) : DrainEnd × ℕ × σ := drainAux bs.length bs s

structure Drained (bs : Bytes) (s : σ) (result : DrainEnd × ℕ × σ) : Prop where
  le : result.2.1 ≤ bs.length
  written : written result.2.2 = written s ++ bs.take result.2.1
  done : result.1 = .done → result.2.1 = bs.length
  blocks_le : result.1 = .done → blocks result.2.2 ≤ blocks s
  blocks_lt : result.1 = .pending → blocks result.2.2 < blocks s

theorem drainAux_spec {fuel : ℕ} {bs : Bytes} (s : σ) (hfuel : bs.length ≤ fuel) :
    Drained bs s (drainAux fuel bs s) := by
  induction fuel generalizing bs s with
  | zero =>
    have hnil : bs = [] := eq_nil_of_length_eq_zero (by omega)
    subst hnil
    exact ⟨le_rfl, by simp [drainAux], fun _ => rfl, fun _ => le_rfl, fun h => by cases h⟩
  | succ fuel ih =>
    unfold drainAux
    by_cases hnil : bs = []
    · subst hnil
      exact ⟨le_rfl, by simp, fun _ => rfl, fun _ => le_rfl, fun h => by cases h⟩
    rw [if_neg hnil]
    split
    · rename_i s' hp
      exact ⟨Nat.zero_le _, by simp [written_pending hp], by simp, by simp,
        fun _ => blocks_pending hp⟩
    · rename_i e s' hp
      exact ⟨Nat.zero_le _, by simp [written_failed hp], by simp, by simp, by simp⟩
    · rename_i s' hp
      exact ⟨Nat.zero_le _, by simp [written_ready hp], by simp, by simp, by simp⟩
    · rename_i n s' hp
      have hle := ready_le hp
      have hblocks := blocks_ready hp
      have hrest : (bs.drop (n + 1)).length ≤ fuel := by
        rw [length_drop]
        omega
      have hrec := ih s' hrest
      have hlen := hrec.le
      rw [length_drop] at hlen
      refine ⟨?_, ?_, ?_, ?_, ?_⟩
      · show n + 1 + (drainAux fuel (bs.drop (n + 1)) s').2.1 ≤ bs.length
        omega
      · rw [hrec.written, written_ready hp, append_assoc, ← take_add]
      · intro h
        have hdone := hrec.done h
        rw [length_drop] at hdone
        show n + 1 + (drainAux fuel (bs.drop (n + 1)) s').2.1 = bs.length
        omega
      · intro h
        exact (hrec.blocks_le h).trans hblocks
      · intro h
        exact (hrec.blocks_lt h).trans_le hblocks

/-- **Draining.**  The bytes that leave the buffer are those that reach the writer. -/
theorem drain_spec (bs : Bytes) (s : σ) : Drained bs s (drain bs s) := drainAux_spec s le_rfl

theorem drainAux_pending {fuel : ℕ} {bs : Bytes} {s : σ} (h : (drainAux fuel bs s).1 = .pending) :
    (drainAux fuel bs s).2.1 < bs.length := by
  induction fuel generalizing bs s with
  | zero => cases h
  | succ fuel ih =>
    unfold drainAux at h ⊢
    by_cases hnil : bs = []
    · rw [if_pos hnil] at h
      cases h
    have hpos : 0 < bs.length := length_pos_iff.2 hnil
    rw [if_neg hnil] at h ⊢
    split at h
    · exact hpos
    · cases h
    · cases h
    · rename_i n s' hp
      have hrec := ih h
      rw [length_drop] at hrec
      show n + 1 + (drainAux fuel (bs.drop (n + 1)) s').2.1 < bs.length
      omega

theorem drain_pending {bs : Bytes} {s : σ} (h : (drain bs s).1 = .pending) :
    (drain bs s).2.1 < bs.length := drainAux_pending h

/-! ### A writer given by its schedule -/

inductive WriteEvent
  | pending
  | accept (n : ℕ)
  deriving DecidableEq

structure Sink where
  taken : Bytes
  schedule : List WriteEvent

namespace Sink

def ready : Sink := ⟨[], []⟩

def pollWrite (bs : Bytes) (s : Sink) : PollWrite × Sink :=
  match s.schedule with
  | [] => (.ready bs.length, ⟨s.taken ++ bs, []⟩)
  | .pending :: schedule => (.pending, ⟨s.taken, schedule⟩)
  | .accept n :: schedule =>
    (.ready (min (n + 1) bs.length), ⟨s.taken ++ bs.take (n + 1), schedule⟩)

theorem pollWrite_cases (bs : Bytes) (s : Sink) :
    (pollWrite bs s = (.ready bs.length, ⟨s.taken ++ bs, []⟩) ∧ s.schedule = []) ∨
    (∃ schedule, pollWrite bs s = (.pending, ⟨s.taken, schedule⟩) ∧
      s.schedule = .pending :: schedule) ∨
    (∃ n schedule, pollWrite bs s =
        (.ready (min (n + 1) bs.length), ⟨s.taken ++ bs.take (n + 1), schedule⟩) ∧
      s.schedule = .accept n :: schedule) := by
  obtain ⟨taken, _ | ⟨_ | n, schedule⟩⟩ := s
  · exact .inl ⟨rfl, rfl⟩
  · exact .inr (.inl ⟨schedule, rfl, rfl⟩)
  · exact .inr (.inr ⟨n, schedule, rfl, rfl⟩)

section

variable {bs : Bytes} {s s' : Sink}

theorem pollWrite_ready {n : ℕ} (h : pollWrite bs s = (.ready n, s')) :
    n ≤ bs.length ∧ s'.taken = s.taken ++ bs.take n ∧
      s'.schedule.count .pending ≤ s.schedule.count .pending := by
  obtain ⟨hp, hs⟩ | ⟨_, hp, -⟩ | ⟨_, _, hp, hs⟩ := pollWrite_cases bs s <;> rw [hp] at h <;> cases h
  · simp
  · simp [hs, ← take_eq_take_min]

theorem pollWrite_pending (h : pollWrite bs s = (.pending, s')) :
    s'.taken = s.taken ∧ s'.schedule.count .pending < s.schedule.count .pending := by
  obtain ⟨hp, -⟩ | ⟨_, hp, hs⟩ | ⟨_, _, hp, -⟩ := pollWrite_cases bs s <;> rw [hp] at h <;> cases h
  simp [hs]

end

instance : AsyncWrite Sink where
  pollWrite := pollWrite
  written := taken
  blocks s := s.schedule.count .pending
  ready_le h := (pollWrite_ready h).1
  written_ready h := (pollWrite_ready h).2.1
  written_pending h := (pollWrite_pending h).1
  written_failed := by
    intro bs s e s' h
    obtain ⟨hp, -⟩ | ⟨_, hp, -⟩ | ⟨_, _, hp, -⟩ := pollWrite_cases bs s <;> rw [hp] at h <;> cases h
  blocks_ready h := (pollWrite_ready h).2.2
  blocks_pending h := (pollWrite_pending h).2

theorem drainAux_end (fuel : ℕ) (bs : Bytes) (s : Sink) :
    (drainAux fuel bs s).1 = .done ∨ (drainAux fuel bs s).1 = .pending := by
  induction fuel generalizing bs s with
  | zero => exact .inl rfl
  | succ fuel ih =>
    unfold drainAux
    by_cases hnil : bs = []
    · rw [if_pos hnil]
      exact .inl rfl
    rw [if_neg hnil]
    have hpos : 0 < bs.length := length_pos_iff.2 hnil
    have hpoll : AsyncWrite.pollWrite bs s = pollWrite bs s := rfl
    rw [hpoll]
    obtain ⟨hp, -⟩ | ⟨_, hp, -⟩ | ⟨n, _, hp, -⟩ := pollWrite_cases bs s
    · obtain ⟨k, hk⟩ : ∃ k, bs.length = k + 1 := ⟨bs.length - 1, by omega⟩
      rw [hp, hk]
      exact ih _ _
    · rw [hp]
      exact .inr rfl
    · obtain ⟨k, hk⟩ : ∃ k, min (n + 1) bs.length = k + 1 := ⟨min (n + 1) bs.length - 1, by omega⟩
      rw [hp, hk]
      exact ih _ _

theorem drain_end (bs : Bytes) (s : Sink) : (drain bs s).1 = .done ∨ (drain bs s).1 = .pending :=
  drainAux_end bs.length bs s

end Sink

end AsyncIO
