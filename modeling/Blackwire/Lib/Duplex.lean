import Blackwire.Lib.AsyncRead

/-!
# Conversations over a reliable stream

A computation that reads from one direction of a stream and writes to the other.  The other
direction is reliable: a write takes every byte.
-/

namespace AsyncIO

open AsyncRead List

structure Duplex (σ : Type) where
  input : σ
  sent : Bytes

namespace Duplex

variable {σ ε α β : Type} {k : α → ReadM (Duplex σ) ε β} {m : ReadM (Duplex σ) ε α} {out : Bytes}

def reading (m : ReadM σ ε α) : ReadM (Duplex σ) ε α := fun timed s =>
  match m timed s.input with
  | (result, input) => (result, { s with input })

def writeAll (bs : Bytes) : ReadM (Duplex σ) ε Unit := fun _ s =>
  (.ok (), { s with sent := s.sent ++ bs })

def stream : ReadM (Duplex σ) ε (Duplex σ) := fun _ s => (.ok s, s)

/-! ### What is sent in any case -/

def Sends (m : ReadM (Duplex σ) ε α) (out : Bytes) : Prop :=
  ∀ timed s, (m timed s).2.sent = s.sent ++ out

theorem Sends.pure (a : α) : Sends (σ := σ) (ε := ε) (Pure.pure a) [] :=
  fun _ s => (append_nil s.sent).symm

theorem Sends.reading (m : ReadM σ ε α) : Sends (Duplex.reading m) [] :=
  fun _ s => (append_nil s.sent).symm

theorem Sends.stream : Sends (σ := σ) (ε := ε) Duplex.stream [] :=
  fun _ s => (append_nil s.sent).symm

theorem Sends.bind (hm : Sends m []) (hk : ∀ a, Sends (k a) []) : Sends (m >>= k) [] := by
  intro timed s
  have hsent := hm timed s
  rcases hrun : m timed s with ⟨_ | a, s'⟩
  · rw [hrun] at hsent
    rw [ReadM.bind_error hrun]
    exact hsent
  · rw [hrun] at hsent
    rw [ReadM.bind_ok hrun, hk, hsent, append_assoc]
    rfl

theorem Sends.writeAll_bind {k : Unit → ReadM (Duplex σ) ε β} (bs : Bytes) (hk : Sends (k ()) out) :
    Sends (writeAll bs >>= k) (bs ++ out) := by
  intro timed s
  show (k () timed { s with sent := s.sent ++ bs }).2.sent = _
  rw [hk, append_assoc]

/-! ### Exact conversations -/

variable [AsyncRead σ] {b : Duplex σ → β} {e : Bytes} {a : α}

/-- `m` reads exactly `e`, sends exactly `out`, and returns `a` of the stream it leaves. -/
def Talks (m : ReadM (Duplex σ) ε α) (e out : Bytes) (a : Duplex σ → α) : Prop :=
  ∀ s p, rest s.input = e ++ p →
    ∃ input, m false s = (.ok (a ⟨input, s.sent ++ out⟩), ⟨input, s.sent ++ out⟩) ∧ rest input = p

theorem Talks.pure (a : α) : Talks (σ := σ) (ε := ε) (Pure.pure a) [] [] fun _ => a := by
  intro s p h
  refine ⟨s.input, ?_, h⟩
  rw [append_nil]
  rfl

theorem Talks.bind {d out' : Bytes} (hm : Talks m d out fun _ => a) (hk : Talks (k a) e out' b) :
    Talks (m >>= k) (d ++ e) (out ++ out') b := by
  intro s p h
  obtain ⟨input₁, hrun₁, hrest₁⟩ := hm s (e ++ p) (by rw [h, append_assoc])
  obtain ⟨input₂, hrun₂, hrest₂⟩ := hk ⟨input₁, s.sent ++ out⟩ p hrest₁
  refine ⟨input₂, ?_, hrest₂⟩
  rw [ReadM.bind_ok hrun₁, hrun₂, append_assoc]

theorem Talks.bind_read {d : Bytes} (hm : Talks m d [] fun _ => a) (hk : Talks (k a) e out b) :
    Talks (m >>= k) (d ++ e) out b := hm.bind hk

theorem Talks.bind_send {out' : Bytes} (hm : Talks m [] out fun _ => a)
    (hk : Talks (k a) e out' b) :
    Talks (m >>= k) e (out ++ out') b := hm.bind hk

theorem Talks.bind_nil (hm : Talks m e out fun _ => a) (hk : Talks (k a) [] [] b) :
    Talks (m >>= k) e out b := by
  simpa using hm.bind hk

theorem Talks.reading {m : ReadM σ ε α} (hm : ReadM.Decodes m e a) :
    Talks (Duplex.reading m) e [] fun _ => a := by
  intro s p h
  obtain ⟨input, hrun, hrest⟩ := hm s.input p h
  refine ⟨input, ?_, hrest⟩
  simp only [Duplex.reading, hrun, append_nil]

theorem Talks.ofExcept {r : Except ε α} (h : r = .ok a) :
    Talks (σ := σ) (ReadM.ofExcept r) [] [] fun _ => a := by
  subst h
  exact Talks.pure a

theorem Talks.writeAll (bs : Bytes) :
    Talks (σ := σ) (ε := ε) (Duplex.writeAll bs) [] bs fun _ => () :=
  fun s _ h => ⟨s.input, rfl, h⟩

theorem Talks.stream (f : Duplex σ → α) :
    Talks (ε := ε) (Duplex.stream >>= fun s => Pure.pure (f s)) [] [] f := by
  intro s p h
  refine ⟨s.input, ?_, h⟩
  rw [append_nil]
  rfl

end Duplex

end AsyncIO
