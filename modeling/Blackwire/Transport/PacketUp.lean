import Blackwire.Transport.UploadQueue

/-!
# The server of SplitHTTP uploads

How many packets an upload queue of `splithttp_packet_up.rs` holds.
-/

namespace Blackwire.SplitHttp

/-! ### The reorder limit -/

/-- The condition on a push: it finds fewer packets than the limit. -/
def Paced (s : System) (e : Event) : Prop :=
  e = .release → (∃ packet, s.holder = some (.push packet)) →
    s.queue.heap.size < s.queue.maxBuffered

/-- The queue holds at most as many packets as the limit, and no read has found more. -/
structure Roomy (s : System) : Prop where
  size : s.queue.heap.size ≤ s.queue.maxBuffered
  last : ∀ msg, s.last ≠ some (.error (.other msg))

theorem fillLoop_roomy (fuel : ℕ) {st : QueueState} (h : st.heap.size ≤ st.maxBuffered) :
    (fillLoop fuel st).2.heap.size ≤ (fillLoop fuel st).2.maxBuffered ∧
      ∀ msg, (fillLoop fuel st).1 ≠ .error (.other msg) := by
  induction fuel generalizing st with
  | zero => exact ⟨h, fun _ h => by cases h⟩
  | succ fuel ih =>
    rw [fillLoop]
    cases hpop : st.heap.pop with
    | none =>
      split_ifs
      · exact ⟨h, fun _ h => by cases h⟩
      · exact ⟨h, fun _ h => by cases h⟩
    | some popped =>
      obtain ⟨packet, heap⟩ := popped
      have hsize : heap.size + 1 = st.heap.size := by
        rw [MinHeap.size, MinHeap.size, (MinHeap.pop_eq_some hpop).1, List.length_cons]
      dsimp only
      split_ifs with hnext hgap hfull
      · exact ih (by simp only; omega)
      · omega
      · rw [MinHeap.push_pop hpop]
        exact ⟨h, fun _ h => by cases h⟩
      · exact ih (by simp only; omega)

theorem Roomy.serve {s : System} (h : Roomy s) (room : ℕ) : Roomy (s.serve room) := by
  obtain ⟨hsize, hother⟩ := fillLoop_roomy (s.queue.heap.size + 1) h.size
  rcases hfill : fillPending s.queue with ⟨result, queue⟩
  rw [fillPending] at hfill
  rw [hfill] at hsize hother
  obtain ⟨-, hs⟩ | ⟨msg, herror, -⟩ | ⟨-, -, hs⟩ | ⟨-, -, -, hs⟩ | ⟨-, -, -, hs⟩ :=
    serve_cases hfill room
  on_goal 2 => exact absurd herror (hother msg)
  all_goals rw [hs]
  on_goal 4 => exact ⟨hsize, h.last⟩
  all_goals exact ⟨hsize, fun _ h => by cases h⟩

theorem Roomy.step {s : System} (h : Roomy s) {e : Event} (hpaced : Paced s e) :
    Roomy (step s e) := by
  have hacts := step_acts s e
  generalize SplitHttp.step s e = s' at hacts
  cases hacts with
  | push packet hholder =>
    refine ⟨?_, h.last⟩
    simp only [MinHeap.size, MinHeap.push, List.orderedInsert_length]
    exact hpaced rfl ⟨packet, hholder⟩
  | finish _ result hresult => exact ⟨h.size, fun msg herr => hresult _ (Option.some.inj herr)⟩
  | serve room => exact h.serve room
  | _ => exact ⟨h.size, h.last⟩

/-- **The reorder limit.**  As long as each push finds fewer packets than the limit, the queue holds
no more packets than that, and no read gives up and drops a packet. -/
theorem heap_within_limit (maxBuffered : ℕ) (es : List Event)
    (h : Run.Meets Paced step (.init maxBuffered) es) :
    let s := es.foldl step (.init maxBuffered)
    s.queue.heap.size ≤ s.queue.maxBuffered ∧ ∀ msg, s.last ≠ some (.error (.other msg)) := by
  have hstart : Roomy (.init maxBuffered) := ⟨Nat.zero_le _, fun _ h => by cases h⟩
  have hroomy := Run.invariant_of_meets (fun _ _ h hpaced => h.step hpaced) hstart h
  exact ⟨hroomy.size, hroomy.last⟩

/-- Packets with the given numbers are pushed, and no read takes place. -/
def pushed (seqs : List UInt64) : List Event :=
  seqs.flatMap fun seq => [.lock (.push ⟨seq, [65]⟩), .release, .bump 0]

theorem one_within_limit : ((pushed [1]).foldl step (.init 1)).queue.heap.size ≤ 1 :=
  (heap_within_limit 1 (pushed [1]) (by
    refine ⟨Event.noConfusion, fun _ _ => ?_, Event.noConfusion, trivial⟩
    decide +kernel)).1

/-- Three packets wait for the first one at a limit of one; the next read drops one of them. -/
theorem heap_over_limit :
    let s := (pushed [1, 2, 3]).foldl step (.init 1)
    let s' := List.foldl step s [.poll 1, .reader, .reader]
    s.queue.heap.size = 3 ∧ s'.last = some (.error (.other "packet-up reorder buffer exceeded")) ∧
      s'.queue.heap.items.map UploadPacket.seq = [2, 3] := by
  decide +kernel

end Blackwire.SplitHttp
