import Blackwire.Vless.MuxIsolation

/-!
# Waiting for upstreams

A reader of `relay_mux_cool` keeps the mutex of its upstream locked while it waits for data
(`mux_upstream_to_client`), and the relay locks it for every frame with data of the session.
-/

namespace Blackwire.Vless.MuxRelay

open AsyncIO

variable {σ : Type} {s : Relay σ} {k : ℕ} {r : Reader} {silent : Prop}

/-- The lock of the upstream is taken, and no `abort` will free it. -/
def Reader.Holds (r : Reader) : Prop := r.lock ≠ none ∧ r.aborted = false

/-- What a move of reader `k` changes: the reader, and of what `Holds` is about only what arrives
from the upstream. -/
structure ReaderMove (s s' : Relay σ) (k : ℕ) (r : Reader) (silent : Prop) : Prop where
  phase : s'.phase = s.phase
  readers : ∃ r', s'.readers = s.readers.set k r' ∧ (silent → r.Holds → r'.Holds)

theorem readerMove_readerStep (hr : s.readers[k]? = some r) (i : ReaderInput) :
    ReaderMove s (s.readerStep k r i) k r (∀ peer chunk, i ≠ .received peer chunk) := by
  have hsame : ReaderMove s s k r (∀ peer chunk, i ≠ .received peer chunk) :=
    ⟨rfl, r, by obtain ⟨hk, rfl⟩ := List.getElem?_eq_some_iff.1 hr; simp, fun _ => id⟩
  cases i <;> simp only [Relay.readerStep, Relay.poll, Relay.cancel, Relay.locked, Relay.beginWrite,
    Relay.received, Relay.wrote, Relay.endWrite] <;> repeat' split
  -- the lock changes hands when it was free, when data has arrived and when a task is stopped
  all_goals first
    | exact hsame
    | exact ⟨rfl, _, rfl, fun _ h => h⟩
    | exact ⟨rfl, _, rfl, fun h => absurd rfl (h _ _)⟩
    | exact ⟨rfl, _, rfl, fun _ h => absurd ‹r.lock = none› h.1⟩
    | exact ⟨rfl, _, rfl, fun _ h => absurd (‹r.aborted = true ∧ _›).1 (by simp [h.2])⟩

variable [AsyncRead σ] {ops : List Op}

/-- The move is not one of upstream `k`: neither data nor its end arrives. -/
def Silent (k : ℕ) (input : Input) : Prop :=
  ∀ peer chunk, input ≠ .reader k (.received peer chunk)

/-- A relay that waits for a lock goes on waiting while the upstream is silent. -/
theorem waits_step (hphase : s.phase = .running (.lock k :: ops)) (hr : s.readers[k]? = some r)
    (hholds : r.Holds) {input : Input} (hinput : Silent k input) :
    (step s input).phase = .running (.lock k :: ops) ∧
      ∃ r, (step s input).readers[k]? = some r ∧ r.Holds := by
  cases input with
  | frame =>
    have hsame : step s .frame = s := by simp only [step, Relay.nextFrame, hphase]
    rw [hsame]
    exact ⟨hphase, r, hr, hholds⟩
  | relay answer =>
    have hsame : step s (.relay answer) = s := by
      simp only [step, Relay.nextOp, hphase, Relay.exec, hr, if_neg hholds.1]
    rw [hsame]
    exact ⟨hphase, r, hr, hholds⟩
  | reader j i =>
    cases hj : s.readers[j]? with
    | none =>
      simp only [step, hj]
      exact ⟨hphase, r, hr, hholds⟩
    | some rj =>
      obtain ⟨hsame, r', hreaders, hkeeps⟩ := readerMove_readerStep hj i
      simp only [step, hj, hreaders]
      refine ⟨hsame.trans hphase, ?_⟩
      by_cases hjk : j = k
      · subst hjk
        obtain rfl := Option.some.inj (hr.symm.trans hj)
        refine ⟨r', ?_, hkeeps (fun peer chunk h => hinput peer chunk (by rw [h])) hholds⟩
        rw [List.getElem?_set_self (List.getElem?_eq_some_iff.1 hr).1]
      · exact ⟨r, by rwa [List.getElem?_set_ne hjk], hholds⟩

theorem waits_run (hphase : s.phase = .running (.lock k :: ops)) (hr : s.readers[k]? = some r)
    (hholds : r.Holds) {inputs : List Input} (hinputs : ∀ input ∈ inputs, Silent k input) :
    (inputs.foldl step s).phase = .running (.lock k :: ops) := by
  induction inputs generalizing s r with
  | nil => exact hphase
  | cons input inputs ih =>
    obtain ⟨hinput, hinputs⟩ := List.forall_mem_cons.1 hinputs
    obtain ⟨hphase', r', hr', hholds'⟩ := waits_step hphase hr hholds hinput
    exact ih hphase' hr' hholds' hinputs

/-- **Silent upstreams.**  A relay that has received data for an open session writes it to the
upstream, without anything arriving from that upstream, if and only if the lock of the upstream is
free: a reader that waits in `read` holds it. -/
theorem forwards_iff (s : Relay σ) (k : ℕ) (r : Reader) (data : Bytes) (ops : List Op)
    (hphase : s.phase = .running (.lock k :: .await (.writeAll k data) :: ops))
    (hr : s.readers[k]? = some r) (hopen : r.aborted = false) :
    (∃ inputs : List Input, (∀ input ∈ inputs, Silent k input) ∧
      (inputs.foldl step s).phase = .running ops ∧
      (inputs.foldl step s).log = s.log ++ [.wrote k data]) ↔ r.lock = none := by
  constructor
  · rintro ⟨inputs, hsilent, hdone, -⟩
    by_contra hlock
    have hwaits := waits_run hphase hr ⟨hlock, hopen⟩ hsilent
    rw [hdone] at hwaits
    have hlen := congrArg List.length (Phase.running.inj hwaits)
    simp only [List.length_cons] at hlen
    omega
  · intro hfree
    refine ⟨[.relay (.ok ()), .relay (.ok ())], by simp [Silent], ?_⟩
    simp [step, Relay.nextOp, hphase, Relay.exec, hr, hfree, IoOp.result, Relay.logWrite,
      Relay.setReader, Except.mapError]

def keepFrame : Segment := ⟨[0, 4, 0, 1, 2, 1, 0, 1, 222], by simp⟩

/-- Session 1 is open when the client sends a byte for it; its reader makes the given moves
before. -/
def keepAfter (moves : List Input) : Relay Source :=
  List.foldl step (Relay.init (Source.ofSegments [newFrame, keepFrame]))
    ([.frame, .relay (.ok ()), .relay (.ok ())] ++ moves ++ [.frame])

theorem forwards_unlocked :
    ∃ inputs : List Input, (inputs.foldl step (keepAfter [])).phase = .running [.unlock 0] := by
  obtain ⟨inputs, -, hphase, -⟩ := (forwards_iff (keepAfter []) 0 (.spawned 1 .upstream) [222]
    [.unlock 0] rfl rfl rfl).2 rfl
  exact ⟨inputs, hphase⟩

/-- The reader of session 1 waits for a silent upstream, and the relay waits for the reader. -/
theorem silent_upstream_blocks :
    ¬ ∃ inputs : List Input, (∀ input ∈ inputs, Silent 0 input) ∧
      (inputs.foldl step (keepAfter [.reader 0 .poll, .reader 0 .locked])).phase ≠
        .running [.lock 0, .await (.writeAll 0 [222]), .unlock 0] := by
  rintro ⟨inputs, hsilent, hleft⟩
  exact hleft (waits_run rfl rfl
    ⟨by decide, rfl⟩ hsilent)

end Blackwire.Vless.MuxRelay
