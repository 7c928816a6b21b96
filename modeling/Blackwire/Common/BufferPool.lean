import Blackwire.Lib.Bytes
import Blackwire.Lib.Run

/-!
# The buffer pool

`BufferPool` of `buf.rs`: three queues of buffers, by their capacity.
-/

namespace Blackwire

open Function List

inductive SizeClass
  | small
  | medium
  | large
  deriving DecidableEq

/-- `SMALL_SIZE`, `MEDIUM_SIZE` and `LARGE_SIZE`. -/
def SizeClass.size : SizeClass → ℕ
  | .small => 4 * 1024
  | .medium => 16 * 1024
  | .large => 64 * 1024

def SizeClass.perCpu : SizeClass → ℕ
  | .small => 8
  | .medium => 4
  | .large => 2

/-- The choice of `pool_for` and of `capacity_for`. -/
def classFor (size : ℕ) : SizeClass :=
  if size ≤ SizeClass.small.size then .small
  else if size ≤ SizeClass.medium.size then .medium
  else .large

structure BytesMut where
  data : Bytes
  capacity : ℕ

structure BufferPool where
  cpus : ℕ
  queue : SizeClass → List BytesMut

inductive PoolEvent
  | acquire (hint : ℕ)
  | release (buf : BytesMut)

namespace BufferPool

def new (cpus : ℕ) : BufferPool := ⟨cpus, fun _ => []⟩

variable (pool : BufferPool)

def acquire (hint : ℕ) : BytesMut × BufferPool :=
  let c := classFor hint
  ((pool.queue c).head?.getD ⟨[], c.size⟩,
    { pool with queue := update pool.queue c (pool.queue c).tail })

/-- A buffer for which there is no room is dropped. -/
def release (buf : BytesMut) : BufferPool :=
  let c := classFor buf.capacity
  if (pool.queue c).length < pool.cpus * c.perCpu then
    { pool with queue := update pool.queue c (pool.queue c ++ [⟨[], buf.capacity⟩]) }
  else pool

def step : PoolEvent → BufferPool
  | .acquire hint => (pool.acquire hint).2
  | .release buf => pool.release buf

/-- A buffer that is released has at least the size of its class. -/
def Sized (_ : BufferPool) (e : PoolEvent) : Prop :=
  ∀ buf, e = .release buf → (classFor buf.capacity).size ≤ buf.capacity

variable {pool} {c : SizeClass} {buf : BytesMut} {e : PoolEvent}

theorem mem_step (h : buf ∈ (pool.step e).queue c) :
    buf ∈ pool.queue c ∨
      ∃ given, e = .release given ∧ c = classFor given.capacity ∧ buf = ⟨[], given.capacity⟩ := by
  cases e with
  | acquire hint =>
    simp only [step, acquire, update_apply] at h
    split_ifs at h with hc
    · exact .inl (hc ▸ mem_of_mem_tail h)
    · exact .inl h
  | release given =>
    simp only [step, release] at h
    split_ifs at h
    · simp only [update_apply] at h
      split_ifs at h with hc
      · rcases mem_append.1 h with hold | hnew
        · exact .inl (hc ▸ hold)
        · exact .inr ⟨given, rfl, hc, mem_singleton.1 hnew⟩
      · exact .inl h
    · exact .inl h

theorem mem_acquire (pool : BufferPool) (hint : ℕ) :
    (pool.acquire hint).1 = ⟨[], (classFor hint).size⟩ ∨
      (pool.acquire hint).1 ∈ pool.queue (classFor hint) := by
  unfold acquire
  cases hqueue : pool.queue (classFor hint) with
  | nil => exact .inl (by simp [hqueue])
  | cons buf rest => exact .inr (by simp [hqueue])

theorem le_size_classFor {hint : ℕ} (h : hint ≤ SizeClass.large.size) :
    hint ≤ (classFor hint).size := by
  unfold classFor
  split_ifs <;> assumption

/-- **The buffers of a pool** are empty in every run; and if each buffer that is released has at
least the size of its class, a buffer is as large as was asked for, up to the largest class. -/
theorem acquire_fits (cpus hint : ℕ) (es : List PoolEvent) :
    let result := ((es.foldl step (new cpus)).acquire hint).1
    result.data = [] ∧
      (Run.Meets Sized step (new cpus) es → hint ≤ SizeClass.large.size →
        hint ≤ result.capacity) := by
  constructor
  · have hempty : ∀ c, ∀ buf ∈ (es.foldl step (new cpus)).queue c, buf.data = [] := by
      refine foldlRecOn (motive := fun pool => ∀ c, ∀ buf ∈ pool.queue c, buf.data = []) es step
        ?_ fun pool h e _ c buf hbuf => ?_
      · simp [new]
      rcases mem_step hbuf with hold | ⟨given, -, -, rfl⟩
      · exact h c buf hold
      · rfl
    rcases mem_acquire (es.foldl step (new cpus)) hint with hnew | hold
    · rw [hnew]
    · exact hempty _ _ hold
  · intro hmeets hhint
    have hsize : ∀ c, ∀ buf ∈ (es.foldl step (new cpus)).queue c, c.size ≤ buf.capacity := by
      refine Run.invariant_of_meets (P := fun pool => ∀ c, ∀ buf ∈ pool.queue c,
        c.size ≤ buf.capacity) (fun pool e h hsized c buf hbuf => ?_)
        (by simp [new]) hmeets
      rcases mem_step hbuf with hold | ⟨given, he, rfl, rfl⟩
      · exact h c buf hold
      · exact hsized given he
    refine (le_size_classFor hhint).trans ?_
    rcases mem_acquire (es.foldl step (new cpus)) hint with hnew | hold
    · rw [hnew]
    · exact hsize _ _ hold

/-- A buffer that was released is handed out for its whole class. -/
theorem acquire_fits_after_release :
    4096 ≤ ((List.foldl step (new 1) [.release ⟨[1], 4096⟩]).acquire 4096).1.capacity :=
  (acquire_fits 1 4096 [.release ⟨[1], 4096⟩]).2
    ⟨fun buf h => by cases h; decide, trivial⟩ (by decide)

theorem classFor_size (size : ℕ) : classFor (classFor size).size = classFor size := by
  rcases classFor size <;> decide

/-- The condition on one release is needed: a buffer below the size of its class is handed out for
a hint that it does not hold. -/
theorem release_undersized {cpus : ℕ} (hcpus : 0 < cpus)
    (h : buf.capacity < (classFor buf.capacity).size) :
    (((new cpus).step (.release buf)).acquire (classFor buf.capacity).size).1.capacity <
      (classFor buf.capacity).size := by
  have hroom : 0 < cpus * (classFor buf.capacity).perCpu :=
    Nat.mul_pos hcpus (by cases classFor buf.capacity <;> decide)
  simpa [step, release, acquire, new, classFor_size, hroom] using h

/-- A buffer that was cut to one byte is handed out again. -/
theorem small_buffer_reused :
    ((List.foldl step (new 1) [.release ⟨[], 1⟩]).acquire 100).1.capacity = 1 := by
  decide

end BufferPool

end Blackwire
