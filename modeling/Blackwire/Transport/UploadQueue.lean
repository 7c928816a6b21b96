import Blackwire.Lib.Bytes
import Blackwire.Lib.MinHeap
import Blackwire.Lib.Run

/-!
# The upload queue of SplitHTTP

`UploadQueue` and `UploadQueueReader` of `splithttp_packet_up.rs`: upload packets arrive in any
order on connections of their own, and one reader returns their bytes in the order of their sequence
numbers.  The queue is behind a lock that the reader only ever tries to take; a push tells the
reader afterwards, through a channel, that it should look again.
-/

namespace Blackwire.SplitHttp

open List MinHeap

/-! ### The queue -/

structure UploadPacket where
  seq : UInt64
  payload : Bytes
  deriving DecidableEq

def UploadPacket.key (packet : UploadPacket) : ℕ ×ₗ List ℕ :=
  toLex (packet.seq.toNat, packet.payload.map UInt8.toNat)

structure QueueState where
  nextSeq : UInt64
  heap : MinHeap UploadPacket.key
  pending : Bytes
  closed : Bool
  maxBuffered : ℕ

inductive QueueError
  | other (msg : String)
  | unexpectedEof
  deriving DecidableEq

def saturatingSucc (n : UInt64) : UInt64 := if n.toNat = 2 ^ 64 - 1 then n else n + 1

def fillLoop : ℕ → QueueState → Except QueueError Unit × QueueState
  | 0, st => (.ok (), st)
  | fuel + 1, st =>
    match st.heap.pop with
    | some (packet, heap) =>
      if packet.seq = st.nextSeq then
        fillLoop fuel { st with
          heap := heap
          pending := st.pending ++ packet.payload
          nextSeq := saturatingSucc st.nextSeq }
      else if packet.seq > st.nextSeq then
        if heap.size ≥ st.maxBuffered then
          -- the packet that was taken off is not put back
          (.error (.other "packet-up reorder buffer exceeded"), { st with heap := heap })
        else (.ok (), { st with heap := heap.push packet })
      else fillLoop fuel { st with heap := heap }
    | none =>
      if st.closed && st.pending.isEmpty then (.error .unexpectedEof, st) else (.ok (), st)

def fillPending (st : QueueState) : Except QueueError Unit × QueueState :=
  fillLoop (st.heap.size + 1) st

def defaultMaxBuffered : ℕ := 64

def QueueState.new (maxBuffered : ℕ) : QueueState where
  nextSeq := 0
  heap := .empty
  pending := []
  closed := false
  maxBuffered := if maxBuffered = 0 then defaultMaxBuffered else maxBuffered

/-! ### Pushes and the reader -/

inductive Holder
  | push (packet : UploadPacket)
  | close
  deriving DecidableEq

inductive PollResult
  | pending
  | ready (bs : Bytes)
  | error (e : QueueError)
  deriving DecidableEq

/-- Where the reader is in `poll_read`, with the room in its buffer: outside, before its first
`try_lock`, before its second one, before it receives from the channel, or dead. -/
inductive Pc
  | idle
  | tryFirst (room : ℕ)
  | trySecond (room : ℕ)
  | recv (room : ℕ)
  | panicked
  deriving DecidableEq

structure System where
  queue : QueueState
  holder : Option Holder
  released : List (Option UploadPacket)
  tokens : ℕ
  pc : Pc
  last : Option PollResult
  returned : Bytes
  completed : List UploadPacket

def System.init (maxBuffered : ℕ) : System where
  queue := .new maxBuffered
  holder := none
  released := []
  tokens := 0
  pc := .idle
  last := none
  returned := []
  completed := []

/-- One atomic action: a call takes the lock, it does its work and releases it, it tells the reader;
the reader is polled, or does its next action. -/
inductive Event
  | lock (holder : Holder)
  | release
  | bump (i : ℕ)
  | poll (room : ℕ)
  | reader
  deriving DecidableEq

variable (s : System) (payload : ℕ → Bytes) {st : QueueState} {packet : UploadPacket}

def System.finish (result : PollResult) : System :=
  { s with pc := .idle, last := some result }

def System.serve (room : ℕ) : System :=
  match fillPending s.queue with
  | (.error .unexpectedEof, queue) => { s with queue }.finish (.ready [])
  | (.error e, queue) => { s with queue }.finish (.error e)
  | (.ok (), queue) =>
    if queue.pending ≠ [] then
      let n := min room queue.pending.length
      { s with
        queue := { queue with pending := queue.pending.drop n }
        returned := s.returned ++ queue.pending.take n }.finish
          (.ready (queue.pending.take n))
    else if queue.closed then { s with queue }.finish (.ready [])
    else { s with queue, pc := .recv room }

def System.read : System :=
  match s.pc with
  | .idle => s
  | .tryFirst room => { s with pc := if s.holder.isSome then .recv room else .trySecond room }
  | .trySecond room => if s.holder.isSome then { s with pc := .panicked } else s.serve room
  | .recv room =>
    match s.tokens with
    | 0 => s.finish .pending
    | tokens + 1 => { s with tokens, pc := .tryFirst room }
  | .panicked => s

def System.work : System :=
  match s.holder with
  | none => s
  | some (.push packet) =>
    if s.queue.closed then { s with holder := none }
    else
      { s with
        queue := { s.queue with heap := s.queue.heap.push packet }
        holder := none
        released := s.released ++ [some packet] }
  | some .close =>
    { s with
      queue := { s.queue with closed := true }
      holder := none
      released := s.released ++ [none] }

def System.bump (i : ℕ) : System :=
  match s.released[i]? with
  | none => s
  | some packet =>
    { s with
      released := s.released.eraseIdx i
      tokens := s.tokens + 1
      completed := s.completed ++ packet.toList }

def step : Event → System
  | .lock holder => if s.holder.isSome then s else { s with holder := some holder }
  | .release => s.work
  | .bump i => s.bump i
  | .poll room =>
    if s.pc = .idle then
      if room = 0 then s.finish (.ready []) else { s with pc := .tryFirst room }
    else s
  | .reader => s.read

/-- What an action does to the system. -/
inductive Acts (s : System) : Event → System → Prop
  | stay (e : Event) : Acts s e s
  | lock (holder : Holder) : Acts s (.lock holder) { s with holder := some holder }
  | refuse : Acts s .release { s with holder := none }
  | push (packet : UploadPacket) (h : s.holder = some (.push packet)) :
    Acts s .release { s with
      queue := { s.queue with heap := s.queue.heap.push packet }
      holder := none
      released := s.released ++ [some packet] }
  | close : Acts s .release { s with
      queue := { s.queue with closed := true }
      holder := none
      released := s.released ++ [none] }
  | bump (i : ℕ) (packet : Option UploadPacket) (h : packet ∈ s.released) :
    Acts s (.bump i) { s with
      released := s.released.eraseIdx i
      tokens := s.tokens + 1
      completed := s.completed ++ packet.toList }
  | start (room : ℕ) (h : s.pc = .idle) : Acts s (.poll room) { s with pc := .tryFirst room }
  | finish (e : Event) (bs : PollResult) (h : ∀ err, bs ≠ .error err) (hpc : s.pc ≠ .panicked) :
    Acts s e (s.finish bs)
  | busy (room : ℕ) (h : s.pc = .tryFirst room) (hheld : s.holder ≠ none) :
    Acts s .reader { s with pc := .recv room }
  | free (room : ℕ) (h : s.pc = .tryFirst room) (hfree : s.holder = none) :
    Acts s .reader { s with pc := .trySecond room }
  | panic (room : ℕ) (h : s.pc = .trySecond room) (hheld : s.holder ≠ none) :
    Acts s .reader { s with pc := .panicked }
  | serve (room : ℕ) (h : s.pc = .trySecond room) : Acts s .reader (s.serve room)
  | retry (room tokens : ℕ) (h : s.pc = .recv room) :
    Acts s .reader { s with tokens, pc := .tryFirst room }

theorem read_acts : Acts s .reader s.read := by
  unfold System.read
  split
  · exact .stay _
  case h_2 room hpc =>
    split_ifs with hheld
    · exact .busy room hpc (Option.isSome_iff_ne_none.1 hheld)
    · exact .free room hpc (by simpa using hheld)
  case h_3 room hpc =>
    split_ifs with hheld
    · exact .panic room hpc (Option.isSome_iff_ne_none.1 hheld)
    · exact .serve room hpc
  case h_4 room hpc =>
    split
    · exact .finish _ _ (fun _ h => by cases h) (by simp [hpc])
    · exact .retry room _ hpc
  · exact .stay _

open SplitHttp.System

/-- **What a step does.** -/
theorem step_acts (e : Event) : Acts s e (step s e) := by
  cases e with
  | lock holder =>
    unfold step
    dsimp only
    split_ifs
    · exact .stay _
    · exact .lock holder
  | release =>
    show Acts s .release s.work
    unfold work
    split
    · exact .stay _
    case h_2 packet hholder =>
      split_ifs
      · exact .refuse
      · exact .push packet hholder
    · exact .close
  | bump i =>
    show Acts s (.bump i) (s.bump i)
    unfold bump
    split
    · exact .stay _
    case h_2 packet hpacket => exact .bump i packet (mem_of_getElem? hpacket)
  | poll room =>
    unfold step
    dsimp only
    split_ifs with hidle
    · exact .finish _ _ (fun _ h => by cases h) (by simp [hidle])
    · exact .start room hidle
    · exact .stay _
  | reader => exact read_acts s

/-! ### What filling does -/

def inOrder (k : ℕ) : Bytes := (List.range k).flatMap payload

theorem inOrder_succ (k : ℕ) : inOrder payload (k + 1) = inOrder payload k ++ payload k := by
  simp [inOrder, range_succ]

theorem inOrder_mono {k l : ℕ} (h : k ≤ l) : inOrder payload k <+: inOrder payload l := by
  induction l, h using Nat.le_induction with
  | base => exact prefix_rfl
  | succ l _ ih =>
    rw [inOrder_succ]
    exact ih.trans (prefix_append _ _)

def Genuine (n : ℕ) (packet : UploadPacket) : Prop :=
  packet.seq.toNat < n ∧ packet.payload = payload packet.seq.toNat

def QueueState.outOfOrder (st : QueueState) : List UploadPacket :=
  st.heap.items.filter fun p => decide
    (∃ m < p.seq.toNat, st.nextSeq.toNat ≤ m ∧ ∀ q ∈ st.heap.items, q.seq.toNat ≠ m)

theorem toNat_saturatingSucc {n : UInt64} (h : n.toNat < 2 ^ 64 - 1) :
    (saturatingSucc n).toNat = n.toNat + 1 := by
  rw [saturatingSucc, if_neg h.ne]
  exact Nat.mod_eq_of_lt (by simpa using Nat.add_lt_of_lt_sub h)

theorem outOfOrder_eq_of_gap (h : ∀ p ∈ st.heap.items, st.nextSeq.toNat < p.seq.toNat) :
    st.outOfOrder = st.heap.items := by
  refine filter_eq_self.2 fun p hp => decide_eq_true ?_
  exact ⟨st.nextSeq.toNat, h p hp, le_rfl, fun q hq => (h q hq).ne'⟩

structure Filled (payload : ℕ → Bytes) (n : ℕ) (st : QueueState)
    (result : Except QueueError Unit × QueueState) : Prop where
  le_n : result.2.nextSeq.toNat ≤ n
  mem : ∀ p ∈ result.2.heap.items, p ∈ st.heap.items
  closed : result.2.closed = st.closed
  maxBuffered : result.2.maxBuffered = st.maxBuffered
  /-- The payloads of the packets that were next are moved to the pending bytes. -/
  moved : ∀ out, out ++ st.pending = inOrder payload st.nextSeq.toNat →
    out ++ result.2.pending = inOrder payload result.2.nextSeq.toNat
  kept : (∀ msg, result.1 ≠ .error (.other msg)) → ∀ p ∈ st.heap.items,
    p.seq.toNat < result.2.nextSeq.toNat ∨ p ∈ result.2.heap.items
  above : result.1 = .ok () → ∀ p ∈ result.2.heap.items, result.2.nextSeq.toNat < p.seq.toNat
  next_le : st.nextSeq.toNat ≤ result.2.nextSeq.toNat
  outOfOrder : (∀ msg, result.1 ≠ .error (.other msg)) → result.2.outOfOrder = st.outOfOrder
  eof : result.1 = .error .unexpectedEof → st.closed = true
  exceeded : ∀ msg, result.1 = .error (.other msg) → st.maxBuffered < st.outOfOrder.length

variable {result : Except QueueError Unit} {payload : ℕ → Bytes} {n : ℕ}

theorem Filled.of_stop (hnext : st.nextSeq.toNat ≤ n)
    (habove : result = .ok () → ∀ p ∈ st.heap.items, st.nextSeq.toNat < p.seq.toNat)
    (heof : result = .error .unexpectedEof → st.closed = true)
    (hother : ∀ msg, result ≠ .error (.other msg)) : Filled payload n st (result, st) where
  le_n := hnext
  mem _ hp := hp
  closed := rfl
  maxBuffered := rfl
  moved _ hout := hout
  kept _ _ hp := .inr hp
  above := habove
  next_le := le_rfl
  outOfOrder _ := rfl
  eof := heof
  exceeded msg he := absurd he (hother msg)

section

variable {st' : QueueState} (hitems : st.heap.items = packet :: st'.heap.items)
  (hseq : (packet.seq.toNat < st.nextSeq.toNat ∧ st'.nextSeq.toNat = st.nextSeq.toNat) ∨
    (packet.seq.toNat = st.nextSeq.toNat ∧ st'.nextSeq.toNat = st.nextSeq.toNat + 1))
include hitems hseq

theorem outOfOrder_eq_of_take : st'.outOfOrder = st.outOfOrder := by
  unfold QueueState.outOfOrder
  rw [hitems, filter_cons_of_neg]
  · refine filter_congr fun p _ => decide_eq_decide.2 (exists_congr fun m => ?_)
    simp only [forall_mem_cons]
    constructor
    · rintro ⟨hlt, hle, hall⟩
      exact ⟨hlt, by omega, by omega, hall⟩
    · rintro ⟨hlt, hle, hne, hall⟩
      exact ⟨hlt, by omega, hall⟩
  · simp only [decide_eq_true_eq, not_exists, not_and]
    omega

theorem Filled.of_take {result : Except QueueError Unit × QueueState}
    (h : Filled payload n st' result)
    (hmoved : ∀ out, out ++ st.pending = inOrder payload st.nextSeq.toNat →
      out ++ st'.pending = inOrder payload st'.nextSeq.toNat) (hclosed : st'.closed = st.closed)
    (hmax : st'.maxBuffered = st.maxBuffered) :
    Filled payload n st result where
  le_n := h.le_n
  mem p hp := hitems ▸ mem_cons_of_mem packet (h.mem p hp)
  closed := h.closed.trans hclosed
  maxBuffered := h.maxBuffered.trans hmax
  moved out hout := h.moved out (hmoved out hout)
  kept hkeeps p hp := by
    rw [hitems] at hp
    obtain rfl | hp := mem_cons.1 hp
    · have := h.next_le
      exact .inl (by omega)
    · exact h.kept hkeeps p hp
  above := h.above
  next_le := by
    have := h.next_le
    omega
  outOfOrder hkeeps := (h.outOfOrder hkeeps).trans (outOfOrder_eq_of_take hitems hseq)
  eof he := hclosed ▸ h.eof he
  exceeded msg he := by
    rw [← hmax, ← outOfOrder_eq_of_take hitems hseq]
    exact h.exceeded msg he

end

theorem above_of_pop {heap heap' : MinHeap UploadPacket.key}
    (hpop : heap.pop = some (packet, heap')) {k : ℕ} (h : k < packet.seq.toNat) :
    ∀ p ∈ heap.items, k < p.seq.toNat := by
  obtain ⟨hitems, hleast⟩ := pop_eq_some hpop
  rw [hitems]
  refine forall_mem_cons.2 ⟨h, fun p hp => h.trans_le ?_⟩
  exact (Prod.Lex.le_iff'.1 (hleast p hp)).1

theorem fillLoop_filled (hn : n < 2 ^ 64) {fuel : ℕ}
    (hfuel : st.heap.size < fuel) (hnext : st.nextSeq.toNat ≤ n)
    (hgenuine : ∀ p ∈ st.heap.items, Genuine payload n p) :
    Filled payload n st (fillLoop fuel st) := by
  induction fuel generalizing st with
  | zero => omega
  | succ fuel ih =>
    rw [fillLoop]
    cases hpop : st.heap.pop with
    | none =>
      have hnil := pop_eq_none hpop
      split_ifs with hclosed
      · exact .of_stop hnext nofun (fun _ => (Bool.and_eq_true _ _ ▸ hclosed).1) nofun
      · exact .of_stop hnext (fun _ p hp => by simp [hnil] at hp) nofun nofun
    | some taken =>
      obtain ⟨packet, heap⟩ := taken
      obtain ⟨hitems, hleast⟩ := pop_eq_some hpop
      obtain ⟨hlt, hpayload⟩ := hgenuine packet (hitems ▸ mem_cons_self)
      have hrest : ∀ p ∈ heap.items, Genuine payload n p := fun p hp =>
        hgenuine p (hitems ▸ mem_cons_of_mem packet hp)
      have hsize : heap.size < fuel := by
        simp only [size, hitems, length_cons] at hfuel ⊢
        omega
      dsimp only
      split_ifs with heq hgt hfull
      · -- the packet is next
        have hnat : packet.seq.toNat = st.nextSeq.toNat := congrArg UInt64.toNat heq
        have hsucc : (saturatingSucc st.nextSeq).toNat = st.nextSeq.toNat + 1 :=
          toNat_saturatingSucc (by omega)
        refine .of_take hitems (.inr ⟨hnat, hsucc⟩) (ih hsize ?_ hrest) (fun out hout => ?_) rfl rfl
        · show (saturatingSucc st.nextSeq).toNat ≤ n
          omega
        · rw [← append_assoc, hout, hsucc, inOrder_succ, hpayload, hnat]
      · -- a packet is missing, and too many are kept
        have hall := above_of_pop hpop (UInt64.lt_iff_toNat_lt.1 hgt)
        refine ⟨hnext, fun p hp => hitems ▸ mem_cons_of_mem packet hp, rfl, rfl,
          fun out hout => hout, by simp, by simp, le_rfl, by simp, by simp, fun msg _ => ?_⟩
        rw [outOfOrder_eq_of_gap hall, hitems]
        exact Nat.lt_succ_of_le hfull
      · -- a packet is missing
        have hall := above_of_pop hpop (UInt64.lt_iff_toNat_lt.1 hgt)
        rw [push_pop hpop]
        exact .of_stop hnext (fun _ => hall) nofun nofun
      · -- the packet was taken before
        have hne : packet.seq.toNat ≠ st.nextSeq.toNat := fun h => heq (UInt64.toNat_inj.1 h)
        have hle : ¬st.nextSeq.toNat < packet.seq.toNat := fun h => hgt (UInt64.lt_iff_toNat_lt.2 h)
        have hfill : Filled payload n { st with heap := heap } _ := ih hsize hnext hrest
        refine .of_take (?_ : _ = packet :: _) ?_ hfill (fun out hout => hout) rfl rfl
        · exact hitems
        · exact .inl ⟨by omega, rfl⟩

/-- **Filling.** -/
theorem fillPending_filled (hn : n < 2 ^ 64)
    (hnext : st.nextSeq.toNat ≤ n) (hgenuine : ∀ p ∈ st.heap.items, Genuine payload n p) :
    Filled payload n st (fillPending st) :=
  fillLoop_filled hn (Nat.lt_succ_self _) hnext hgenuine

/-! ### What the reader returns -/

theorem serve_cases {s : System} {queue : QueueState}
    (hfill : fillPending s.queue = (result, queue)) (room : ℕ) :
    (result = .error .unexpectedEof ∧ s.serve room = { s with queue }.finish (.ready [])) ∨
    (∃ msg, result = .error (.other msg) ∧
      s.serve room = { s with queue }.finish (.error (.other msg))) ∨
    (result = .ok () ∧ queue.pending ≠ [] ∧
      s.serve room = { s with
        queue := { queue with pending := queue.pending.drop (min room queue.pending.length) }
        returned := s.returned ++ queue.pending.take (min room queue.pending.length) }.finish
          (.ready (queue.pending.take (min room queue.pending.length)))) ∨
    (result = .ok () ∧ queue.pending = [] ∧ queue.closed = true ∧
      s.serve room = { s with queue }.finish (.ready [])) ∨
    (result = .ok () ∧ queue.pending = [] ∧ queue.closed = false ∧
      s.serve room = { s with queue, pc := .recv room }) := by
  unfold serve
  rw [hfill]
  rcases result with (msg | _) | _
  · exact .inr (.inl ⟨msg, rfl, rfl⟩)
  · exact .inl ⟨rfl, rfl⟩
  · dsimp only
    split_ifs with hpending hclosed
    · exact .inr (.inr (.inl ⟨rfl, hpending, rfl⟩))
    · exact .inr (.inr (.inr (.inl ⟨rfl, not_not.1 hpending, hclosed, rfl⟩)))
    · exact .inr (.inr (.inr (.inr ⟨rfl, not_not.1 hpending, by simpa using hclosed, rfl⟩)))

def Event.Sends (payload : ℕ → Bytes) (n : ℕ) : Event → Prop
  | .lock (.push packet) => Genuine payload n packet
  | _ => True

structure Honest (payload : ℕ → Bytes) (n : ℕ) (s : System) : Prop where
  heap : ∀ p ∈ s.queue.heap.items, Genuine payload n p
  holder : ∀ p, s.holder = some (.push p) → Genuine payload n p
  next_le : s.queue.nextSeq.toNat ≤ n
  out : s.returned ++ s.queue.pending = inOrder payload s.queue.nextSeq.toNat

section

variable {payload : ℕ → Bytes} {n : ℕ} {s : System} {room : ℕ}

section

variable (h : Honest payload n s)
include h

theorem Honest.finish (result : PollResult) :
    Honest payload n (s.finish result) := ⟨h.heap, h.holder, h.next_le, h.out⟩

theorem Honest.fill (hn : n < 2 ^ 64) {queue : QueueState}
    (hfill : fillPending s.queue = (result, queue)) : Honest payload n { s with queue } := by
  have hfilled := fillPending_filled hn h.next_le h.heap
  rw [hfill] at hfilled
  exact ⟨fun p hp => h.heap p (hfilled.mem p hp), h.holder, hfilled.le_n,
    hfilled.moved s.returned h.out⟩

theorem Honest.serve (hn : n < 2 ^ 64) (room : ℕ) : Honest payload n (s.serve room) := by
  rcases hfill : fillPending s.queue with ⟨result, queue⟩
  have hqueue := h.fill hn hfill
  obtain ⟨-, heq⟩ | ⟨msg, -, heq⟩ | ⟨-, -, heq⟩ | ⟨-, -, -, heq⟩ | ⟨-, -, -, heq⟩ :=
    serve_cases hfill room
  · rw [heq]
    exact hqueue.finish _
  · rw [heq]
    exact hqueue.finish _
  · rw [heq]
    refine ⟨hqueue.heap, hqueue.holder, hqueue.next_le, ?_⟩
    have hout : s.returned ++ queue.pending = inOrder payload queue.nextSeq.toNat := hqueue.out
    show (s.returned ++ queue.pending.take _) ++ queue.pending.drop _ = _
    rw [append_assoc, take_append_drop]
    exact hout
  · rw [heq]
    exact hqueue.finish _
  · rw [heq]
    exact ⟨hqueue.heap, hqueue.holder, hqueue.next_le, hqueue.out⟩

theorem Honest.step (hn : n < 2 ^ 64) {e : Event}
    (he : e.Sends payload n) : Honest payload n (step s e) := by
  have hacts := step_acts s e
  generalize SplitHttp.step s e = s' at hacts
  cases hacts with
  | lock holder =>
    refine ⟨h.heap, fun p hp => ?_, h.next_le, h.out⟩
    obtain rfl := Option.some.inj hp
    exact he
  | push packet hholder =>
    refine ⟨fun p hp => ?_, by simp, h.next_le, h.out⟩
    obtain rfl | hp := mem_push.1 hp
    · exact h.holder p hholder
    · exact h.heap p hp
  | refuse | close => exact ⟨h.heap, by simp, h.next_le, h.out⟩
  | serve room => exact h.serve hn room
  | _ => exact ⟨h.heap, h.holder, h.next_le, h.out⟩

end

theorem honest_init (payload : ℕ → Bytes) (n maxBuffered : ℕ) :
    Honest payload n (.init maxBuffered) where
  heap := by simp [init, QueueState.new, empty]
  holder := by simp [init]
  next_le := Nat.zero_le n
  out := rfl

theorem Honest.returned_prefix (h : Honest payload n s) : s.returned <+: inOrder payload n := by
  have hout := prefix_append s.returned s.queue.pending
  rw [h.out] at hout
  exact hout.trans (inOrder_mono payload h.next_le)

theorem honest_run (hn : n < 2 ^ 64) (maxBuffered : ℕ) {es : List Event}
    (hsends : ∀ e ∈ es, e.Sends payload n) :
    Honest payload n (es.foldl step (.init maxBuffered)) := by
  induction es using List.reverseRecOn with
  | nil => exact honest_init payload n maxBuffered
  | append_singleton es e ih =>
    rw [foldl_append]
    have hes := ih fun e' he' => hsends e' (mem_append_left _ he')
    exact hes.step hn (hsends e (by simp))

/-! ### What the reader has returned when it waits -/

def Pc.tries : Pc → Bool
  | .tryFirst _ => true
  | .trySecond _ => true
  | _ => false

/-- The reader finds the lock free. -/
def Free (s : System) (e : Event) : Prop := e = .reader → s.pc.tries = true → s.holder = none

instance (s : System) (e : Event) : Decidable (Free s e) :=
  inferInstanceAs (Decidable (e = .reader → s.pc.tries = true → s.holder = none))

/-- The packets that wait fit the limit. -/
def WithinLimit (s : System) : Prop := s.queue.outOfOrder.length ≤ s.queue.maxBuffered

instance (s : System) : Decidable (WithinLimit s) :=
  inferInstanceAs (Decidable (s.queue.outOfOrder.length ≤ s.queue.maxBuffered))

/-- The reader waits for a notification, and there is none. -/
def Waits (s : System) : Prop := (∃ room, s.pc = .recv room) ∧ s.tokens = 0

/-- No packet is lost, and a reader that is about to wait has seen the packets of all pushes that
have returned. -/
structure Complete (s : System) : Prop where
  kept : ∀ p, p ∈ s.completed ∨ some p ∈ s.released →
    p.seq.toNat < s.queue.nextSeq.toNat ∨ ∃ q ∈ s.queue.heap.items, q.seq = p.seq
  drained : ∀ room, s.pc = .recv room → s.queue.pending = []
  seen : Waits s → ∀ p ∈ s.completed, p.seq.toNat ≠ s.queue.nextSeq.toNat
  alive : s.pc ≠ .panicked
  noError : ∀ e, s.last ≠ some (.error e)

theorem Complete.of_idle (hpc : s.pc = .idle) (hlast : ∀ e, s.last ≠ some (.error e))
    (hkept : ∀ p, p ∈ s.completed ∨ some p ∈ s.released →
      p.seq.toNat < s.queue.nextSeq.toNat ∨ ∃ q ∈ s.queue.heap.items, q.seq = p.seq) :
    Complete s where
  kept := hkept
  drained := by simp [hpc]
  seen := by simp [Waits, hpc]
  alive := by simp [hpc]
  noError := hlast

theorem Complete.serve (hn : n < 2 ^ 64) (hh : Honest payload n s) (h : Complete s)
    (hlimit : WithinLimit s) (room : ℕ) : Complete (s.serve room) := by
  rcases hfill : fillPending s.queue with ⟨result, queue⟩
  have hfilled := fillPending_filled hn hh.next_le hh.heap
  rw [hfill] at hfilled
  have hkeeps : ∀ msg, result ≠ .error (.other msg) := fun msg hres =>
    absurd (hfilled.exceeded msg hres) (not_lt.2 hlimit)
  have hkept : ∀ p, p ∈ s.completed ∨ some p ∈ s.released →
      p.seq.toNat < queue.nextSeq.toNat ∨ ∃ q ∈ queue.heap.items, q.seq = p.seq := by
    intro p hp
    obtain hlt | ⟨q, hq, hseq⟩ := h.kept p hp
    · exact .inl (hlt.trans_le hfilled.next_le)
    · rw [← hseq]
      exact (hfilled.kept hkeeps q hq).imp id fun hq => ⟨q, hq, rfl⟩
  obtain ⟨-, heq⟩ | ⟨msg, hres, -⟩ | ⟨-, -, heq⟩ | ⟨-, -, -, heq⟩ | ⟨hres, hnil, -, heq⟩ :=
    serve_cases hfill room
  on_goal 2 => exact absurd hres (hkeeps msg)
  all_goals rw [heq]
  iterate 3 exact .of_idle rfl (by simp [finish]) hkept
  · refine ⟨hkept, fun _ _ => hnil, fun _ p hp => ?_, Pc.noConfusion, h.noError⟩
    obtain hlt | ⟨q, hq, hseq⟩ := hkept p (.inl hp)
    · exact hlt.ne
    · rw [← hseq]
      exact (hfilled.above hres q hq).ne'

theorem Complete.step (hn : n < 2 ^ 64) (hh : Honest payload n s) (h : Complete s) {e : Event}
    (hfree : Free s e) (hlimit : WithinLimit s) : Complete (step s e) := by
  have hacts := step_acts s e
  generalize SplitHttp.step s e = s' at hacts
  cases hacts with
  | push packet =>
    refine ⟨fun p hp => ?_, h.drained, h.seen, h.alive, h.noError⟩
    obtain hp | rfl : (p ∈ s.completed ∨ some p ∈ s.released) ∨ p = packet := by
      simpa [or_assoc] using hp
    · refine (h.kept p hp).imp id ?_
      rintro ⟨q, hq, hseq⟩
      exact ⟨q, mem_push.2 (.inr hq), hseq⟩
    · exact .inr ⟨p, mem_push.2 (.inl rfl), rfl⟩
  | close =>
    refine ⟨fun p hp => h.kept p ?_, h.drained, h.seen, h.alive, h.noError⟩
    simpa using hp
  | bump i packet hmem =>
    refine ⟨fun p hp => h.kept p ?_, h.drained, by simp [Waits], h.alive, h.noError⟩
    obtain hp | hp := hp
    · obtain hp | hp := mem_append.1 hp
      · exact .inl hp
      · exact .inr (Option.mem_toList.1 hp ▸ hmem)
    · exact .inr (mem_of_mem_eraseIdx hp)
  | finish _ result hresult =>
    exact .of_idle rfl (fun err herr => hresult err (Option.some.inj herr)) h.kept
  | start | free | retry => exact ⟨h.kept, by simp, by simp [Waits], by simp, h.noError⟩
  | busy room hpc hheld | panic room hpc hheld => exact absurd (hfree rfl (by rw [hpc]; rfl)) hheld
  | serve room => exact h.serve hn hh hlimit room
  | _ => exact ⟨h.kept, h.drained, h.seen, h.alive, h.noError⟩

theorem complete_run (hn : n < 2 ^ 64) (hh : Honest payload n s) (h : Complete s)
    {es : List Event} (hsends : ∀ e ∈ es, e.Sends payload n)
    (hmeets : Run.Meets (fun s e => Free s e ∧ WithinLimit s) step s es) :
    Complete (es.foldl step s) := by
  induction es generalizing s with
  | nil => exact h
  | cons e es ih =>
    obtain ⟨he, hes⟩ := forall_mem_cons.1 hsends
    exact ih (hh.step hn he) (h.step hn hh hmeets.1.1 hmeets.1.2) hes hmeets.2

theorem complete_init (maxBuffered : ℕ) : Complete (.init maxBuffered) :=
  .of_idle rfl (by simp [init]) (by simp [init])

theorem returned_of_waits (hh : Honest payload n s) (h : Complete s) (hwaits : Waits s) {k : ℕ}
    (hk : ∀ i < k, ∃ p ∈ s.completed, p.seq.toNat = i) : inOrder payload k <+: s.returned := by
  have hle : k ≤ s.queue.nextSeq.toNat := by
    by_contra hlt
    obtain ⟨p, hp, hseq⟩ := hk _ (not_le.1 hlt)
    exact h.seen hwaits p hp hseq
  obtain ⟨room, hpc⟩ := hwaits.1
  have hout := hh.out
  rw [h.drained room hpc, append_nil] at hout
  rw [hout]
  exact inOrder_mono payload hle

/-! ### Reading on -/

structure Calm (payload : ℕ → Bytes) (n : ℕ) (s : System) : Prop where
  honest : Honest payload n s
  complete : Complete s
  holder : s.holder = none
  limit : WithinLimit s
  open' : s.queue.closed = false

theorem Calm.serve (hn : n < 2 ^ 64) (h : Calm payload n s) (hroom : 0 < room) :
    Calm payload n (s.serve room) ∧ (s.serve room).completed = s.completed ∧
      (((s.serve room).pc = .idle ∧
        ∃ bs, bs ≠ [] ∧ (s.serve room).returned = s.returned ++ bs) ∨
      ((s.serve room).pc = .recv room ∧ (s.serve room).tokens = s.tokens ∧
        (s.serve room).returned = s.returned)) := by
  have hhonest := h.honest.serve hn room
  have hcomplete := h.complete.serve hn h.honest h.limit room
  rcases hfill : fillPending s.queue with ⟨result, queue⟩
  have hfilled := fillPending_filled hn h.honest.next_le h.honest.heap
  rw [hfill] at hfilled
  have hkeeps : ∀ msg, result ≠ .error (.other msg) := fun msg hres =>
    absurd (hfilled.exceeded msg hres) (not_lt.2 h.limit)
  have hopen : queue.closed = false := hfilled.closed.trans h.open'
  have hlimit : queue.outOfOrder.length ≤ queue.maxBuffered := by
    rw [hfilled.outOfOrder hkeeps, hfilled.maxBuffered]
    exact h.limit
  obtain ⟨hres, -⟩ | ⟨msg, hres, -⟩ | ⟨-, hne, heq⟩ | ⟨-, -, hclosed, -⟩ | ⟨-, -, -, heq⟩ :=
    serve_cases hfill room
  · have := hfilled.eof hres
    rw [h.open'] at this
    cases this
  · exact absurd hres (hkeeps msg)
  · rw [heq] at hhonest hcomplete ⊢
    refine ⟨⟨hhonest, hcomplete, h.holder, hlimit, hopen⟩, rfl, .inl ⟨rfl, _, ?_, rfl⟩⟩
    have := length_pos_iff.2 hne
    rw [← length_pos_iff, length_take]
    omega
  · rw [hopen] at hclosed
    cases hclosed
  · rw [heq] at hhonest hcomplete ⊢
    exact ⟨⟨hhonest, hcomplete, h.holder, hlimit, hopen⟩, rfl, .inr ⟨rfl, rfl, rfl⟩⟩

theorem Calm.of_pc (h : Calm payload n s) {pc : Pc} {tokens : ℕ} (hpanic : pc ≠ .panicked)
    (hrecv : ∀ room, pc ≠ .recv room) : Calm payload n { s with pc, tokens } where
  honest := ⟨h.honest.heap, h.honest.holder, h.honest.next_le, h.honest.out⟩
  complete := ⟨h.complete.kept, fun room hpc => absurd hpc (hrecv room),
    fun hwaits => absurd hwaits.1.choose_spec (hrecv _), hpanic, h.complete.noError⟩
  holder := h.holder
  limit := h.limit
  open' := h.open'

def Reads (room : ℕ) (es : List Event) : Prop := ∀ e ∈ es, e = .poll room ∨ e = .reader

def PollEnds (payload : ℕ → Bytes) (n room : ℕ) (s : System) : Prop :=
  ∃ es, Reads room es ∧ Calm payload n (es.foldl step s) ∧ (es.foldl step s).pc = .idle ∧
    (es.foldl step s).completed = s.completed ∧
    ((∃ bs, bs ≠ [] ∧ (es.foldl step s).returned = s.returned ++ bs) ∨
      ∀ k, (∀ i < k, ∃ p ∈ s.completed, p.seq.toNat = i) →
        inOrder payload k <+: (es.foldl step s).returned)

theorem PollEnds.of_read (hcompleted : s.read.completed = s.completed)
    (hreturned : s.read.returned = s.returned) (h : PollEnds payload n room s.read) :
    PollEnds payload n room s := by
  obtain ⟨es, hreads, hcalm, hidle, hcompl, hend⟩ := h
  rw [hcompleted] at hcompl hend
  rw [hreturned] at hend
  exact ⟨.reader :: es, forall_mem_cons.2 ⟨.inr rfl, hreads⟩, hcalm, hidle, hcompl, hend⟩

section

variable (h : Calm payload n s)
include h

theorem Calm.pollEnds_of_recv (hpc : s.pc = .recv room)
    (hagain : ∀ s', Calm payload n s' → s'.pc = .tryFirst room → s'.tokens < s.tokens →
      PollEnds payload n room s') : PollEnds payload n room s := by
  cases htokens : s.tokens with
  | zero =>
    have hread : s.read = s.finish .pending := by simp [System.read, hpc, htokens]
    have hcalm : Calm payload n s.read := by
      rw [hread]
      exact ⟨h.honest.finish _, .of_idle rfl (by simp [System.finish]) h.complete.kept, h.holder,
        h.limit, h.open'⟩
    refine ⟨[.reader], by simp [Reads], hcalm, ?_, ?_, .inr fun k hk => ?_⟩
    · exact congrArg System.pc hread
    · show s.read.completed = s.completed
      rw [hread]
      rfl
    · show inOrder payload k <+: s.read.returned
      rw [hread]
      exact returned_of_waits h.honest h.complete ⟨⟨room, hpc⟩, htokens⟩ hk
  | succ tokens =>
    have hread : s.read = { s with tokens, pc := .tryFirst room } := by
      simp [System.read, hpc, htokens]
    refine .of_read (by rw [hread]) (by rw [hread]) ?_
    rw [hread]
    exact hagain _ (h.of_pc (by simp) (by simp)) rfl (htokens ▸ Nat.lt_succ_self tokens)

theorem Calm.poll_ends (hn : n < 2 ^ 64) (hroom : 0 < room)
    (hpc : s.pc = .tryFirst room) : PollEnds payload n room s := by
  induction htokens : s.tokens using Nat.strong_induction_on generalizing s with
  | _ tokens ih =>
    have hfirst : s.read = { s with pc := .trySecond room } := by simp [System.read, hpc, h.holder]
    refine .of_read (by rw [hfirst]) (by rw [hfirst]) ?_
    rw [hfirst]
    have hcalm : Calm payload n { s with pc := .trySecond room } := h.of_pc (by simp) (by simp)
    have hsecond : ({ s with pc := .trySecond room }).read =
        ({ s with pc := .trySecond room }).serve room := by
      simp [System.read, h.holder]
    obtain ⟨hserved, hcompleted, ⟨hidle, bs, hbs, hret⟩ | ⟨hrecv, htok, hret⟩⟩ :=
      hcalm.serve hn hroom
    · rw [← hsecond] at hserved hcompleted hidle hret
      exact ⟨[.reader], by simp [Reads], hserved, hidle, hcompleted, .inl ⟨bs, hbs, hret⟩⟩
    · rw [← hsecond] at hserved hcompleted hrecv hret htok
      refine .of_read hcompleted hret (hserved.pollEnds_of_recv hrecv fun s' hs' hpc' hlt => ?_)
      refine ih s'.tokens ?_ hs' hpc' rfl
      rw [htok] at hlt
      exact hlt.trans_eq htokens

/-- **Reading on.**  A reader that goes on reading, in calm, returns all that has arrived in
order. -/
theorem Calm.reads_all (hn : n < 2 ^ 64) (hroom : 0 < room) (hpc : s.pc = .idle) :
    ∃ es, Reads room es ∧ ∀ k, (∀ i < k, ∃ p ∈ s.completed, p.seq.toNat = i) →
      inOrder payload k <+: (es.foldl step s).returned := by
  -- each poll but the last returns something, and no more than the upload has is ever returned
  induction hleft : (inOrder payload n).length - s.returned.length using Nat.strong_induction_on
    generalizing s with
  | _ left ih =>
    have hpoll : step s (.poll room) = { s with pc := .tryFirst room } := by
      simp [step, hpc, hroom.ne']
    have hstart : Calm payload n { s with pc := .tryFirst room } := h.of_pc (by simp) (by simp)
    obtain ⟨es, hreads, hcalm, hidle, hcompleted, ⟨bs, hbs, hret⟩ | hall⟩ :=
      hstart.poll_ends hn hroom rfl
    · have hlen := congrArg List.length hret
      rw [length_append] at hlen
      change _ = s.returned.length + _ at hlen
      have hpos := length_pos_iff.2 hbs
      have hbound := hcalm.honest.returned_prefix.length_le
      obtain ⟨es', hreads', hall'⟩ := ih _ (by omega) hcalm hidle rfl
      refine ⟨.poll room :: (es ++ es'), ?_, fun k hk => ?_⟩
      · refine forall_mem_cons.2 ⟨.inl rfl, fun e he => ?_⟩
        exact (mem_append.1 he).elim (hreads e) (hreads' e)
      · rw [foldl_cons, hpoll, foldl_append]
        exact hall' k (by rw [hcompleted]; exact hk)
    · refine ⟨.poll room :: es, ?_, fun k hk => ?_⟩
      · exact forall_mem_cons.2 ⟨.inl rfl, hreads⟩
      · rw [foldl_cons, hpoll]
        exact hall k hk

end

/-- **The upload queue.**  For every upload, every order in which its packets arrive, however often
each, and every interleaving with the reader: what is returned is a prefix of the payloads in order.
If the reader never finds the lock taken and at most `maxBuffered` packets are out of order at any
time, then it does not fail, it has returned every packet that has arrived in order when it waits,
and reading on between calls returns all of them. -/
theorem uploadQueue_reads (hn : n < 2 ^ 64) (maxBuffered : ℕ) {es : List Event}
    (hsends : ∀ e ∈ es, e.Sends payload n) :
    (es.foldl step (.init maxBuffered)).returned <+: inOrder payload n ∧
    (Run.Meets (fun s e => Free s e ∧ WithinLimit s) step (.init maxBuffered) es →
      (es.foldl step (.init maxBuffered)).pc ≠ .panicked ∧
      (∀ e, (es.foldl step (.init maxBuffered)).last ≠ some (.error e)) ∧
      ∀ k, (∀ i < k, ∃ p ∈ (es.foldl step (.init maxBuffered)).completed, p.seq.toNat = i) →
        (Waits (es.foldl step (.init maxBuffered)) →
          inOrder payload k <+: (es.foldl step (.init maxBuffered)).returned) ∧
        ∀ room, 0 < room → (es.foldl step (.init maxBuffered)).pc = .idle →
          (es.foldl step (.init maxBuffered)).holder = none →
          (es.foldl step (.init maxBuffered)).queue.closed = false →
          WithinLimit (es.foldl step (.init maxBuffered)) →
          ∃ es', Reads room es' ∧
            inOrder payload k <+: ((es ++ es').foldl step (.init maxBuffered)).returned) := by
  have hhonest := honest_run hn maxBuffered hsends
  refine ⟨hhonest.returned_prefix, fun hmeets => ?_⟩
  have hcomplete := complete_run hn (honest_init payload n maxBuffered)
    (complete_init maxBuffered) hsends hmeets
  refine ⟨hcomplete.alive, hcomplete.noError, fun k hk => ⟨fun hwaits => ?_, ?_⟩⟩
  · exact returned_of_waits hhonest hcomplete hwaits hk
  · intro room hroom hpc hholder hopen hlimit
    have hcalm : Calm payload n _ := ⟨hhonest, hcomplete, hholder, hlimit, hopen⟩
    obtain ⟨es', hreads, hall⟩ := hcalm.reads_all hn hroom hpc
    rw [← foldl_append] at hall
    exact ⟨es', hreads, hall k hk⟩

end

/-! ### A lock that is taken -/

def firstPacket : UploadPacket := ⟨0, [65]⟩

def secondPacket : UploadPacket := ⟨1, [66]⟩

def samplePayload (i : ℕ) : Bytes := if i = 0 then [65] else [66]

def orderlyEvents : List Event :=
  [.lock (.push secondPacket), .release, .bump 0, .poll 1, .reader, .reader, .reader, .reader,
    .reader, .reader, .lock (.push firstPacket), .release, .bump 0, .poll 1, .reader, .reader]

theorem uploadQueue_reads_orderly :
    (orderlyEvents.foldl step (.init 1)).returned = [65] ∧
      ∃ es', Reads 1 es' ∧
        inOrder samplePayload 2 <+: ((orderlyEvents ++ es').foldl step (.init 1)).returned := by
  have hsends : ∀ e ∈ orderlyEvents, e.Sends samplePayload 2 := by
    simp [orderlyEvents, Event.Sends, Genuine, firstPacket, secondPacket, samplePayload]
  have hreads := (uploadQueue_reads (by decide) 1 hsends).2 (by decide +kernel)
  refine ⟨by decide +kernel, (hreads.2.2 2 ?_).2 1 one_pos ?_ ?_ ?_ ?_⟩ <;> decide +kernel

def contendedEvents : List Event :=
  [.lock (.push firstPacket), .release, .bump 0, .lock (.push secondPacket), .poll 1, .reader,
    .reader, .reader]

def racedEvents : List Event :=
  [.lock (.push firstPacket), .release, .bump 0, .poll 1, .reader, .lock (.push secondPacket),
    .reader]

theorem step_of_panicked {s : System} (h : s.pc = .panicked) (e : Event) :
    (step s e).pc = .panicked ∧ (step s e).returned = s.returned := by
  have hacts := step_acts s e
  generalize step s e = s' at hacts
  cases hacts with
  | finish _ _ _ hpc => exact absurd h hpc
  | start _ hpc | busy _ hpc | free _ hpc | panic _ hpc | serve _ hpc | retry _ _ hpc =>
    exact absurd (hpc.symm.trans h) (fun h => by cases h)
  | _ => exact ⟨h, rfl⟩

theorem returned_of_panicked {s : System} (h : s.pc = .panicked) (es : List Event) :
    (es.foldl step s).returned = s.returned := by
  induction es generalizing s with
  | nil => rfl
  | cons e es ih =>
    obtain ⟨hpc, hret⟩ := step_of_panicked h e
    exact (ih hpc).trans hret

/-- The reader waits although the push of the first packet has returned; and it dies, and never
returns the first packet, when the lock is taken between its two attempts. -/
theorem contended_reader :
    (Waits (contendedEvents.foldl step (.init 1)) ∧
      firstPacket ∈ (contendedEvents.foldl step (.init 1)).completed ∧
      (contendedEvents.foldl step (.init 1)).returned = []) ∧
    (firstPacket ∈ (racedEvents.foldl step (.init 1)).completed ∧
      (racedEvents.foldl step (.init 1)).pc = .panicked ∧
      ∀ es, ((racedEvents ++ es).foldl step (.init 1)).returned = []) := by
  refine ⟨⟨⟨⟨1, ?_⟩, ?_⟩, ?_, ?_⟩, ?_, ?_, fun es => ?_⟩
  iterate 6 decide +kernel
  rw [foldl_append, returned_of_panicked] <;> decide +kernel

end Blackwire.SplitHttp
