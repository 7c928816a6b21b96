import Blackwire.Vless.MuxRelay

/-!
# Isolation of the sessions of a Mux.Cool relay

A client may send a `New` frame for a session id that is still open.  The relay then replaces the
session in its map and leaves the old reader task running.
-/

namespace Blackwire.Vless.MuxRelay

open AsyncIO List Relay

variable {σ : Type} (sessionId : UInt16) (log : List Event) (s : Relay σ) (r : Reader)
  {rs : List Reader} {r' : Reader} {k : ℕ}

/-! ### What the client may see -/

def keepPayload (frame : Frame) : Option Bytes :=
  match frame.kind with
  | .keep id => if id = sessionId then frame.payload else none
  | .keepUdp id _ => if id = sessionId then frame.payload else none
  | _ => none

/-- How an event changes what is known of a session: the upstream of its latest `New`, and the
payloads of the `Keep` frames sent since. -/
def track (known : Option (ℕ × List Bytes)) : Event → Option (ℕ × List Bytes)
  | .opened id k => if id = sessionId then some (k, []) else known
  | .sent frame =>
    match keepPayload sessionId frame with
    | some payload => known.map fun (k, payloads) => (k, payloads ++ [payload])
    | none => known
  | _ => known

/-- The upstream of the latest `New` of a session, and the payloads of the `Keep` frames sent
since. -/
def current : Option (ℕ × List Bytes) :=
  log.foldl (track sessionId) none

def chunkOf (k : ℕ) : Event → Option Bytes
  | .read k' chunk => if k' = k then some chunk else none
  | _ => none

def reads (k : ℕ) (log : List Event) : List Bytes := log.filterMap (chunkOf k)

/-- Since its latest `New`, the client got of a session only chunks of the upstream which that
`New` opened: they are the first of those read from it, in order. -/
def KeepsFromLatest : Prop :=
  ∀ sessionId k payloads, current sessionId log = some (k, payloads) → payloads <+: reads k log

def OneReader (readers : List Reader) : Prop :=
  ∀ (k k' : ℕ) (r r' : Reader), readers[k]? = some r → readers[k']? = some r' → r.live → r'.live →
    r.sessionId = r'.sessionId → k = k'

/-- What a session gets is from its latest target, and it has one reader. -/
structure Isolated (s : Relay σ) : Prop where
  keepsFromLatest : KeepsFromLatest s.log
  oneReader : OneReader s.readers

/-- The condition on a step: a `New` is completed only when no reader of its session id is live. -/
def Exclusive (input : Input) : Prop :=
  ∀ answer sessionId target rest, input = .relay answer →
    s.phase = .running (.spawn sessionId target :: rest) →
    ∀ r ∈ s.readers, r.live → r.sessionId ≠ sessionId

/-! ### Growth of the log -/

theorem current_append (e : Event) :
    current sessionId (log ++ [e]) = track sessionId (current sessionId log) e := by
  rw [current, foldl_append]
  rfl

theorem reads_append (k : ℕ) (log : List Event) (e : Event) :
    reads k (log ++ [e]) = reads k log ++ (chunkOf k e).toList := by
  cases h : chunkOf k e <;> simp [reads, h]

structure QuietLog (log log' : List Event) : Prop where
  reads : ∀ k, reads k log' = reads k log
  current : ∀ sessionId, current sessionId log' = current sessionId log

theorem QuietLog.refl : QuietLog log log := ⟨fun _ => rfl, fun _ => rfl⟩

theorem QuietLog.append {e : Event} (log : List Event) (hchunk : ∀ k, chunkOf k e = none)
    (htrack : ∀ sessionId known, track sessionId known e = known) : QuietLog log (log ++ [e]) where
  reads k := by rw [reads_append, hchunk, Option.toList_none, append_nil]
  current sessionId := by rw [current_append, htrack]

/-! ### Quiet moves -/

def Reader.pending (r : Reader) : Option (List Bytes) :=
  match r.phase with
  | .lock => some []
  | .read => some []
  | .sendKeep _ chunk => some [chunk]
  | .writeKeep _ => some []
  | _ => none

structure Reader.Keeps (r r' : Reader) : Prop where
  sessionId : r'.sessionId = r.sessionId
  live : r'.live → r.live
  pending : ∀ held, r'.pending = some held → r.pending = some held

theorem Reader.Keeps.refl : r.Keeps r := ⟨rfl, id, fun _ => id⟩

theorem Reader.Keeps.trans {r₁ r₂ r₃ : Reader} (h : r₁.Keeps r₂) (h' : r₂.Keeps r₃) :
    r₁.Keeps r₃ where
  sessionId := h'.sessionId.trans h.sessionId
  live hlive := h.live (h'.live hlive)
  pending held hheld := h.pending held (h'.pending held hheld)

open Reader

structure QuietReaders (rs rs' : List Reader) : Prop where
  length : rs'.length = rs.length
  keeps : ∀ (k : ℕ) (r' : Reader), rs'[k]? = some r' → ∃ r, rs[k]? = some r ∧ Keeps r r'

theorem QuietReaders.refl (rs : List Reader) : QuietReaders rs rs :=
  ⟨rfl, fun _ r' h => ⟨r', h, .refl r'⟩⟩

theorem QuietReaders.trans {rs₁ rs₂ rs₃ : List Reader} (h : QuietReaders rs₁ rs₂)
    (h' : QuietReaders rs₂ rs₃) : QuietReaders rs₁ rs₃ where
  length := h'.length.trans h.length
  keeps k r₃ hr₃ := by
    obtain ⟨r₂, hr₂, hk₂⟩ := h'.keeps k r₃ hr₃
    obtain ⟨r₁, hr₁, hk₁⟩ := h.keeps k r₂ hr₂
    exact ⟨r₁, hr₁, hk₁.trans hk₂⟩

theorem getElem?_set_cases {j : ℕ} {x : Reader} (h : (rs.set k r')[j]? = some x) :
    (j = k ∧ x = r') ∨ (j ≠ k ∧ rs[j]? = some x) := by
  rw [List.getElem?_set] at h
  by_cases hj : k = j
  · split_ifs at h
    exact .inl ⟨hj.symm, (Option.some.inj h).symm⟩
  · rw [if_neg hj] at h
    exact .inr ⟨Ne.symm hj, h⟩

theorem getElem?_concat_cases {r x : Reader} (h : (rs ++ [r])[k]? = some x) :
    rs[k]? = some x ∨ (k = rs.length ∧ x = r) := by
  rw [List.getElem?_append] at h
  split_ifs at h with hlt
  · exact .inl h
  · rw [List.getElem?_singleton] at h
    split_ifs at h with heq
    exact .inr ⟨by omega, (Option.some.inj h).symm⟩

theorem QuietReaders.set {r : Reader} (hr : rs[k]? = some r) (h : r.Keeps r') :
    QuietReaders rs (rs.set k r') where
  length := length_set
  keeps j r₁ hr₁ := by
    obtain ⟨rfl, rfl⟩ | ⟨-, hr₁⟩ := getElem?_set_cases hr₁
    · exact ⟨r, hr, h⟩
    · exact ⟨r₁, hr₁, .refl r₁⟩

theorem QuietReaders.map {f : Reader → Reader} (h : ∀ r : Reader, r.Keeps (f r))
    (rs : List Reader) : QuietReaders rs (rs.map f) where
  length := length_map f
  keeps k r' hr' := by
    rw [List.getElem?_map, Option.map_eq_some_iff] at hr'
    obtain ⟨r, hr, rfl⟩ := hr'
    exact ⟨r, hr, h r⟩

theorem QuietReaders.modify {f : Reader → Reader} (h : ∀ r : Reader, r.Keeps (f r))
    (rs : List Reader) (k : ℕ) : QuietReaders rs (rs.modify k f) where
  length := length_modify ..
  keeps j r' hr' := by
    rw [List.getElem?_modify, Option.map_eq_map, Option.map_eq_some_iff] at hr'
    obtain ⟨r, hr, rfl⟩ := hr'
    refine ⟨r, hr, ?_⟩
    split_ifs
    · exact h r
    · exact .refl r

structure Quiet (s s' : Relay σ) : Prop where
  readers : QuietReaders s.readers s'.readers
  log : QuietLog s.log s'.log

theorem Quiet.refl : Quiet s s := ⟨.refl _, .refl _⟩

theorem Reader.keeps_aborted : r.Keeps { r with aborted := true } where
  sessionId := rfl
  live := by
    unfold live
    cases r.phase <;> simp +contextual
  pending _ h := h

theorem Reader.keeps_lock (lock : Option Holder) : r.Keeps { r with lock := lock } :=
  ⟨rfl, id, fun _ => id⟩

/-! ### Moves of the relay task -/

theorem Quiet.trans {s₁ s₂ s₃ : Relay σ} (h : Quiet s₁ s₂) (h' : Quiet s₂ s₃) : Quiet s₁ s₃ where
  readers := h.readers.trans h'.readers
  log := ⟨fun k => (h'.log.reads k).trans (h.log.reads k),
    fun sessionId => (h'.log.current sessionId).trans (h.log.current sessionId)⟩

theorem quiet_abort (k : ℕ) : Quiet s (s.abort k) :=
  ⟨.modify keeps_aborted _ _, .refl _⟩

theorem quiet_returned (result : Except ProxyError Unit) : Quiet s (s.returned result) := by
  refine ⟨.map (fun r => ?_) _, .refl _⟩
  split_ifs
  · exact r.keeps_lock none
  · exact .refl r

theorem quiet_foldl_abort (tasks : List ℕ) : Quiet s (tasks.foldl abort s) := by
  induction tasks generalizing s with
  | nil => exact .refl s
  | cons k tasks ih => exact (quiet_abort s k).trans (ih (s.abort k))

theorem quiet_finish : Quiet s s.finish :=
  (quiet_foldl_abort s _).trans (quiet_returned _ _)

theorem quiet_handleNew {s s' : Relay σ} {m : FrameMetadata} {payload : Option Bytes}
    {ops : List Op} (h : s.handleNew m payload = .ok (s', ops)) : Quiet s s' := by
  simp only [handleNew] at h
  split at h
  · obtain ⟨rfl, -⟩ := Prod.mk.inj (Except.ok.inj h)
    split
    · exact ⟨(quiet_abort s _).readers, .refl _⟩
    · exact .refl s
  · obtain ⟨rfl, -⟩ := Prod.mk.inj (Except.ok.inj h)
    exact .refl s
  · obtain ⟨rfl, -⟩ := Prod.mk.inj (Except.ok.inj h)
    exact .refl s
  · cases h

theorem quiet_handleFrame {s s' : Relay σ} {m : FrameMetadata} {payload : Option Bytes}
    {ops : List Op} (h : s.handleFrame m payload = .ok (s', ops)) : Quiet s s' := by
  unfold handleFrame at h
  split at h
  · exact quiet_handleNew h
  all_goals
    obtain ⟨rfl, -⟩ := Prod.mk.inj (Except.ok.inj h)
    exact .refl s

theorem quiet_nextFrame [AsyncRead σ] (s : Relay σ) : Quiet s s.nextFrame := by
  unfold nextFrame
  split
  · -- reading consumes the client's stream only
    have hclient : ∀ client, Quiet s { s with client := client } := fun _ => ⟨.refl _, .refl _⟩
    dsimp only
    split
    · split
      · rename_i hframe
        have hquiet := (hclient _).trans (quiet_handleFrame hframe)
        exact ⟨hquiet.readers, hquiet.log⟩
      · exact (hclient _).trans (quiet_returned _ _)
    · exact (hclient _).trans (quiet_returned _ _)
    · exact (hclient _).trans (quiet_finish _)
  · exact .refl s

theorem quiet_logWrite (op : IoOp) : Quiet s (s.logWrite op) := by
  have hwrote : ∀ k data, QuietLog s.log (s.log ++ [.wrote k data]) := fun k data =>
    .append _ (fun _ => rfl) fun _ _ => rfl
  cases op with
  | send k what data => exact ⟨.refl _, hwrote k data⟩
  | writeAll k data => exact ⟨.refl _, hwrote k data⟩
  | bind | connectOutbound | connectUdp | resolve | shutdown => exact .refl s

theorem quiet_exec (answer : Except Failure Unit) (rest : List Op) {op : Op}
    (h : ∀ sessionId target, op ≠ .spawn sessionId target) : Quiet s (s.exec answer rest op) := by
  cases op with
  | await op =>
    simp only [exec]
    split
    · exact ⟨(quiet_logWrite s op).readers, (quiet_logWrite s op).log⟩
    · exact quiet_returned _ _
  | attempt op =>
    simp only [exec]
    split
    · exact ⟨(quiet_logWrite s op).readers, (quiet_logWrite s op).log⟩
    · exact ⟨.refl _, .refl _⟩
  | lock k =>
    simp only [exec]
    split
    · rename_i r hr
      split_ifs
      · exact ⟨.set hr (r.keeps_lock _), .refl _⟩
      · exact .refl s
    · exact .refl s
  | unlock k => exact ⟨.modify (fun r => r.keeps_lock none) _ _, .refl _⟩
  | spawn sessionId target => exact absurd rfl (h sessionId target)
  | activate globalId => exact ⟨.refl _, .refl _⟩
  | endSession | endUdp =>
    simp only [exec]
    split
    · exact ⟨(quiet_abort s _).readers, .refl _⟩
    · exact ⟨.refl _, .refl _⟩
  | endXudp =>
    simp only [exec]
    split
    · split
      · exact ⟨(quiet_abort s _).readers, .refl _⟩
      · exact ⟨.refl _, .refl _⟩
    · exact ⟨.refl _, .refl _⟩

/-! ### Moves of a reader task -/

theorem Reader.live_of_running {r : Reader} (hrun : r.running = true) (hdone : r.phase ≠ .done) :
    r.live = true := by
  unfold live
  split
  · rename_i h
    exact absurd h hdone
  · rw [hrun, Bool.true_or]

inductive StepCase (s : Relay σ) (input : Input) (s' : Relay σ) : Prop
  | quiet (h : Quiet s s')
  | opened {answer : Except Failure Unit} {sessionId : UInt16} {target : Target} {rest : List Op}
      (hinput : input = .relay answer)
      (hphase : s.phase = .running (.spawn sessionId target :: rest))
      (hreaders : s'.readers = s.readers ++ [spawned sessionId target.readerKind])
      (hlog : s'.log = s.log ++ [.opened sessionId s.readers.length])
  | read {k : ℕ} {r r' : Reader} {chunk : Bytes} (hr : s.readers[k]? = some r) (hlive : r.live)
      (hpending : r.pending = some []) (hid : r'.sessionId = r.sessionId)
      (hpending' : ∀ held, r'.pending = some held → held = [chunk])
      (hreaders : s'.readers = s.readers.set k r') (hlog : s'.log = s.log ++ [.read k chunk])
  | sent {k : ℕ} {r r' : Reader} {frame : Frame} {chunk : Bytes} (hr : s.readers[k]? = some r)
      (hlive : r.live) (hpending : r.pending = some [chunk]) (hid : r'.sessionId = r.sessionId)
      (hpending' : ∀ held, r'.pending = some held → held = [])
      (hreaders : s'.readers = s.readers.set k r')
      (hframe : ∀ id, keepPayload id frame = if r.sessionId = id then some chunk else none)
      (hlog : s'.log = s.log ++ [.sent frame])

theorem keepPayload_keepFrame (peer : Address) (chunk : Bytes) (id : UInt16) :
    keepPayload id (r.keepFrame peer chunk) = if r.sessionId = id then some chunk else none := by
  unfold keepPayload keepFrame keepKind
  cases r.kind <;> rfl

section ReaderMoves

variable {s : Relay σ} {k : ℕ} {r : Reader} {input : Input}

section

variable (hr : s.readers[k]? = some r)
include hr

theorem quiet_setReader {phase : ReaderPhase} {lock : Option Holder}
    (hrun : r.running = true) (hdone : r.phase ≠ .done)
    (hpending : ∀ held, { r with phase := phase, lock := lock }.pending = some held →
      r.pending = some held) :
    Quiet s (s.setReader k { r with phase := phase, lock := lock }) :=
  ⟨.set hr ⟨rfl, fun _ => live_of_running hrun hdone, hpending⟩, .refl _⟩

theorem quiet_poll : Quiet s (s.poll k r) := by
  unfold poll
  split_ifs with hlive
  · exact ⟨.set hr ⟨rfl, fun _ => hlive, fun _ => id⟩, .refl _⟩
  · exact .refl s

theorem quiet_park : Quiet s (s.setReader k { r with running := false }) := by
  refine ⟨.set hr ⟨rfl, ?_, fun _ => id⟩, .refl _⟩
  unfold live
  cases r.phase <;> simp +contextual

theorem quiet_cancel : Quiet s (s.cancel k r) := by
  unfold cancel
  by_cases haborted : r.aborted ∧ ¬ r.running
  · rw [if_pos haborted]
    exact ⟨.set hr ⟨rfl, fun h => by simp [live] at h, fun _ h => by cases h⟩, .refl _⟩
  · rw [if_neg haborted]
    exact .refl s

section

variable (hrun : r.running = true)
include hrun

theorem locked_cases : StepCase s input (s.locked k r) := by
  unfold locked
  cases hphase : r.phase with
  | lock =>
    split_ifs
    · refine .quiet (quiet_setReader hr hrun (by simp [hphase]) fun held h => ?_)
      simpa [pending, hphase] using h
    · exact .quiet (.refl s)
  | sendKeep peer chunk =>
    have hlive := live_of_running hrun (by simp [hphase])
    simp only [beginWrite]
    split_ifs
    · split
      · rename_i bytes _
        have hid : sessionId { r with phase := .writeKeep bytes } = r.sessionId := rfl
        refine .sent hr hlive (by simp [pending, hphase]) hid ?_ rfl
          (keepPayload_keepFrame r peer chunk) rfl
        simp [pending, eq_comm]
      · exact .quiet (quiet_setReader hr hrun (by simp [hphase]) fun held h => by cases h)
    · exact .quiet (.refl s)
  | sendEnd =>
    simp only [beginWrite]
    split_ifs
    · split
      · rename_i bytes _
        have hquiet : Quiet s (s.setReader k { r with phase := .writeEnd bytes }) :=
          quiet_setReader hr hrun (by simp [hphase]) fun held h => by cases h
        exact .quiet ⟨hquiet.readers, .append _ (fun _ => rfl) fun _ _ => rfl⟩
      · exact .quiet (quiet_setReader hr hrun (by simp [hphase]) fun held h => by cases h)
    · exact .quiet (.refl s)
  | read | writeKeep | writeEnd | done => exact .quiet (.refl s)

theorem received_cases (peer : Address)
    (chunk : Bytes) : StepCase s input (s.received k r peer chunk) := by
  unfold received
  split
  · rename_i hphase
    have hdone : r.phase ≠ .done := by simp [hphase]
    by_cases hlen : chunk.length ≤ r.kind.bufLen
    · rw [if_pos hlen]
      by_cases hempty : chunk = []
      · have hquiet : Quiet s (s.setReader k
            { r with phase := r.afterRead peer chunk, lock := none }) := by
          refine quiet_setReader hr hrun hdone fun held h => ?_
          rw [afterRead, if_pos hempty] at h
          cases h
        exact .quiet ⟨hquiet.readers, by rw [if_pos hempty]; exact .refl _⟩
      · have hid : sessionId { r with phase := r.afterRead peer chunk, lock := none } =
            r.sessionId := rfl
        refine .read hr (live_of_running hrun hdone) (by simp [pending, hphase]) hid
          ?_ rfl (if_neg hempty)
        intro held h
        simp only [afterRead, if_neg hempty, pending] at h
        cases hencode : (r.keepKind peer).encode optData with
        | error e => simp [hencode] at h
        | ok metadata => simpa [hencode, eq_comm] using h
    · rw [if_neg hlen]
      exact .quiet (.refl s)
  · exact .quiet (.refl s)

theorem quiet_wrote {n : ℕ} {rest : Bytes} {next : Bytes → ReaderPhase} (hdone : r.phase ≠ .done)
    (hpending : ∀ rest held, { r with phase := next rest }.pending = some held →
      r.pending = some held) : Quiet s (s.wrote k n r rest next) := by
  unfold wrote
  split_ifs
  · have hquiet : Quiet s (s.setReader k { r with phase := next (rest.drop n) }) :=
      quiet_setReader hr hrun hdone (hpending _)
    exact ⟨hquiet.readers, .refl _⟩
  · exact .refl s

theorem quiet_endWrite {next : ReaderPhase} (hdone : r.phase ≠ .done)
    (hpending : ∀ held, { r with phase := next }.pending = some held → r.pending = some held) :
    Quiet s (s.endWrite k r next) := by
  have hquiet : Quiet s (s.setReader k { r with phase := next }) :=
    quiet_setReader hr hrun hdone hpending
  exact ⟨hquiet.readers, .refl _⟩

end

end

theorem Reader.pending_start {held : List Bytes}
    (h : { r with phase := r.kind.start }.pending = some held) : held = [] := by
  simp only [pending] at h
  cases hkind : r.kind <;> simpa [hkind, ReaderKind.start, eq_comm] using h

theorem readerStep_cases (hr : s.readers[k]? = some r) (i : ReaderInput) :
    StepCase s input (s.readerStep k r i) := by
  cases i with
  | poll => exact .quiet (quiet_poll hr)
  | park => exact .quiet (quiet_park hr)
  | cancel => exact .quiet (quiet_cancel hr)
  | locked =>
    simp only [readerStep]
    split_ifs with hrun
    · exact locked_cases hr hrun
    · exact .quiet (.refl s)
  | received peer chunk =>
    simp only [readerStep]
    split_ifs with hrun
    · exact received_cases hr hrun peer chunk
    · exact .quiet (.refl s)
  | wrote n =>
    simp only [readerStep]
    split
    · rename_i rest hrun hphase
      refine .quiet (quiet_wrote hr hrun (by simp [hphase]) fun rest' held h => ?_)
      simpa [pending, hphase] using h
    · rename_i rest hrun hphase
      exact .quiet (quiet_wrote hr hrun (by simp [hphase]) fun rest' held h => by cases h)
    · exact .quiet (.refl s)
  | flushed =>
    simp only [readerStep]
    split
    · rename_i hrun hphase
      refine .quiet (quiet_endWrite hr hrun (by simp [hphase]) fun held h => ?_)
      simp [pending, hphase, pending_start h]
    · rename_i hrun hphase
      exact .quiet (quiet_endWrite hr hrun (by simp [hphase]) fun held h => by cases h)
    · exact .quiet (.refl s)
  | writeFailed =>
    simp only [readerStep]
    split
    case h_3 => exact .quiet (.refl s)
    all_goals
      rename_i hrun hphase
      exact .quiet (quiet_endWrite hr hrun (by simp [hphase]) fun held h => by cases h)

end ReaderMoves

theorem step_cases [AsyncRead σ] (s : Relay σ) (input : Input) :
    StepCase s input (step s input) := by
  cases input with
  | frame => exact .quiet (quiet_nextFrame s)
  | relay answer =>
    simp only [step, nextOp]
    split
    · rename_i op rest hphase
      by_cases hspawn : ∃ sessionId target, op = .spawn sessionId target
      · obtain ⟨sessionId, target, rfl⟩ := hspawn
        exact .opened rfl hphase rfl rfl
      · exact .quiet (quiet_exec s answer rest fun sessionId target h =>
          hspawn ⟨sessionId, target, h⟩)
    · exact .quiet (.refl s)
  | reader k i =>
    simp only [step]
    split
    · rename_i r hr
      exact readerStep_cases hr i
    · exact .quiet (.refl s)

/-! ### The invariant -/

/-- What runs preserve: a live task in its loop belongs to the latest `New` of its session, and all
it has read is what the client got since that `New` and what the task still holds. -/
structure Inv (s : Relay σ) : Prop extends Isolated s where
  fresh : ∀ k, s.readers.length ≤ k → reads k s.log = []
  held : ∀ (k : ℕ) (r : Reader) (held : List Bytes), s.readers[k]? = some r → r.live →
    r.pending = some held → ∃ payloads, current r.sessionId s.log = some (k, payloads) ∧
      reads k s.log = payloads ++ held

theorem Inv.init (client : σ) : Inv (Relay.init client) where
  keepsFromLatest _ _ _ h := by cases h
  oneReader _ _ _ _ h := by simp [Relay.init] at h
  fresh _ _ := rfl
  held _ _ _ h := by simp [Relay.init] at h

theorem OneReader.of_keeps {rs' : List Reader} (h : OneReader rs)
    (hkeeps : ∀ (k : ℕ) (r' : Reader), rs'[k]? = some r' → ∃ r, rs[k]? = some r ∧
      r'.sessionId = r.sessionId ∧ (r'.live → r.live)) : OneReader rs' := by
  intro j k r₁ r₂ hj hk hlive₁ hlive₂ hid
  obtain ⟨r₁', hj', hid₁, hl₁⟩ := hkeeps j r₁ hj
  obtain ⟨r₂', hk', hid₂, hl₂⟩ := hkeeps k r₂ hk
  exact h j k r₁' r₂' hj' hk' (hl₁ hlive₁) (hl₂ hlive₂) (by rw [← hid₁, ← hid₂, hid])

section Preservation

variable {s s' : Relay σ} {r : Reader}

theorem OneReader.set (h : OneReader rs) (hr : rs[k]? = some r) (hlive : r.live)
    (hid : r'.sessionId = r.sessionId) : OneReader (rs.set k r') := by
  refine h.of_keeps fun j x hx => ?_
  obtain ⟨rfl, rfl⟩ | ⟨-, hx⟩ := getElem?_set_cases hx
  · exact ⟨r, hr, hid, fun _ => hlive⟩
  · exact ⟨x, hx, rfl, id⟩

theorem Inv.quiet (h : Inv s) (hq : Quiet s s') : Inv s' where
  keepsFromLatest sessionId k payloads hcur := by
    rw [hq.log.current] at hcur
    rw [hq.log.reads]
    exact h.keepsFromLatest sessionId k payloads hcur
  oneReader := h.oneReader.of_keeps fun k r' hr' => by
    obtain ⟨r, hr, hkeeps⟩ := hq.readers.keeps k r' hr'
    exact ⟨r, hr, hkeeps.sessionId, hkeeps.live⟩
  fresh k hk := by
    rw [hq.log.reads]
    exact h.fresh k (by rwa [hq.readers.length] at hk)
  held k r' held hr' hlive hpending := by
    obtain ⟨r, hr, hkeeps⟩ := hq.readers.keeps k r' hr'
    rw [hq.log.reads, hq.log.current, hkeeps.sessionId]
    exact h.held k r held hr (hkeeps.live hlive) (hkeeps.pending held hpending)

theorem Inv.opened (h : Inv s) {sessionId : UInt16} {kind : ReaderKind}
    (hnone : ∀ r ∈ s.readers, r.live → r.sessionId ≠ sessionId)
    (hreaders : s'.readers = s.readers ++ [spawned sessionId kind])
    (hlog : s'.log = s.log ++ [.opened sessionId s.readers.length]) : Inv s' := by
  have hreads : ∀ k, reads k s'.log = reads k s.log := fun k => by
    rw [hlog, reads_append]
    exact append_nil _
  have hcur : ∀ id, current id s'.log =
      if sessionId = id then some (s.readers.length, []) else current id s.log := fun id => by
    rw [hlog, current_append]
    rfl
  have hcases : ∀ (k : ℕ) (r : Reader), s'.readers[k]? = some r →
      s.readers[k]? = some r ∨ (k = s.readers.length ∧ r = spawned sessionId kind) :=
    fun k r hr => getElem?_concat_cases (hreaders ▸ hr)
  have hother : ∀ (k : ℕ) (r : Reader), s.readers[k]? = some r → r.live → r.sessionId ≠ sessionId :=
    fun k r hr => hnone r (mem_of_getElem? hr)
  refine { keepsFromLatest := ?_, oneReader := ?_, fresh := ?_, held := ?_ }
  · -- nothing has been sent of the new session yet
    intro id k payloads hk
    rw [hcur] at hk
    rw [hreads]
    split_ifs at hk
    · simp only [Option.some.injEq, Prod.mk.injEq] at hk
      rw [← hk.2]
      exact nil_prefix
    · exact h.keepsFromLatest id k payloads hk
  · -- the only place where the condition on the step is needed for the tasks
    intro j k r₁ r₂ hj hk hlive₁ hlive₂ hid
    rcases hcases j r₁ hj with hj | ⟨rfl, rfl⟩ <;> rcases hcases k r₂ hk with hk | ⟨rfl, rfl⟩
    · exact h.oneReader j k r₁ r₂ hj hk hlive₁ hlive₂ hid
    · exact absurd hid (hother j r₁ hj hlive₁)
    · exact absurd hid.symm (hother k r₂ hk hlive₂)
    · rfl
  · intro k hk
    rw [hreads]
    rw [hreaders, length_append] at hk
    exact h.fresh k (by omega)
  · intro k r held hr hlive hpending
    rw [hreads, hcur]
    rcases hcases k r hr with hr | ⟨rfl, rfl⟩
    · -- an older live task serves another session, whose latest `New` is still the same
      rw [if_neg (Ne.symm (hother k r hr hlive))]
      exact h.held k r held hr hlive hpending
    · obtain rfl := pending_start (r := spawned sessionId kind) hpending
      exact ⟨[], if_pos rfl, h.fresh _ le_rfl⟩

theorem Inv.read (h : Inv s) {chunk : Bytes} (hr : s.readers[k]? = some r) (hlive : r.live)
    (hpending : r.pending = some []) (hid : r'.sessionId = r.sessionId)
    (hpending' : ∀ held, r'.pending = some held → held = [chunk])
    (hreaders : s'.readers = s.readers.set k r') (hlog : s'.log = s.log ++ [.read k chunk]) :
    Inv s' := by
  have hcur : ∀ id, current id s'.log = current id s.log := fun id => by
    rw [hlog, current_append]
    rfl
  have hreads : ∀ j, reads j s'.log = reads j s.log ++ if k = j then [chunk] else [] := fun j => by
    rw [hlog, reads_append, chunkOf]
    split_ifs <;> rfl
  refine { keepsFromLatest := ?_, oneReader := ?_, fresh := ?_, held := ?_ }
  · -- a chunk that was read and not sent only lengthens what the payloads are the beginning of
    intro id j payloads hj
    rw [hcur] at hj
    rw [hreads]
    exact (h.keepsFromLatest id j payloads hj).trans (prefix_append _ _)
  · rw [hreaders]
    exact h.oneReader.set hr hlive hid
  · intro j hj
    rw [hreaders, length_set] at hj
    have hk : k < s.readers.length := (List.getElem?_eq_some_iff.1 hr).1
    rw [hreads, if_neg (by omega), h.fresh j hj, append_nil]
  · intro j x held hx hxlive hxpending
    rw [hreaders] at hx
    rw [hcur, hreads]
    obtain ⟨rfl, rfl⟩ | ⟨hne, hx⟩ := getElem?_set_cases hx
    · obtain ⟨payloads, hcurrent, hall⟩ := h.held j r [] hr hlive hpending
      obtain rfl := hpending' held hxpending
      refine ⟨payloads, by rw [hid, hcurrent], ?_⟩
      rw [hall, append_nil, if_pos rfl]
    · rw [if_neg (Ne.symm hne), append_nil]
      exact h.held j x held hx hxlive hxpending

theorem Inv.sent (h : Inv s) {frame : Frame} {chunk : Bytes} (hr : s.readers[k]? = some r)
    (hlive : r.live) (hpending : r.pending = some [chunk]) (hid : r'.sessionId = r.sessionId)
    (hpending' : ∀ held, r'.pending = some held → held = [])
    (hreaders : s'.readers = s.readers.set k r')
    (hframe : ∀ id, keepPayload id frame = if r.sessionId = id then some chunk else none)
    (hlog : s'.log = s.log ++ [.sent frame]) : Inv s' := by
  obtain ⟨payloads, hcurrent, hall⟩ := h.held k r [chunk] hr hlive hpending
  have hreads : ∀ j, reads j s'.log = reads j s.log := fun j => by
    rw [hlog, reads_append]
    exact append_nil _
  have hown : current r.sessionId s'.log = some (k, payloads ++ [chunk]) := by
    rw [hlog, current_append, track, hframe, if_pos rfl, hcurrent]
    rfl
  have hother : ∀ id, r.sessionId ≠ id → current id s'.log = current id s.log := by
    intro id hne
    rw [hlog, current_append, track, hframe, if_neg hne]
  refine { keepsFromLatest := ?_, oneReader := ?_, fresh := ?_, held := ?_ }
  · intro id j sent hj
    rw [hreads]
    by_cases hsame : r.sessionId = id
    · subst hsame
      rw [hown] at hj
      obtain ⟨rfl, rfl⟩ := hj
      rw [hall]
    · rw [hother id hsame] at hj
      exact h.keepsFromLatest id j sent hj
  · rw [hreaders]
    exact h.oneReader.set hr hlive hid
  · intro j hj
    rw [hreaders, length_set] at hj
    rw [hreads, h.fresh j hj]
  · intro j x held hx hxlive hxpending
    rw [hreaders] at hx
    rw [hreads]
    obtain ⟨rfl, rfl⟩ | ⟨hne, hx⟩ := getElem?_set_cases hx
    · obtain rfl := hpending' held hxpending
      exact ⟨payloads ++ [chunk], by rw [hid, hown], by rw [hall, append_nil]⟩
    · -- another live task serves another session
      have hsame : r.sessionId ≠ x.sessionId := fun heq =>
        hne (h.oneReader j k x r hx hr hxlive hlive heq.symm)
      rw [hother x.sessionId hsame]
      exact h.held j x held hx hxlive hxpending

theorem Inv.step [AsyncRead σ] {input : Input} (h : Inv s) (hok : Exclusive s input) :
    Inv (step s input) := by
  cases step_cases s input with
  | quiet hq => exact h.quiet hq
  | opened hinput hphase hreaders hlog => exact h.opened (hok _ _ _ _ hinput hphase) hreaders hlog
  | read hr hlive hpending hid hpending' hreaders hlog =>
    exact h.read hr hlive hpending hid hpending' hreaders hlog
  | sent hr hlive hpending hid hpending' hreaders hframe hlog =>
    exact h.sent hr hlive hpending hid hpending' hreaders hframe hlog

theorem exclusive_of_isolated [AsyncRead σ] (s : Relay σ) (input : Input)
    (h : Isolated (MuxRelay.step s input)) : Exclusive s input := by
  rintro answer sessionId target rest rfl hphase r hr hlive rfl
  have hreaders : (MuxRelay.step s (.relay answer)).readers =
      s.readers ++ [spawned r.sessionId target.readerKind] := by
    simp only [MuxRelay.step, nextOp, hphase]
    rfl
  obtain ⟨k, hk⟩ := mem_iff_getElem?.1 hr
  have hlt : k < s.readers.length := (List.getElem?_eq_some_iff.1 hk).1
  have hnew : (spawned r.sessionId target.readerKind).live := by cases target <;> rfl
  have heq := h.oneReader k s.readers.length r (spawned r.sessionId target.readerKind)
    (by rw [hreaders, List.getElem?_append_left hlt, hk])
    (by rw [hreaders, List.getElem?_concat_length]) hlive hnew rfl
  omega

end Preservation

/-- **Isolation.**  Along a run the sessions stay isolated, at each of its moments, exactly when
each `New` is completed while no reader of its session id is live. -/
theorem isolated_iff [AsyncRead σ] (client : σ) (inputs : List Input) :
    (∀ done, done <+: inputs → Isolated (done.foldl step (init client))) ↔
      Run.Meets Exclusive step (init client) inputs := by
  constructor
  · intro h
    exact Run.meets_of_forall exclusive_of_isolated h
  · rintro h done ⟨later, rfl⟩
    have hinv := Run.invariant_of_meets (fun s i hs hok => Inv.step hs hok) (Inv.init client)
      h.of_append
    exact hinv.toIsolated

def newFrame : Segment := ⟨[0, 12, 0, 1, 1, 0, 1, 0, 80, 1, 10, 0, 0, 1], by simp⟩

def reopened : List Input :=
  [.frame, .relay (.ok ()), .relay (.ok ()),
    .reader 0 .poll, .reader 0 .locked, .reader 0 (.received (.domain "" 0) [111]),
    .frame, .relay (.ok ()), .relay (.ok ()),
    .reader 0 .locked]

theorem reopened_not_isolated :
    let s := reopened.foldl step (init (Source.ofSegments [newFrame, newFrame]))
    ¬ KeepsFromLatest s.log ∧ ¬ OneReader s.readers := by
  intro s
  have hcurrent : current 1 s.log = some (1, [[111]]) := by decide +kernel
  have hreads : reads 1 s.log = [] := by decide +kernel
  have hreaders : s.readers.map (fun r => (r.sessionId, r.live)) = [(1, true), (1, true)] := by
    decide +kernel
  constructor
  · intro h
    have hsent := h 1 1 [[111]] hcurrent
    rw [hreads] at hsent
    simp at hsent
  · intro h
    match hs : s.readers with
    | [] | [r] => simp [hs] at hreaders
    | r :: r' :: rs =>
      rw [hs] at hreaders h
      simp only [map_cons, List.cons.injEq, Prod.mk.injEq] at hreaders
      obtain ⟨⟨hid, hlive⟩, ⟨hid', hlive'⟩, -⟩ := hreaders
      have heq := h 0 1 r r' rfl rfl hlive hlive' (hid.trans hid'.symm)
      cases heq

end Blackwire.Vless.MuxRelay
