import Blackwire.Lib.Bytes
import Blackwire.Lib.Run

/-!
# Writing to a WebSocket

The writing side of `WsStream` in `ws.rs`.  Bytes are held in three places: in a buffer where small
writes are collected, in a message that is staged until the sink below is ready, and in the sink.
-/

namespace Blackwire.Ws

open List

/-! ### The sink -/

inductive SinkError
  | io
  | connectionClosed
  | alreadyClosed
  | other (msg : String)
  deriving DecidableEq

inductive IoError
  | inner
  | connectionAborted (msg : String)
  | other (msg : String)
  deriving DecidableEq

def wsErrToIo : SinkError → IoError
  | .io => .inner
  | .connectionClosed => .connectionAborted "WebSocket closed"
  | .alreadyClosed => .connectionAborted "WebSocket closed"
  | .other msg => .other msg

inductive Answer
  | pending
  | ready
  | failed (e : SinkError)
  deriving DecidableEq

def Answer.isFailed : Answer → Bool
  | .failed _ => true
  | _ => false

/-- What the sink answers during one poll of the stream, which makes each call at most once. -/
structure Answers where
  ready : Answer
  startSend : Option SinkError
  flush : Answer
  close : Answer

def Answers.Healthy (answers : Answers) : Prop :=
  answers.ready.isFailed = false ∧ answers.startSend = none ∧ answers.flush.isFailed = false ∧
    answers.close.isFailed = false

instance Answers.Healthy.decidable (answers : Answers) : Decidable answers.Healthy :=
  inferInstanceAs (Decidable (_ ∧ _ ∧ _ ∧ _))

variable {answers : Answers}

theorem Answers.Healthy.ready_ne (h : answers.Healthy) (e : SinkError) :
    answers.ready ≠ .failed e := by
  intro he
  have hready := h.1
  rw [he] at hready
  cases hready

/-- What the sink has got: the binary messages, and whether the close handshake was started. -/
structure Sink where
  messages : List Bytes
  closing : Bool

/-! ### The stream -/

def wsWriteBufferSize : ℕ := 4 * 1024

def wsDirectFrameMinSize : ℕ := 16 * 1024

structure WsStream where
  inner : Sink
  writeBuf : Bytes
  pendingWrite : Option Bytes

inductive Poll (α : Type)
  | pending
  | ready (a : α)
  | error (e : IoError)
  deriving DecidableEq

namespace WsStream

def new : WsStream := ⟨⟨[], false⟩, [], none⟩

def startSend (msg : Bytes) (ws : WsStream) : WsStream :=
  { ws with inner := { ws.inner with messages := ws.inner.messages ++ [msg] } }

variable (answers : Answers) (ws : WsStream) (buf : Bytes)

def flushSink : Poll Unit × WsStream :=
  match answers.flush with
  | .pending => (.pending, ws)
  | .ready => (.ready (), ws)
  | .failed e => (.error (wsErrToIo e), ws)

/-- The first step of `poll_flush`: the buffer becomes the staged message, if there is none. -/
def stage : WsStream :=
  if ws.pendingWrite = none ∧ ws.writeBuf ≠ [] then
    { ws with writeBuf := [], pendingWrite := some ws.writeBuf }
  else ws

def pollFlush : Poll Unit × WsStream :=
  let ws := ws.stage
  match ws.pendingWrite with
  | none => ws.flushSink answers
  | some msg =>
    match answers.ready with
    | .pending => (.pending, ws)
    -- the staged message was taken out before
    | .failed e => (.error (wsErrToIo e), { ws with pendingWrite := none })
    | .ready =>
      match answers.startSend with
      | some e => (.error (wsErrToIo e), { ws with pendingWrite := none })
      | none => ({ ws with pendingWrite := none }.startSend msg).flushSink answers

def Direct : Prop :=
  ws.writeBuf = [] ∧ ws.pendingWrite = none ∧ wsDirectFrameMinSize ≤ buf.length

instance Direct.decidable : Decidable (ws.Direct buf) :=
  inferInstanceAs (Decidable (_ ∧ _ ∧ _))

def bufferWrite (ws : WsStream) : Poll ℕ × WsStream :=
  let n := min buf.length (wsWriteBufferSize - ws.writeBuf.length)
  (.ready n, { ws with writeBuf := ws.writeBuf ++ buf.take n })

def pollWrite (ws : WsStream) : Poll ℕ × WsStream :=
  if ws.Direct buf then
    match answers.ready with
    | .pending => (.pending, ws)
    | .failed e => (.error (wsErrToIo e), ws)
    | .ready =>
      match answers.startSend with
      | some e => (.error (wsErrToIo e), ws)
      | none => (.ready buf.length, ws.startSend buf)
  else if wsWriteBufferSize ≤ ws.writeBuf.length then
    match ws.pollFlush answers with
    | (.ready (), ws) => ws.bufferWrite buf
    | (.error e, ws) => (.error e, ws)
    | (.pending, ws) => (.pending, ws)
  else ws.bufferWrite buf

def closeSink : Poll Unit × WsStream :=
  let ws := { ws with inner := { ws.inner with closing := true } }
  match answers.close with
  | .pending => (.pending, ws)
  | .ready => (.ready (), ws)
  | .failed e => (.error (wsErrToIo e), ws)

def pollShutdown : Poll Unit × WsStream :=
  match ws.pollFlush answers with
  | (.pending, ws) => (.pending, ws)
  | (.error e, ws) => (.error e, ws)
  | (.ready (), ws) => ws.closeSink answers

def handed : Bytes := ws.inner.messages.flatten

end WsStream

/-! ### Runs -/

inductive Op
  | write (buf : Bytes)
  | flush
  | shutdown

structure Event where
  op : Op
  sink : Answers

structure System where
  ws : WsStream
  accepted : Bytes

variable (s : System) (e : Event)

def System.start : System := ⟨.new, []⟩

def taken (buf : Bytes) : Poll ℕ → Bytes
  | .ready n => buf.take n
  | _ => []

def step : System :=
  match e.op with
  | .write buf =>
    let (answer, ws) := s.ws.pollWrite e.sink buf
    ⟨ws, s.accepted ++ taken buf answer⟩
  | .flush => { s with ws := (s.ws.pollFlush e.sink).2 }
  | .shutdown => { s with ws := (s.ws.pollShutdown e.sink).2 }

def Flushes : Prop :=
  match e.op with
  | .write buf => ¬ s.ws.Direct buf ∧ wsWriteBufferSize ≤ s.ws.writeBuf.length
  | .flush => True
  | .shutdown => True

instance Flushes.decidable : Decidable (Flushes s e) := by
  unfold Flushes
  split <;> infer_instance

/-- What a poll promises: when its `poll_flush` reports success, everything accepted so far is
handed over, and so it is when the poll starts the close handshake. -/
structure HandsOver (s : System) (e : Event) : Prop where
  flush : Flushes s e → (s.ws.pollFlush e.sink).1 = .ready () →
    (s.ws.pollFlush e.sink).2.handed = s.accepted
  close : s.ws.inner.closing = false → (step s e).ws.inner.closing = true →
    (step s e).ws.handed = (step s e).accepted

/-- A flush hands the buffer over before the frame that is pending. -/
def Overtakes : Prop :=
  Flushes s e ∧ s.ws.pendingWrite ≠ none ∧ s.ws.writeBuf ≠ [] ∧
    e.sink.ready = .ready ∧ e.sink.flush = .ready

instance Overtakes.decidable : Decidable (Overtakes s e) :=
  inferInstanceAs (Decidable (_ ∧ _ ∧ _ ∧ _ ∧ _))

/-! ### What a flush does -/

variable {ws : WsStream} {result : Poll Unit × WsStream}

namespace WsStream

def held (ws : WsStream) : Bytes := ws.pendingWrite.getD [] ++ ws.writeBuf

theorem handed_startSend (msg : Bytes) (ws : WsStream) :
    (ws.startSend msg).handed = ws.handed ++ msg := by
  simp [startSend, handed]

theorem held_stage (ws : WsStream) : ws.stage.held = ws.held := by
  unfold stage
  split_ifs with h
  · simp [held, h.1]
  · rfl

theorem inner_stage (ws : WsStream) : ws.stage.inner = ws.inner := by
  unfold stage
  split_ifs <;> rfl

theorem flushSink_snd (answers : Answers) (ws : WsStream) : (ws.flushSink answers).2 = ws := by
  unfold flushSink
  split <;> rfl

theorem flushSink_ready_iff (answers : Answers) (ws : WsStream) :
    (ws.flushSink answers).1 = .ready () ↔ answers.flush = .ready := by
  unfold flushSink
  split <;> simp [*]

/-- What `poll_flush` does with a sink that does not fail: there is nothing to send, or the message
stays staged, or it is sent. -/
inductive Flushed (answers : Answers) (ws : WsStream) : Poll Unit × WsStream → Prop
  | idle (hpending : ws.pendingWrite = none) (hbuf : ws.writeBuf = []) :
    Flushed answers ws (ws.flushSink answers)
  | blocked (hready : answers.ready = .pending) : Flushed answers ws (.pending, ws.stage)
  | sent (msg : Bytes) (hmsg : ws.stage.pendingWrite = some msg) (hready : answers.ready = .ready) :
    Flushed answers ws
      (({ ws.stage with pendingWrite := none }.startSend msg).flushSink answers)

theorem pollFlush_flushed (h : answers.Healthy) (ws : WsStream) :
    Flushed answers ws (ws.pollFlush answers) := by
  simp only [pollFlush]
  cases hmsg : ws.stage.pendingWrite with
  | none =>
    -- then the buffer was not staged, because it is empty
    have hidle : ws.pendingWrite = none ∧ ws.writeBuf = [] := by
      unfold stage at hmsg
      split_ifs at hmsg with hstage
      exact ⟨hmsg, by_contra fun hbuf => hstage ⟨hmsg, hbuf⟩⟩
    have hstage : ws.stage = ws := by
      unfold stage
      rw [if_neg (by simp [hidle.2])]
    simp only [hstage]
    exact .idle hidle.1 hidle.2
  | some msg =>
    cases hready : answers.ready with
    | pending => exact .blocked hready
    | failed e => exact absurd hready (h.ready_ne e)
    | ready =>
      simp only [h.2.1]
      exact .sent msg hmsg hready

section

variable (h : Flushed answers ws result)
include h

theorem Flushed.handed_held : result.2.handed ++ result.2.held = ws.handed ++ ws.held := by
  cases h with
  | idle => rw [flushSink_snd]
  | blocked =>
    rw [held_stage, handed, inner_stage]
    rfl
  | sent msg hmsg =>
    have hheld : ws.held = msg ++ ws.stage.writeBuf := by rw [← held_stage, held, hmsg]; rfl
    rw [flushSink_snd, handed_startSend, hheld, append_assoc]
    rw [handed, inner_stage]
    rfl

theorem Flushed.closing : result.2.inner.closing = ws.inner.closing := by
  cases h with
  | idle => rw [flushSink_snd]
  | blocked => rw [inner_stage]
  | sent msg hmsg =>
    rw [flushSink_snd]
    show ws.stage.inner.closing = _
    rw [inner_stage]

/-- **What a flush that reports success leaves behind**: the bytes that stood behind a staged
message. -/
theorem Flushed.held_of_ready (hready : result.1 = .ready ()) :
    result.2.held = if ws.pendingWrite = none then [] else ws.writeBuf := by
  cases h with
  | idle hpending hbuf => rw [flushSink_snd, held, hpending, hbuf]; rfl
  | blocked => cases hready
  | sent msg hmsg =>
    rw [flushSink_snd]
    unfold stage at hmsg ⊢
    split_ifs with hstage hpending hpending
    · rfl
    · exact absurd hstage.1 hpending
    · rw [if_neg hstage, hpending] at hmsg
      cases hmsg
    · rfl

theorem Flushed.ready_iff (hpending : ws.pendingWrite ≠ none) :
    result.1 = .ready () ↔ answers.ready = .ready ∧ answers.flush = .ready := by
  cases h with
  | idle hnone => exact absurd hnone hpending
  | blocked hblocked => simp [hblocked]
  | sent msg hmsg hready => rw [flushSink_ready_iff, hready]; simp

end

end WsStream

/-! ### The books of the stream -/

def Accounts : Prop := s.accepted = s.ws.handed ++ s.ws.held

def AccountsFor (buf : Bytes) (result : Poll ℕ × WsStream) : Prop :=
  Accounts ⟨result.2, s.accepted ++ taken buf result.1⟩

variable {s : System} (events : List Event)

theorem Accounts.bufferWrite (h : Accounts s) (buf : Bytes) :
    AccountsFor s buf (s.ws.bufferWrite buf) := by
  unfold AccountsFor Accounts
  rw [h]
  simp [WsStream.bufferWrite, WsStream.held, WsStream.handed, taken]

open WsStream

theorem Accounts.accountsFor {answer : Poll ℕ} (buf : Bytes) (h : Accounts { s with ws })
    (hanswer : ∀ n, answer ≠ .ready n) : AccountsFor s buf (answer, ws) := by
  cases answer with
  | ready n => exact absurd rfl (hanswer n)
  | pending | error => simpa [AccountsFor, taken] using h

section

variable (h : Accounts s)
include h

section

variable (hsink : answers.Healthy)
include hsink

theorem Accounts.pollFlush : Accounts { s with ws := (s.ws.pollFlush answers).2 } := by
  unfold Accounts at h ⊢
  rw [(pollFlush_flushed hsink s.ws).handed_held, h]

theorem Accounts.pollWrite (buf : Bytes) : AccountsFor s buf (s.ws.pollWrite answers buf) := by
  unfold WsStream.pollWrite
  by_cases hdirect : s.ws.Direct buf
  · rw [if_pos hdirect]
    cases hready : answers.ready with
    | pending => exact h.accountsFor buf (by simp)
    | failed e => exact absurd hready (hsink.ready_ne e)
    | ready =>
      simp only [hsink.2.1]
      unfold AccountsFor Accounts
      rw [h, WsStream.handed_startSend]
      simp [taken, WsStream.held, WsStream.startSend, hdirect.1, hdirect.2.1]
  rw [if_neg hdirect]
  by_cases hfull : wsWriteBufferSize ≤ s.ws.writeBuf.length
  · rw [if_pos hfull]
    have hflush := h.pollFlush hsink
    rcases hresult : s.ws.pollFlush answers with ⟨answer, ws⟩
    rw [hresult] at hflush
    cases answer with
    | ready => exact hflush.bufferWrite buf
    | error | pending => exact hflush.accountsFor buf (by simp)
  · rw [if_neg hfull]
    exact h.bufferWrite buf

theorem Accounts.pollShutdown : Accounts { s with ws := (s.ws.pollShutdown answers).2 } := by
  have hflush := h.pollFlush hsink
  unfold WsStream.pollShutdown
  rcases hresult : s.ws.pollFlush answers with ⟨answer, ws⟩
  rw [hresult] at hflush
  cases answer with
  | pending | error => exact hflush
  | ready =>
    simp only [WsStream.closeSink]
    split <;> exact hflush

end

theorem Accounts.step {e : Event} (hsink : e.sink.Healthy) : Accounts (step s e) := by
  unfold Ws.step
  split
  · exact h.pollWrite hsink _
  · exact h.pollFlush hsink
  · exact h.pollShutdown hsink

end

theorem accounts_start : Accounts .start := rfl

/-! ### When a poll keeps its promise -/

theorem handed_pollFlush_iff (hsink : answers.Healthy) (h : Accounts s)
    (hready : (s.ws.pollFlush answers).1 = .ready ()) :
    (s.ws.pollFlush answers).2.handed = s.accepted ↔
      s.ws.pendingWrite = none ∨ s.ws.writeBuf = [] := by
  have hflushed := pollFlush_flushed hsink s.ws
  have hbooks : s.accepted = _ := h.pollFlush hsink
  have hheld := hflushed.held_of_ready hready
  rw [hbooks]
  rw [hheld]
  split_ifs with hpending <;> simp [hpending]

theorem closing_step {e : Event} (hsink : e.sink.Healthy) (hopen : s.ws.inner.closing = false)
    (hclosing : (step s e).ws.inner.closing = true) :
    e.op = .shutdown ∧ (s.ws.pollFlush e.sink).1 = .ready () ∧
      (step s e).ws.handed = (s.ws.pollFlush e.sink).2.handed := by
  have hflush := (pollFlush_flushed hsink s.ws).closing
  rcases hresult : s.ws.pollFlush e.sink with ⟨answer, ws⟩
  rw [hresult] at hflush
  have hsame : ws.inner.closing = false := hflush.trans hopen
  unfold step at hclosing ⊢
  cases hop : e.op with
  | write buf =>
    simp only [hop, pollWrite] at hclosing
    split_ifs at hclosing with hdirect hfull
    · cases hready : e.sink.ready with
      | pending => simp [hready, hopen] at hclosing
      | failed err => exact absurd hready (hsink.ready_ne err)
      | ready => simp [hready, hsink.2.1, startSend, hopen] at hclosing
    · rw [hresult] at hclosing
      cases answer with
      | ready => simp [bufferWrite, hsame] at hclosing
      | error | pending => simp [hsame] at hclosing
    · simp [bufferWrite, hopen] at hclosing
  | flush => simp [hop, hresult, hsame] at hclosing
  | shutdown =>
    simp only [hop, pollShutdown, hresult] at hclosing ⊢
    cases answer with
    | pending | error => simp [hsame] at hclosing
    | ready =>
      refine ⟨trivial, rfl, ?_⟩
      simp only [closeSink]
      split <;> rfl

/-- **One poll.**  It keeps its promise exactly when it does not overtake the buffer. -/
theorem handsOver_iff {e : Event} (hsink : e.sink.Healthy) (h : Accounts s) :
    HandsOver s e ↔ ¬ Overtakes s e := by
  have hflushed := pollFlush_flushed hsink s.ws
  constructor
  · rintro hover ⟨hflushes, hpending, hbuf, hready, hflush⟩
    have hok := (hflushed.ready_iff hpending).2 ⟨hready, hflush⟩
    have hhanded := hover.flush hflushes hok
    exact ((handed_pollFlush_iff hsink h hok).1 hhanded).elim hpending hbuf
  · intro hnot
    have hall : Flushes s e → (s.ws.pollFlush e.sink).1 = .ready () →
        (s.ws.pollFlush e.sink).2.handed = s.accepted := by
      intro hflushes hok
      refine (handed_pollFlush_iff hsink h hok).2 (or_iff_not_imp_left.2 fun hpending => ?_)
      have hanswers := (hflushed.ready_iff hpending).1 hok
      exact by_contra fun hbuf => hnot ⟨hflushes, hpending, hbuf, hanswers.1, hanswers.2⟩
    refine ⟨hall, fun hopen hclosing => ?_⟩
    obtain ⟨hop, hok, hhanded⟩ := closing_step hsink hopen hclosing
    have hflushes : Flushes s e := by
      unfold Flushes
      rw [hop]
      trivial
    have haccepted : (step s e).accepted = s.accepted := by
      unfold step
      rw [hop]
    rw [hhanded, hall hflushes hok, haccepted]

/-! ### Whole runs -/

def Healthy : Prop := ∀ e ∈ events, e.sink.Healthy

instance Healthy.decidable : Decidable (Healthy events) :=
  inferInstanceAs (Decidable (∀ e ∈ events, e.sink.Healthy))

theorem accounts_run {events : List Event} (hs : Accounts s) (hsink : Healthy events) :
    Accounts (events.foldl step s) := by
  induction events generalizing s with
  | nil => exact hs
  | cons e events ih =>
    have hs' := hs.step (hsink e mem_cons_self)
    exact ih hs' fun e' he' => hsink e' (mem_cons_of_mem _ he')

theorem meets_handsOver_iff {events : List Event} (hs : Accounts s) (hsink : Healthy events) :
    Run.Meets HandsOver step s events ↔ Run.Meets (fun s e => ¬ Overtakes s e) step s events := by
  induction events generalizing s with
  | nil => exact Iff.rfl
  | cons e events ih =>
    have he := hsink e mem_cons_self
    exact and_congr (handsOver_iff he hs)
      (ih (hs.step he) fun e' he' => hsink e' (mem_cons_of_mem _ he'))

/-- **Writing to a WebSocket.**  Along every run of writes, flushes and shutdowns over a sink that
does not fail, the messages handed to the sink are a beginning of the accepted bytes; and every poll
hands over all that it promises exactly when no poll overtakes the buffer. -/
theorem wsStream_handsOver (hsink : Healthy events) :
    (events.foldl step .start).ws.handed <+: (events.foldl step .start).accepted ∧
      (Run.Meets HandsOver step .start events ↔
        Run.Meets (fun s e => ¬ Overtakes s e) step .start events) := by
  refine ⟨?_, meets_handsOver_iff accounts_start hsink⟩
  have hbooks : _ = _ := accounts_run accounts_start hsink
  rw [hbooks]
  exact prefix_append _ _

def readySink : Answers := ⟨.ready, none, .ready, .ready⟩

def busySink : Answers := ⟨.pending, none, .ready, .ready⟩

def sampleRun : List Event :=
  [⟨.write [1, 2], readySink⟩, ⟨.flush, busySink⟩, ⟨.flush, readySink⟩, ⟨.write [3], readySink⟩,
    ⟨.shutdown, readySink⟩]

theorem wsStream_handsOver_sample :
    Run.Meets HandsOver step .start sampleRun ∧
      (sampleRun.foldl step .start).ws.handed = [1, 2, 3] :=
  ⟨(wsStream_handsOver sampleRun (by decide +kernel)).2.2 (by decide +kernel), by decide +kernel⟩

def overtakingRun : List Event :=
  [⟨.write [1], readySink⟩, ⟨.flush, busySink⟩, ⟨.write [2], readySink⟩]

/-- After such a run a flush reports success, and a shutdown starts the close handshake, while the
second byte is still in the buffer. -/
theorem wsStream_flush_incomplete :
    Healthy overtakingRun ∧ (overtakingRun.foldl step .start).accepted = [1, 2] ∧
      ((overtakingRun.foldl step .start).ws.pollFlush readySink).1 = .ready () ∧
      ((overtakingRun.foldl step .start).ws.pollFlush readySink).2.handed = [1] ∧
      (step (overtakingRun.foldl step .start) ⟨.shutdown, readySink⟩).ws.inner.closing = true ∧
      (step (overtakingRun.foldl step .start) ⟨.shutdown, readySink⟩).ws.handed = [1] := by
  decide +kernel

end Blackwire.Ws
